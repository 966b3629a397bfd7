import IndexedMail.Text.Blank
import IndexedMail.Text.Lines
import IndexedMail.Text.Wide
import Mathlib.Data.List.Basic

/-!
# Cutting at line breaks

A line without line ends in it, followed by a line break, is cut off whole.
-/

namespace IndexedMail.Text

/-- What ends a line of a listing: a line feed, or a carriage return before one. -/
inductive LineBreak : List Char → Prop
  | lf : LineBreak ['\n']
  | crlf : LineBreak ['\r', '\n']

theorem eq_false_of_any {p : Char → Bool} {cs : List Char} (h : cs.any p = false) :
    ∀ c ∈ cs, p c = false := by
  simpa using h

theorem lines_cons_of_not_end {c : Char} (h : isLineEnd c = false) (rest : List Char) :
    lines (c :: rest) =
      match lines rest with
      | [] => [[c]]
      | line :: more => (c :: line) :: more := by
  have hbreak : ∀ tail, c = '\r' → rest = '\n' :: tail → False := by
    rintro _ rfl _
    exact absurd h (by decide)
  have hcons : lines (c :: rest) =
      if isLineEnd c then [] :: lines rest
      else
        match lines rest with
        | [] => [[c]]
        | line :: more => (c :: line) :: more := lines.eq_3 c rest hbreak
  exact hcons.trans (if_neg (by simp [h]))

theorem lines_break {eol : List Char} (h : LineBreak eol) (text : List Char) :
    lines (eol ++ text) = [] :: lines text := by
  cases h with
  | lf => exact lines_lf text
  | crlf => exact lines_crlf text

/-- The first line break cuts off all that stands before it. -/
theorem lines_append_break {line eol : List Char} (hline : ∀ c ∈ line, isLineEnd c = false)
    (heol : LineBreak eol) (text : List Char) :
    lines (line ++ (eol ++ text)) = line :: lines text := by
  induction line with
  | nil => exact lines_break heol text
  | cons c rest ih =>
      have hc := hline c List.mem_cons_self
      rw [List.cons_append, lines_cons_of_not_end hc,
        ih fun d hd => hline d (List.mem_cons_of_mem _ hd)]

theorem lines_cons_of_end {c : Char} (h : isLineEnd c = true) {rest : List Char}
    (hcrlf : ∀ tail, c = '\r' → rest = '\n' :: tail → False) :
    lines (c :: rest) = [] :: lines rest := by
  rw [lines.eq_3 c rest hcrlf]
  exact if_pos h

theorem lines_ne_nil {text : List Char} (h : text ≠ []) : lines text ≠ [] := by
  fun_cases lines text <;> simp_all

theorem isLineEnd_of_getLast?_cons {d : Char} {rest : List Char} (hd : isLineEnd d = true)
    (h : ∀ c ∈ rest.getLast?, isLineEnd c = true) :
    ∀ c ∈ (d :: rest).getLast?, isLineEnd c = true := by
  cases rest with
  | nil => simpa using hd
  | cons e rest => simpa using h

/--
A line feed cuts a text in two.  Nothing stands between the lines of the two parts if the feed
ends a line that was begun, and else the empty line that it opens and ends.
-/
theorem lines_append_lf (text more : List Char) :
    ∃ gap, (gap = [] ∨ gap = [[]] ∧ ∀ c ∈ text.getLast?, isLineEnd c = true) ∧
      lines (text ++ '\n' :: more) = lines text ++ gap ++ lines more := by
  induction text using lines.induct with
  | case1 => exact ⟨[[]], .inr ⟨rfl, by simp⟩, by simp [lines_lf, lines_nil]⟩
  | case2 rest ih =>
      obtain ⟨gap, hgap, hlines⟩ := ih
      have hreturn : isLineEnd '\r' = true := by decide
      have hfeed : isLineEnd '\n' = true := by decide
      refine ⟨gap, hgap.imp id fun h => ⟨h.1, ?_⟩, ?_⟩
      · exact isLineEnd_of_getLast?_cons hreturn (isLineEnd_of_getLast?_cons hfeed h.2)
      · rw [List.cons_append, List.cons_append, lines_crlf, lines_crlf, hlines]
        rfl
  | case3 c rest hcrlf hend ih =>
      obtain ⟨gap, hgap, hlines⟩ := ih
      by_cases hreturn : rest = [] ∧ c = '\r'
      · obtain ⟨rfl, rfl⟩ := hreturn
        exact ⟨[], .inl rfl, by simp [lines_crlf, lines, isLineEnd]⟩
      · have hlonger : ∀ tail, c = '\r' → rest ++ '\n' :: more = '\n' :: tail → False := by
          intro tail hc htail
          cases rest with
          | nil => exact hreturn ⟨rfl, hc⟩
          | cons d rest =>
              obtain ⟨rfl, -⟩ := List.cons.inj htail
              exact hcrlf rest hc rfl
        refine ⟨gap, hgap.imp id fun h => ⟨h.1, isLineEnd_of_getLast?_cons hend h.2⟩, ?_⟩
        rw [List.cons_append, lines_cons_of_end hend hlonger, lines_cons_of_end hend hcrlf, hlines]
        rfl
  | case4 c rest hcrlf hend hnone ih =>
      have hend : isLineEnd c = false := by simpa using hend
      obtain rfl : rest = [] := by
        by_contra hne
        exact lines_ne_nil hne hnone
      refine ⟨[], .inl rfl, ?_⟩
      rw [List.singleton_append, lines_cons_of_not_end hend, lines_cons_of_not_end hend, lines_lf]
      rfl
  | case5 c rest hcrlf hend line others hsome ih =>
      have hend : isLineEnd c = false := by simpa using hend
      obtain ⟨gap, hgap, hlines⟩ := ih
      have hlast : (c :: rest).getLast? = rest.getLast? := by
        cases rest with
        | nil => cases hsome
        | cons d rest => exact List.getLast?_cons_cons
      refine ⟨gap, by rwa [hlast], ?_⟩
      rw [List.cons_append, lines_cons_of_not_end hend, lines_cons_of_not_end hend, hlines, hsome]
      rfl

/-- A line that was begun ends at the line feed. -/
theorem lines_append_lf_of_getLast? {text : List Char} {c : Char} (hlast : text.getLast? = some c)
    (hc : isLineEnd c = false) (more : List Char) :
    lines (text ++ '\n' :: more) = lines text ++ lines more := by
  obtain ⟨gap, hgap, hlines⟩ := lines_append_lf text more
  rcases hgap with rfl | ⟨-, hend⟩
  · rw [hlines, List.append_nil]
  · rw [hend c hlast] at hc
    cases hc

theorem isLineEnd_of_mem_lines {text : List Char} :
    ∀ line ∈ lines text, ∀ c ∈ line, isLineEnd c = false := by
  fun_induction lines text with
  | case1 => simp
  | case2 rest ih => exact List.forall_mem_cons.2 ⟨by simp, ih⟩
  | case3 c rest hcrlf hend ih => exact List.forall_mem_cons.2 ⟨by simp, ih⟩
  | case4 c rest hcrlf hend hnone ih => simpa using hend
  | case5 c rest hcrlf hend line others hsome ih =>
      have hc : isLineEnd c = false := by simpa using hend
      rw [hsome, List.forall_mem_cons] at ih
      exact List.forall_mem_cons.2 ⟨List.forall_mem_cons.2 ⟨hc, ih.1⟩, ih.2⟩

theorem mem_of_mem_lines {text : List Char} :
    ∀ line ∈ lines text, ∀ c ∈ line, c ∈ text := by
  fun_induction lines text with
  | case1 => simp
  | case2 rest ih =>
      refine List.forall_mem_cons.2 ⟨by simp, ?_⟩
      intro line hline c hc
      exact List.mem_cons_of_mem _ (List.mem_cons_of_mem _ (ih line hline c hc))
  | case3 c rest hcrlf hend ih =>
      refine List.forall_mem_cons.2 ⟨by simp, ?_⟩
      intro line hline d hd
      exact List.mem_cons_of_mem _ (ih line hline d hd)
  | case4 c rest hcrlf hend hnone ih => simp
  | case5 c rest hcrlf hend line others hsome ih =>
      rw [hsome, List.forall_mem_cons] at ih
      obtain ⟨hfirst, hothers⟩ := ih
      refine List.forall_mem_cons.2 ⟨List.forall_mem_cons.2 ⟨List.mem_cons_self, ?_⟩, ?_⟩
      · intro d hd
        exact List.mem_cons_of_mem _ (hfirst d hd)
      · intro other hother d hd
        exact List.mem_cons_of_mem _ (hothers other hother d hd)

theorem lines_of_forall {line : List Char} (hne : line ≠ [])
    (h : ∀ c ∈ line, isLineEnd c = false) : lines line = [line] := by
  induction line with
  | nil => exact absurd rfl hne
  | cons c rest ih =>
      rw [lines_cons_of_not_end (h c List.mem_cons_self)]
      cases rest with
      | nil => rfl
      | cons d rest => rw [ih (by simp) fun e he => h e (List.mem_cons_of_mem _ he)]

theorem intercalate_append {α : Type} {sep : List α} {ls : List (List α)} (h : ls ≠ []) :
    sep.intercalate ls ++ sep = ls.flatMap fun l => l ++ sep := by
  induction ls with
  | nil => exact absurd rfl h
  | cons l rest ih =>
      cases rest with
      | nil => simp
      | cons l' rest =>
          rw [List.intercalate_cons_cons, List.flatMap_cons, ← ih (by simp), List.append_assoc]

/-- Each of some lines that were begun is cut by itself. -/
theorem lines_flatMap_lf {ls : List (List Char)}
    (h : ∀ l ∈ ls, ∃ c, l.getLast? = some c ∧ isLineEnd c = false) :
    lines (ls.flatMap fun l => l ++ ['\n']) = ls.flatMap lines := by
  induction ls with
  | nil => rfl
  | cons l rest ih =>
      obtain ⟨c, hlast, hc⟩ := h l List.mem_cons_self
      have hrest := ih fun l' hl' => h l' (List.mem_cons_of_mem _ hl')
      rw [List.flatMap_cons, List.flatMap_cons, List.append_assoc, List.singleton_append,
        lines_append_lf_of_getLast? hlast hc, hrest]

/-- Nothing is cut exactly where no line has a line end in it. -/
theorem flatMap_lines_eq_self_iff {ls : List (List Char)} (hne : ∀ l ∈ ls, l ≠ []) :
    ls.flatMap lines = ls ↔ ∀ l ∈ ls, ∀ c ∈ l, isLineEnd c = false := by
  constructor
  · intro h l hl
    rw [← h] at hl
    obtain ⟨l', -, hcut⟩ := List.mem_flatMap.1 hl
    exact isLineEnd_of_mem_lines l hcut
  · intro h
    have hcut : ∀ l ∈ ls, lines l = [l] := fun l hl => lines_of_forall (hne l hl) (h l hl)
    rw [List.flatMap_congr hcut, List.flatMap_singleton']

namespace Wide

theorem lines_cons_map {c : Char} {rest : List Char}
    (hcrlf : ∀ tail, c = '\r' → rest = '\n' :: tail → False) :
    lines (.char c :: rest.map .char) =
      if isLineEnd c then [] :: lines (rest.map .char)
      else
        match lines (rest.map .char) with
        | [] => [[.char c]]
        | line :: more => (.char c :: line) :: more := by
  refine lines.eq_3 (.char c) (rest.map .char) ?_
  intro tail hc hrest
  obtain ⟨d, more, rfl, hd, -⟩ := List.map_eq_cons_iff.1 hrest
  exact hcrlf more (Point.char.inj hc) (congrArg (· :: more) (Point.char.inj hd))

/-- Characters have the lines of their text. -/
theorem lines_map_char (cs : List Char) :
    lines (cs.map .char) = (Text.lines cs).map (List.map .char) := by
  induction cs using Text.lines.induct with
  | case1 => rfl
  | case2 rest ih => simp [lines, Text.lines, ih]
  | case3 c rest hcrlf hend ih =>
      rw [lines_cons_of_end hend hcrlf, List.map_cons, lines_cons_map hcrlf, if_pos hend, ih]
      rfl
  | case4 c rest hcrlf hend hnone ih =>
      rw [lines_cons_of_not_end (by simpa using hend), List.map_cons, lines_cons_map hcrlf,
        if_neg hend, ih, hnone]
      rfl
  | case5 c rest hcrlf hend line others hsome ih =>
      rw [lines_cons_of_not_end (by simpa using hend), List.map_cons, lines_cons_map hcrlf,
        if_neg hend, ih, hsome]
      rfl

end Wide

theorem foldLineBreaks_of_not_mem {cs : List Char} (h : '\r' ∉ cs) : foldLineBreaks cs = cs := by
  induction cs with
  | nil => rfl
  | cons c rest ih =>
      rw [List.mem_cons, not_or] at h
      have hc : c ≠ '\r' := Ne.symm h.1
      simp [foldLineBreaks, hc, ih h.2]

/-- Nothing is trimmed off a text whose last character stays. -/
theorem trimEndBy_of_getLast? {p : Char → Bool} {cs : List Char}
    (h : ∀ c ∈ cs.getLast?, p c = false) : trimEndBy p cs = cs := by
  rcases List.eq_nil_or_concat cs with rfl | ⟨start, c, rfl⟩
  · rfl
  · have hc := h c (by simp)
    rw [List.concat_eq_append, trimEndBy_append_singleton, if_neg (by simp [hc])]

end IndexedMail.Text
