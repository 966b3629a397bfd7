import IndexedMail.Proofs.Listing.Path
import IndexedMail.Proofs.Text.Numeral

/-!
# The shape of file names

Which file names carry an article number.  A name of the documented shape is all digits, or ends
with a colon and digits.  What is actually looked for is such a name without a line feed, and one
line feed may follow it; and the digits may be too many to be read.
-/

namespace IndexedMail.Listing

open Text (isDigit not_mem_of_isDigit)
open Text.Numeral (maxDigits ofDigits)

/-- A name of the shape of a mailbox, and the digits in it. -/
inductive Shaped : Backend → List Char → List Char → Prop
  | numbered {digits : List Char} :
      digits ≠ [] → (∀ c ∈ digits, isDigit c = true) → Shaped .nnml digits digits
  | suffixed {digits : List Char} (start : List Char) :
      digits ≠ [] → (∀ c ∈ digits, isDigit c = true) →
        Shaped .nnmaildir digits (start ++ ':' :: digits)

/-- A name in which digits are found: one of the shape, without a line feed in it and with or
without one behind it. -/
def Matched (b : Backend) (digits name : List Char) : Prop :=
  ∃ stem, Shaped b digits stem ∧ '\n' ∉ stem ∧ (name = stem ∨ name = stem ++ ['\n'])

namespace Shaped

variable {b : Backend} {digits other name : List Char}

theorem ne_nil (h : Shaped b digits name) : digits ≠ [] := by
  cases h with
  | numbered hne _ => exact hne
  | suffixed _ hne _ => exact hne

theorem isDigit_of_mem (h : Shaped b digits name) : ∀ c ∈ digits, isDigit c = true := by
  cases h with
  | numbered _ hdigits => exact hdigits
  | suffixed _ _ hdigits => exact hdigits

theorem exists_append (h : Shaped b digits name) : ∃ start, name = start ++ digits := by
  cases h with
  | numbered _ _ => exact ⟨[], rfl⟩
  | suffixed start _ _ => exact ⟨start ++ [':'], by simp⟩

/-- A name of the shape ends with a digit. -/
theorem ne_append_newline (h : Shaped b digits name) (stem : List Char) :
    name ≠ stem ++ ['\n'] := by
  intro heq
  obtain ⟨start, hname⟩ := h.exists_append
  have hlast : digits.getLast? = some '\n' := by
    have hsame := congrArg List.getLast? (hname.symm.trans heq)
    rw [List.getLast?_append_of_ne_nil _ h.ne_nil, List.getLast?_concat] at hsame
    exact hsame
  exact not_mem_of_isDigit (by decide) h.isDigit_of_mem (List.mem_of_getLast? hlast)

theorem unique (h : Shaped b digits name) (h' : Shaped b other name) : digits = other := by
  cases h with
  | numbered _ _ =>
      cases h' with
      | numbered _ _ => rfl
  | suffixed start _ hdigits =>
      generalize hname : start ++ ':' :: digits = name at h'
      cases h' with
      | suffixed start' _ hother =>
          have hcut : splitLast? ':' (start ++ ':' :: digits) = some (start, digits) :=
            splitLast?_append (not_mem_of_isDigit (by decide) hdigits)
          rw [hname, splitLast?_append (not_mem_of_isDigit (by decide) hother)] at hcut
          exact (Prod.mk.inj (Option.some.inj hcut)).2.symm

end Shaped

/-! ## The digits that are found -/

theorem dropFinalNewline_append (cs : List Char) : dropFinalNewline (cs ++ ['\n']) = cs := by
  simp [dropFinalNewline]

theorem dropFinalNewline_cases (cs : List Char) :
    cs = dropFinalNewline cs ∨ cs = dropFinalNewline cs ++ ['\n'] := by
  unfold dropFinalNewline
  split
  · rename_i rest heq
    right
    rw [← List.reverse_cons, ← heq, List.reverse_reverse]
  · exact .inl rfl

theorem asDigits?_eq_some_iff {cs digits : List Char} :
    asDigits? cs = some digits ↔ cs = digits ∧ digits ≠ [] ∧ ∀ c ∈ digits, isDigit c = true := by
  unfold asDigits?
  by_cases h : (!cs.isEmpty && cs.all isDigit) = true
  · rw [if_pos h, Option.some.injEq]
    rw [Bool.and_eq_true, Bool.not_eq_true', List.isEmpty_eq_false_iff, List.all_eq_true] at h
    constructor
    · rintro rfl
      exact ⟨rfl, h⟩
    · exact fun hcs => hcs.1
  · rw [if_neg h]
    simp only [reduceCtorEq, false_iff]
    rintro ⟨rfl, hne, hdigits⟩
    refine h ?_
    rw [Bool.and_eq_true, Bool.not_eq_true', List.isEmpty_eq_false_iff, List.all_eq_true]
    exact ⟨hne, hdigits⟩

theorem splitLast?_eq_some_iff {mark : Char} {cs start rest : List Char} :
    splitLast? mark cs = some (start, rest) ↔ cs = start ++ mark :: rest ∧ mark ∉ rest := by
  constructor
  · intro h
    have hcs := List.takeWhile_append_dropWhile (p := (· != mark)) (l := cs.reverse)
    simp only [splitLast?] at h
    split at h
    · cases h
    · rename_i first before hdrop
      obtain ⟨rfl, rfl⟩ := Prod.mk.inj (Option.some.inj h)
      have hfirst : first = mark := by
        have hhead := List.head?_dropWhile_not (· != mark) cs.reverse
        rw [hdrop] at hhead
        simpa using hhead
      rw [hdrop, hfirst] at hcs
      refine ⟨?_, ?_⟩
      · calc
          cs = (cs.reverse.takeWhile (· != mark) ++ mark :: before).reverse := by
            rw [hcs, List.reverse_reverse]
          _ = before.reverse ++ mark :: (cs.reverse.takeWhile (· != mark)).reverse := by simp
      · intro hmem
        have hplain := List.mem_takeWhile_imp (List.mem_reverse.1 hmem)
        simp at hplain
  · rintro ⟨rfl, hrest⟩
    exact splitLast?_append hrest

/-- Digits are found in a name exactly if what is left of it without a final line feed has the
shape and holds no line feed. -/
theorem articleDigits?_eq_some_iff_stem {b : Backend} {name digits : List Char} :
    articleDigits? b name = some digits ↔
      Shaped b digits (dropFinalNewline name) ∧ '\n' ∉ dropFinalNewline name := by
  have hline : isDigit '\n' = false := by decide
  unfold articleDigits?
  generalize dropFinalNewline name = body
  cases b with
  | nnml =>
      rw [asDigits?_eq_some_iff]
      constructor
      · rintro ⟨rfl, hne, hdigits⟩
        exact ⟨.numbered hne hdigits, not_mem_of_isDigit hline hdigits⟩
      · rintro ⟨hshaped, -⟩
        cases hshaped with
        | numbered hne hdigits => exact ⟨rfl, hne, hdigits⟩
  | nnmaildir =>
      dsimp only
      constructor
      · intro h
        split at h
        · cases h
        · rename_i start rest hcut
          obtain ⟨rfl, -⟩ := splitLast?_eq_some_iff.1 hcut
          split at h
          · cases h
          · rename_i hstart
            obtain ⟨rfl, hne, hdigits⟩ := asDigits?_eq_some_iff.1 h
            refine ⟨.suffixed start hne hdigits, ?_⟩
            have hplain : '\n' ∉ start := by simpa using hstart
            simp [hplain, not_mem_of_isDigit hline hdigits]
      · rintro ⟨hshaped, hnone⟩
        cases hshaped with
        | suffixed start hne hdigits =>
            have hplain : '\n' ∉ start := fun h => hnone (List.mem_append_left _ h)
            rw [splitLast?_append (not_mem_of_isDigit (by decide) hdigits)]
            simp only [List.contains_iff_mem, if_neg hplain]
            exact asDigits?_eq_some_iff.2 ⟨rfl, hne, hdigits⟩

theorem articleDigits?_eq_some_iff {b : Backend} {name digits : List Char} :
    articleDigits? b name = some digits ↔ Matched b digits name := by
  rw [articleDigits?_eq_some_iff_stem]
  constructor
  · rintro ⟨hshaped, hline⟩
    exact ⟨_, hshaped, hline, dropFinalNewline_cases name⟩
  · rintro ⟨stem, hshaped, hline, rfl | rfl⟩
    · rw [dropFinalNewline_of_not_mem hline]
      exact ⟨hshaped, hline⟩
    · rw [dropFinalNewline_append]
      exact ⟨hshaped, hline⟩

/-! ## The article number -/

/-- An article number fails to be read only if it is too long, whatever stands around it. -/
theorem articleNumber_of_backend {backend : String} {b : Backend} (hb : backend = b.name)
    (basename : List Char) :
    articleNumber basename backend =
      match articleDigits? b basename with
      | none => .ok none
      | some digits =>
          if maxDigits < digits.length then .error (.numeral (.tooLong digits.length))
          else .ok (some (ofDigits digits)) := by
  subst hb
  rw [articleNumber, Backend.ofName?_name]
  cases hdigits : articleDigits? b basename with
  | none => simp only [hdigits]
  | some digits =>
      by_cases hlong : maxDigits < digits.length
      · simp [hdigits, Text.Numeral.readDigits, hlong]
      · simp [hdigits, Text.Numeral.readDigits, hlong]

theorem exists_articleNumber_iff {backend : String} {b : Backend} (hb : backend = b.name)
    (basename : List Char) :
    (∃ n, articleNumber basename backend = .ok n) ↔
      ∀ digits, articleDigits? b basename = some digits → digits.length ≤ maxDigits := by
  rw [articleNumber_of_backend hb]
  cases articleDigits? b basename with
  | none => simp
  | some digits =>
      by_cases hlong : maxDigits < digits.length
      · simp [hlong]
      · simp [hlong, Nat.not_lt.1 hlong]

theorem Matched.unique {b : Backend} {digits other name : List Char}
    (h : Matched b digits name) (h' : Matched b other name) : digits = other :=
  Option.some.inj ((articleDigits?_eq_some_iff.2 h).symm.trans (articleDigits?_eq_some_iff.2 h'))

theorem articleNumber_of_matched {b : Backend} {digits name : List Char}
    (h : Matched b digits name) :
    articleNumber name b.name =
      if maxDigits < digits.length then .error (.numeral (.tooLong digits.length))
      else .ok (some (ofDigits digits)) := by
  rw [articleNumber_of_backend rfl, articleDigits?_eq_some_iff.2 h]

theorem articleNumber_of_not_matched {b : Backend} {name : List Char}
    (h : ¬ ∃ digits, Matched b digits name) : articleNumber name b.name = .ok none := by
  have hnone : articleDigits? b name = none := by
    rw [Option.eq_none_iff_forall_ne_some]
    intro digits hdigits
    exact h ⟨digits, articleDigits?_eq_some_iff.1 hdigits⟩
  rw [articleNumber_of_backend rfl, hnone]

theorem articleNumber_eq_some_iff {b : Backend} {name : List Char} {n : Nat} :
    articleNumber name b.name = .ok (some n) ↔
      ∃ digits, Matched b digits name ∧ digits.length ≤ maxDigits ∧ ofDigits digits = n := by
  by_cases h : ∃ digits, Matched b digits name
  · obtain ⟨digits, hmatched⟩ := h
    rw [articleNumber_of_matched hmatched]
    constructor
    · intro hn
      split at hn
      · cases hn
      · rename_i hshort
        exact ⟨digits, hmatched, Nat.not_lt.1 hshort, Option.some.inj (Except.ok.inj hn)⟩
    · rintro ⟨other, hother, hshort, rfl⟩
      obtain rfl := hmatched.unique hother
      rw [if_neg (Nat.not_lt.2 hshort)]
  · rw [articleNumber_of_not_matched h]
    simp only [Except.ok.injEq, reduceCtorEq, false_iff]
    rintro ⟨digits, hmatched, -⟩
    exact h ⟨digits, hmatched⟩

theorem articleNumber_eq_none_iff {b : Backend} {name : List Char} :
    articleNumber name b.name = .ok none ↔ ¬ ∃ digits, Matched b digits name := by
  constructor
  · rintro hnone ⟨digits, hmatched⟩
    rw [articleNumber_of_matched hmatched] at hnone
    split at hnone
    · cases hnone
    · cases hnone
  · exact articleNumber_of_not_matched

theorem articleNumber_eq_error_iff {b : Backend} {name : List Char} {e : Error} :
    articleNumber name b.name = .error e ↔
      ∃ digits, Matched b digits name ∧ maxDigits < digits.length ∧
        e = .numeral (.tooLong digits.length) := by
  by_cases h : ∃ digits, Matched b digits name
  · obtain ⟨digits, hmatched⟩ := h
    rw [articleNumber_of_matched hmatched]
    constructor
    · intro he
      split at he
      · rename_i hlong
        exact ⟨digits, hmatched, hlong, (Except.error.inj he).symm⟩
      · cases he
    · rintro ⟨other, hother, hlong, rfl⟩
      obtain rfl := hmatched.unique hother
      rw [if_pos hlong]
  · rw [articleNumber_of_not_matched h]
    simp only [reduceCtorEq, false_iff]
    rintro ⟨digits, hmatched, -⟩
    exact h ⟨digits, hmatched⟩

/-- A name is read as documented: for its number if it has the shape of the mailbox, and for none
otherwise. -/
def ReadByShape (b : Backend) (name : List Char) : Prop :=
  (∀ n, articleNumber name b.name = .ok (some n) ↔
    ∃ digits, Shaped b digits name ∧ ofDigits digits = n) ∧
  (articleNumber name b.name = .ok none ↔ ¬ ∃ digits, Shaped b digits name)

/-- In a name of the shape no other digits are found, and those only where no line feed is. -/
theorem Shaped.of_matched {b : Backend} {digits other name : List Char}
    (h : Shaped b digits name) (hmatched : Matched b other name) :
    digits = other ∧ '\n' ∉ name := by
  obtain ⟨stem, hstem, hline, hname⟩ := hmatched
  obtain rfl : name = stem := hname.resolve_right (h.ne_append_newline stem)
  exact ⟨h.unique hstem, hline⟩

theorem matched_iff_shaped {b : Backend} {digits name : List Char}
    (hplain : Shaped b digits name → '\n' ∉ name)
    (hfinal : ∀ stem, Shaped b digits stem → '\n' ∉ stem → name ≠ stem ++ ['\n']) :
    Matched b digits name ↔ Shaped b digits name := by
  constructor
  · intro h
    obtain ⟨stem, hshaped, hline, hname⟩ := h
    obtain rfl : name = stem := hname.resolve_right (hfinal stem hshaped hline)
    exact hshaped
  · intro h
    exact ⟨name, h, hplain h, .inl rfl⟩

theorem readByShape_iff {b : Backend} {name : List Char} :
    ReadByShape b name ↔
      (∀ digits, Shaped b digits name → '\n' ∉ name ∧ digits.length ≤ maxDigits) ∧
      ∀ digits stem, Shaped b digits stem → '\n' ∉ stem → name ≠ stem ++ ['\n'] := by
  constructor
  · intro h
    obtain ⟨hsome, hnone⟩ := h
    refine ⟨?_, ?_⟩
    · intro digits hshaped
      have hread := (hsome _).2 ⟨digits, hshaped, rfl⟩
      obtain ⟨other, hmatched, hshort, -⟩ := articleNumber_eq_some_iff.1 hread
      obtain ⟨rfl, hline⟩ := hshaped.of_matched hmatched
      exact ⟨hline, hshort⟩
    · rintro digits stem hshaped hline rfl
      have hmatched : Matched b digits (stem ++ ['\n']) := ⟨stem, hshaped, hline, .inr rfl⟩
      have hno : ¬ ∃ digits, Shaped b digits (stem ++ ['\n']) := fun ⟨_, h⟩ =>
        h.ne_append_newline stem rfl
      exact articleNumber_eq_none_iff.1 (hnone.2 hno) ⟨digits, hmatched⟩
  · intro h
    obtain ⟨hplain, hfinal⟩ := h
    have hiff : ∀ digits, Matched b digits name ↔ Shaped b digits name := fun digits =>
      matched_iff_shaped (fun hshaped => (hplain digits hshaped).1) (hfinal digits)
    refine ⟨?_, ?_⟩
    · intro n
      rw [articleNumber_eq_some_iff]
      constructor
      · rintro ⟨digits, hmatched, -, hn⟩
        exact ⟨digits, (hiff digits).1 hmatched, hn⟩
      · rintro ⟨digits, hshaped, hn⟩
        exact ⟨digits, (hiff digits).2 hshaped, (hplain digits hshaped).2, hn⟩
    · rw [articleNumber_eq_none_iff, exists_congr hiff]

/--
What article number a file name gives, for both kinds of mailbox.

It is that of a name of the shape, without a line feed and perhaps with one behind it, if its
digits are not too many; with too many, reading fails.  So the shape alone decides exactly for the
names that are not of the shape with a line feed inside, or with a line feed behind, and not of
the shape with too many digits.
-/
theorem articleNumber_by_shape (b : Backend) (name : List Char) :
    (∀ n, articleNumber name b.name = .ok (some n) ↔
      ∃ digits, Matched b digits name ∧ digits.length ≤ maxDigits ∧ ofDigits digits = n) ∧
    (articleNumber name b.name = .ok none ↔ ¬ ∃ digits, Matched b digits name) ∧
    (∀ e, articleNumber name b.name = .error e ↔
      ∃ digits, Matched b digits name ∧ maxDigits < digits.length ∧
        e = .numeral (.tooLong digits.length)) ∧
    (ReadByShape b name ↔
      (∀ digits, Shaped b digits name → '\n' ∉ name ∧ digits.length ≤ maxDigits) ∧
      ∀ digits stem, Shaped b digits stem → '\n' ∉ stem → name ≠ stem ++ ['\n']) :=
  ⟨fun _ => articleNumber_eq_some_iff, articleNumber_eq_none_iff,
    fun _ => articleNumber_eq_error_iff, readByShape_iff⟩

/-- A number with a line feed behind it is read, although it is not all digits. -/
theorem articleNumber_not_by_shape :
    articleNumber "5\n".toList Backend.nnml.name = .ok (some 5) ∧
      ¬ ∀ (b : Backend) (name : List Char), ReadByShape b name := by
  have hread : articleNumber "5\n".toList Backend.nnml.name = .ok (some 5) := by decide
  refine ⟨hread, ?_⟩
  intro h
  obtain ⟨digits, hshaped, -⟩ := ((h .nnml "5\n".toList).1 5).1 hread
  exact hshaped.ne_append_newline ['5'] rfl

end IndexedMail.Listing
