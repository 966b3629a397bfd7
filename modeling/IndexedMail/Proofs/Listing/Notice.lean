import IndexedMail.Listing.Line
import IndexedMail.Proofs.Ranking.Stability
import IndexedMail.Proofs.Text.Numeral
import Mathlib.Data.List.TakeWhile

/-!
# Notices of a listing

What the lines of a listing say before any numeral in them is read: a notice holds the digits of
a score and of an article number as they stand.  A listing is read exactly if no notice in it has
a numeral that is too long, and its hits are then those of all notices, in stable order.
-/

namespace IndexedMail

/-- The number that the score of a hit spells, however long it is. -/
def Hit.value (h : Hit) : Int :=
  Int.ofNat (Text.Numeral.ofDigits h.score.toList)

namespace Listing

open Ranking Text.Numeral

/-- A message as a line tells of it. -/
structure Notice where
  score : List Char
  group : List Char
  article : List Char
  deriving DecidableEq, Repr

namespace Notice

/-- Neither numeral is too long to be read. -/
def Readable (n : Notice) : Prop :=
  n.score.length ≤ maxDigits ∧ n.article.length ≤ maxDigits

/-- The hit on a server that a notice stands for. -/
def hit (server : String) (n : Notice) : Hit :=
  { server := server
    group := String.ofList n.group
    article := Int.ofNat (ofDigits n.article)
    score := String.ofList n.score }

end Notice

/-- The notice that a line gives, if it is of the form of the mailbox. -/
def notice? (b : Backend) (root line : List Char) : Option Notice :=
  match splitLine? line with
  | none => none
  | some (score, coded) =>
      let (directory, basename) := splitPath (Text.Percent.decode coded)
      (articleDigits? b basename).map fun digits =>
        { score := score, group := groupName directory root, article := digits }

/-- The notices of a text, line by line. -/
def notices (b : Backend) (root text : List Char) : List Notice :=
  (Text.lines text).filterMap (notice? b root)

/-! ## Lines and their hits -/

theorem isDigit_of_splitLine? {line score coded : List Char}
    (h : splitLine? line = some (score, coded)) :
    score ≠ [] ∧ ∀ c ∈ score, Text.isDigit c = true := by
  unfold splitLine? at h
  simp only at h
  split at h
  · cases h
  · rename_i hne
    split at h
    · cases h
    · split at h
      · cases h
      · cases h
        refine ⟨fun hnil => hne (by simp [hnil]), ?_⟩
        intro c hc
        exact List.mem_takeWhile_imp hc

theorem isDigit_of_notice? {b : Backend} {root line : List Char} {n : Notice}
    (h : notice? b root line = some n) : n.score ≠ [] ∧ ∀ c ∈ n.score, Text.isDigit c = true := by
  unfold notice? at h
  split at h
  · cases h
  · rename_i score coded hsplit
    obtain ⟨digits, -, rfl⟩ := Option.map_eq_some_iff.1 h
    exact isDigit_of_splitLine? hsplit

theorem parseLine_of_notice?_none {m : Mailbox} {b : Backend} (hb : m.backend = b.name)
    {line : List Char} (h : notice? b m.removePrefix.toList line = none) :
    parseLine m line = .ok none := by
  unfold notice? at h
  unfold parseLine
  cases hsplit : splitLine? line with
  | none => rfl
  | some found =>
      obtain ⟨score, coded⟩ := found
      simp only [hsplit, Option.map_eq_none_iff] at h
      simp [articleNumber, hb, Backend.ofName?_name, h]

theorem parseLine_of_notice? {m : Mailbox} {b : Backend} (hb : m.backend = b.name)
    {line : List Char} {n : Notice} (h : notice? b m.removePrefix.toList line = some n) :
    parseLine m line =
      if maxDigits < n.article.length then .error (.numeral (.tooLong n.article.length))
      else .ok (some (n.hit m.server)) := by
  unfold notice? at h
  unfold parseLine
  cases hsplit : splitLine? line with
  | none => simp [hsplit] at h
  | some found =>
      obtain ⟨score, coded⟩ := found
      simp only [hsplit, Option.map_eq_some_iff] at h
      obtain ⟨digits, hdigits, rfl⟩ := h
      by_cases hlong : maxDigits < digits.length
      · simp [articleNumber, hb, Backend.ofName?_name, hdigits, readDigits, hlong]
      · simp [articleNumber, hb, Backend.ofName?_name, hdigits, readDigits, hlong, Notice.hit]

theorem hitsOfLines_eq_ok_iff {m : Mailbox} {b : Backend} (hb : m.backend = b.name)
    {lines : List (List Char)} {hits : List Hit} :
    hitsOfLines m lines = .ok hits ↔
      (∀ n ∈ lines.filterMap (notice? b m.removePrefix.toList), n.article.length ≤ maxDigits) ∧
        hits = (lines.filterMap (notice? b m.removePrefix.toList)).map (Notice.hit m.server) := by
  induction lines generalizing hits with
  | nil => simp [hitsOfLines, eq_comm]
  | cons line rest ih =>
      cases hn : notice? b m.removePrefix.toList line with
      | none => simp [hitsOfLines, parseLine_of_notice?_none hb hn, hn, ih]
      | some n =>
          by_cases hlong : maxDigits < n.article.length
          · have hnot : ¬ n.article.length ≤ maxDigits := Nat.not_le.2 hlong
            simp [hitsOfLines, parseLine_of_notice? hb hn, hlong, hn, hnot]
          · have hle : n.article.length ≤ maxDigits := Nat.not_lt.1 hlong
            simp only [hitsOfLines, parseLine_of_notice? hb hn, hlong, if_false,
              List.filterMap_cons, hn, List.mem_cons, forall_eq_or_imp, hle, true_and,
              List.map_cons]
            cases hr : hitsOfLines m rest with
            | error e =>
                refine ⟨fun h => (by cases h), ?_⟩
                rintro ⟨hall, -⟩
                have hok := ih.2 ⟨hall, rfl⟩
                rw [hr] at hok
                cases hok
            | ok tail =>
                obtain ⟨hall, rfl⟩ := ih.1 hr
                simp only [Except.map, Except.ok.injEq]
                exact ⟨fun h => ⟨hall, h.symm⟩, fun h => h.2.symm⟩

/-! ## Whole listings -/

theorem rank_hit {server : String} {n : Notice} (hne : n.score ≠ [])
    (hdigits : ∀ c ∈ n.score, Text.isDigit c = true) :
    (n.hit server).rank = (readDigits n.score).map Int.ofNat := by
  simp only [Hit.rank, Notice.hit, String.toList_ofList]
  exact read_of_forall hne hdigits

theorem exists_rank_hit_iff {server : String} {n : Notice} (hne : n.score ≠ [])
    (hdigits : ∀ c ∈ n.score, Text.isDigit c = true) :
    (∃ k, (n.hit server).rank = .ok k) ↔ n.score.length ≤ maxDigits := by
  rw [rank_hit hne hdigits]
  constructor
  · rintro ⟨k, hk⟩
    cases hr : readDigits n.score with
    | error e => simp [hr, Except.map] at hk
    | ok v => exact (readDigits_eq_ok_iff.1 hr).1
  · intro h
    exact ⟨_, by rw [readDigits_of_le h]; rfl⟩

theorem keyOf_rank_hit {server : String} {n : Notice} (hne : n.score ≠ [])
    (hdigits : ∀ c ∈ n.score, Text.isDigit c = true) (h : n.score.length ≤ maxDigits) :
    keyOf Hit.rank (n.hit server) = (n.hit server).value := by
  apply keyOf_of_ok
  rw [rank_hit hne hdigits, readDigits_of_le h]
  simp [Except.map, Hit.value, Notice.hit]

theorem isDigit_of_mem_notices {b : Backend} {root text : List Char} {n : Notice}
    (h : n ∈ notices b root text) : n.score ≠ [] ∧ ∀ c ∈ n.score, Text.isDigit c = true := by
  obtain ⟨line, -, hline⟩ := List.mem_filterMap.1 h
  exact isDigit_of_notice? hline

/-- A listing is read exactly if all its notices are readable; its hits are theirs in order. -/
theorem parse_eq_ok_iff {m : Mailbox} {b : Backend} (hb : m.backend = b.name) {text : List Char}
    {hits : List Hit} :
    parse m text = .ok hits ↔
      (∀ n ∈ notices b m.removePrefix.toList text, n.Readable) ∧
        StablyRanked Hit.value ((notices b m.removePrefix.toList text).map (Notice.hit m.server))
          hits := by
  have hlines := @hitsOfLines_eq_ok_iff m b hb (Text.lines text)
  change ∀ {hits : List Hit}, hitsOfLines m (Text.lines text) = .ok hits ↔
    (∀ n ∈ notices b m.removePrefix.toList text, n.article.length ≤ maxDigits) ∧
      hits = (notices b m.removePrefix.toList text).map (Notice.hit m.server) at hlines
  have hdigits := @isDigit_of_mem_notices b m.removePrefix.toList text
  obtain ⟨all, hall⟩ : ∃ all, all = notices b m.removePrefix.toList text := ⟨_, rfl⟩
  rw [← hall] at hlines hdigits ⊢
  have hkeys : (∀ n ∈ all, n.score.length ≤ maxDigits) → ∀ h ∈ all.map (Notice.hit m.server),
      keyOf Hit.rank h = h.value := by
    intro hscores h hh
    obtain ⟨n, hn, rfl⟩ := List.mem_map.1 hh
    exact keyOf_rank_hit (hdigits hn).1 (hdigits hn).2 (hscores n hn)
  have hranks : (∀ h ∈ all.map (Notice.hit m.server), ∃ k, h.rank = .ok k) ↔
      ∀ n ∈ all, n.score.length ≤ maxDigits := by
    rw [List.forall_mem_map]
    exact forall₂_congr fun n hn => exists_rank_hit_iff (hdigits hn).1 (hdigits hn).2
  have hsort : Hit.sortByScore (all.map (Notice.hit m.server)) = .ok hits ↔
      (∀ n ∈ all, n.score.length ≤ maxDigits) ∧
        StablyRanked Hit.value (all.map (Notice.hit m.server)) hits := by
    unfold Hit.sortByScore
    rw [sort_eq_ok_iff, hranks]
    constructor
    · rintro ⟨hscores, hstable⟩
      exact ⟨hscores, hstable.congr_key (hkeys hscores)⟩
    · rintro ⟨hscores, hstable⟩
      exact ⟨hscores, hstable.congr_key fun h hh => (hkeys hscores h hh).symm⟩
  constructor
  · intro h
    unfold parse at h
    cases hr : hitsOfLines m (Text.lines text) with
    | error e => simp [hr] at h
    | ok found =>
        obtain ⟨harticles, rfl⟩ := hlines.1 hr
        cases hs : Hit.sortByScore (all.map (Notice.hit m.server)) with
        | error e => simp [hr, hs] at h
        | ok ordered =>
            obtain rfl : ordered = hits := by simpa [hr, hs] using h
            obtain ⟨hscores, hstable⟩ := hsort.1 hs
            exact ⟨fun n hn => ⟨hscores n hn, harticles n hn⟩, hstable⟩
  · rintro ⟨hreadable, hstable⟩
    have hr := hlines.2 ⟨fun n hn => (hreadable n hn).2, rfl⟩
    have hs := hsort.2 ⟨fun n hn => (hreadable n hn).1, hstable⟩
    simp [parse, hr, hs]

/-- Every hit of a listing stands for a notice in it. -/
theorem exists_notice_of_mem {m : Mailbox} {b : Backend} (hb : m.backend = b.name)
    {text : List Char} {hits : List Hit} (h : parse m text = .ok hits) {x : Hit} (hx : x ∈ hits) :
    ∃ n ∈ notices b m.removePrefix.toList text, n.Readable ∧ n.hit m.server = x := by
  obtain ⟨hreadable, hstable⟩ := (parse_eq_ok_iff hb).1 h
  obtain ⟨n, hn, hhit⟩ := List.mem_map.1 ((hstable.mem_iff x).1 hx)
  exact ⟨n, hn, hreadable n hn, hhit⟩

theorem parse_of_notice {m : Mailbox} {b : Backend} (hb : m.backend = b.name) {text : List Char}
    {n : Notice} (hnotices : notices b m.removePrefix.toList text = [n])
    (hreadable : n.Readable) : parse m text = .ok [n.hit m.server] := by
  rw [parse_eq_ok_iff hb, hnotices]
  exact ⟨List.forall_mem_singleton.2 hreadable,
    StablyRanked.of_falling (List.pairwise_singleton _ _)⟩

theorem parse_eq_ok_nil_iff {m : Mailbox} {b : Backend} (hb : m.backend = b.name)
    {text : List Char} :
    parse m text = .ok [] ↔ notices b m.removePrefix.toList text = [] := by
  rw [parse_eq_ok_iff hb]
  constructor
  · rintro ⟨-, hstable⟩
    rw [List.eq_nil_iff_forall_not_mem]
    intro n hn
    have hmem := (hstable.mem_iff (n.hit m.server)).2 (List.mem_map_of_mem hn)
    cases hmem
  · intro hnone
    rw [hnone]
    exact ⟨fun n hn => absurd hn List.not_mem_nil, StablyRanked.of_falling List.Pairwise.nil⟩

theorem exists_parse_iff {m : Mailbox} {b : Backend} (hb : m.backend = b.name)
    {text : List Char} :
    (∃ hits, parse m text = .ok hits) ↔
      ∀ n ∈ notices b m.removePrefix.toList text, n.Readable := by
  constructor
  · rintro ⟨hits, hparse⟩
    exact ((parse_eq_ok_iff hb).1 hparse).1
  · intro hreadable
    exact ⟨_, (parse_eq_ok_iff hb).2 ⟨hreadable, stablyRanked_mergeSort _ _⟩⟩

end Listing

end IndexedMail
