import IndexedMail.Proofs.Query.Grammar

/-!
# Queries put together

A query that can be cut into words leaves nothing open behind a separator: what follows is cut as
if it stood alone.  So the filters of two such queries, one behind the other, are those of the
first and then those of the second, and the same goes for their free text.
-/

namespace IndexedMail.Query

/-! ## Lines one behind the other -/

/-- The words of a line stay what they are when more is written behind a separator. -/
theorem words_append_separator {line : List Char} {tokens : List (List Char)}
    (h : Line line tokens) {c : Char} (hc : isSeparator c = true) (rest : List Char) :
    words (line ++ c :: rest) = (words rest).map (tokens ++ ·) := by
  unfold words
  induction h with
  | nil =>
      rw [List.nil_append, wordsFrom_between_separator hc]
      cases wordsFrom .between rest <;> rfl
  | separator hfirst _ ih => rw [List.cons_append, wordsFrom_between_separator hfirst, ih]
  | last htoken =>
      rw [wordsFrom_between_token htoken, wordsFrom_bare_separator hc]
      cases wordsFrom .between rest with
      | error e => rfl
      | ok more => simp [Except.map, prependAll_cons]
  | token htoken hnext _ ih =>
      rw [List.append_assoc, List.cons_append, wordsFrom_between_token htoken,
        wordsFrom_bare_separator hnext, ih]
      cases wordsFrom .between rest with
      | error e => rfl
      | ok more => simp [Except.map, prependAll_cons]

theorem words_separators_append {gap : List Char} (h : ∀ c ∈ gap, isSeparator c = true)
    (rest : List Char) : words (gap ++ rest) = words rest := by
  induction gap with
  | nil => rfl
  | cons c more ih =>
      rw [List.forall_mem_cons] at h
      exact (wordsFrom_between_separator h.1 _).trans (ih h.2)

theorem words_append {line : List Char} {tokens : List (List Char)} (h : Line line tokens)
    {gap : List Char} (hne : gap ≠ []) (hgap : ∀ c ∈ gap, isSeparator c = true)
    (rest : List Char) : words (line ++ gap ++ rest) = (words rest).map (tokens ++ ·) := by
  obtain ⟨c, more, rfl⟩ := List.exists_cons_of_ne_nil hne
  rw [List.forall_mem_cons] at hgap
  rw [List.append_assoc, List.cons_append, words_append_separator h hgap.1,
    words_separators_append hgap.2]

/-! ## Queries one behind the other -/

theorem tokenize_append {first gap : String} {tokens : List String}
    (hfirst : tokenize first = .ok tokens) (hne : gap ≠ "")
    (hgap : ∀ c ∈ gap.toList, isSeparator c = true) (second : String) :
    tokenize (first ++ gap ++ second) =
      match tokenize second with
      | .ok more => .ok (tokens ++ more)
      | .error e => .error ⟨first ++ gap ++ second, e.cause⟩ := by
  have hwords := words_append (tokenize_eq_ok_iff.1 hfirst) (by simpa using hne) hgap second.toList
  unfold tokenize
  rw [String.toList_append, String.toList_append, hwords]
  cases words second.toList with
  | error cause => rfl
  | ok more => simp [Except.map, Function.comp_def]

/-- The words that are no filters, in order. -/
def freeWords (tokens : List String) : List String :=
  tokens.filter fun t => (parseFilter t.toList).isNone

theorem freeWords_append (tokens more : List String) :
    freeWords (tokens ++ more) = freeWords tokens ++ freeWords more := by
  simp [freeWords]

namespace Criteria

theorem ofWords_append (tokens more : List String) :
    ofWords (tokens ++ more) =
      { text := String.intercalate " " (freeWords tokens ++ freeWords more)
        filters := (ofWords tokens).filters ++ (ofWords more).filters } := by
  rw [← freeWords_append]
  simp [ofWords, freeWords]

/--
Two queries, one behind the other with separators between them.

If the first can be cut into words, the whole is refused exactly if the second is, and for the same
cause.  Otherwise the words of the whole are those of the two, in order, and so are its filters and
the words of its text.
-/
theorem ofQuery_append {first gap : String} {tokens : List String}
    (hfirst : tokenize first = .ok tokens) (hne : gap ≠ "")
    (hgap : ∀ c ∈ gap.toList, c ∈ [' ', '\t', '\r', '\n']) (second : String) :
    let whole := first ++ gap ++ second
    (∀ e, ofQuery whole = .error e ↔
      ∃ e', tokenize second = .error e' ∧ e = ⟨whole, e'.cause⟩) ∧
    (∀ more, tokenize second = .ok more →
      tokenize whole = .ok (tokens ++ more) ∧
      ∃ c, ofQuery whole = .ok c ∧
        c.filters = (ofWords tokens).filters ++ (ofWords more).filters ∧
        c.text = String.intercalate " " (freeWords tokens ++ freeWords more)) := by
  intro whole
  have hwhole := tokenize_append hfirst hne
    (fun c hc => by simpa [isSeparator, or_assoc] using hgap c hc) second
  refine ⟨fun e => ?_, fun more hmore => ?_⟩
  · rw [ofQuery_eq_error_iff, hwhole]
    cases tokenize second <;> simp [whole, eq_comm]
  · simp only [hmore] at hwhole
    refine ⟨hwhole, _, ofQuery_of_tokenize hwhole, ?_, ?_⟩
    · rw [ofWords_append]
    · rw [ofWords_append]

/-- A quoted value, an empty word and a second filter. -/
theorem ofQuery_append_quoted :
    tokenize "@title='a b' x" = .ok ["@title=a b", "x"] ∧
    tokenize "\"\" @size>5" = .ok ["", "@size>5"] ∧
    ∃ c, ofQuery ("@title='a b' x" ++ "\t\n" ++ "\"\" @size>5") = .ok c ∧
      c.filters = [⟨"@title", "STRINC", "a b"⟩, ⟨"@size", "NUMGE", "5"⟩] ∧ c.text = "x " := by
  have hfirst : tokenize "@title='a b' x" = .ok ["@title=a b", "x"] := by decide
  have hsecond : tokenize "\"\" @size>5" = .ok ["", "@size>5"] := by decide
  have hgap : ∀ c ∈ "\t\n".toList, c ∈ [' ', '\t', '\r', '\n'] := by simp
  obtain ⟨-, hall⟩ := ofQuery_append hfirst (by decide) hgap "\"\" @size>5"
  obtain ⟨-, c, hc, hfilters, htext⟩ := hall _ hsecond
  exact ⟨hfirst, hsecond, c, hc, hfilters.trans (by decide), htext.trans (by decide)⟩

end Criteria

end IndexedMail.Query
