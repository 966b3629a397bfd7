import IndexedMail.Proofs.Query.Composition

/-!
# The free text of a query, read again

In a line without quotation marks and backslashes the words are the runs between separators.  Words
that could be written down without quotation are found again when they are joined by single spaces
and the whole is cut, and none of them turns into a filter by that.  So the free text of a query is
its own translation.
-/

namespace IndexedMail.Query

/-! ## Runs -/

/-- The longest stretches of a line that have no separator in them, in order. -/
def runs (line : List Char) : List (List Char) :=
  (line.splitOnP isSeparator).filter fun run => !run.isEmpty

theorem isBare_or_isSeparator {c : Char} (h : c ∉ ['\x27', '"', '\\']) :
    isSeparator c = true ∨ isBare c = true := by
  simp only [List.mem_cons, List.not_mem_nil, or_false, not_or] at h
  cases hsep : isSeparator c with
  | true => exact .inl rfl
  | false => exact .inr (isBare_iff.2 ⟨hsep, h⟩)

theorem wordsFrom_bare_bare {c : Char} (h : isBare c = true) (rest : List Char) :
    wordsFrom .bare (c :: rest) = (wordsFrom .bare rest).map (prepend c) := by
  rw [← List.singleton_append, wordsFrom_piece (.bare h)]
  rfl

/-- Inside a word the first run is the rest of that word, even if it is empty. -/
theorem wordsFrom_of_plain {line : List Char} (h : ∀ c ∈ line, c ∉ ['\x27', '"', '\\']) :
    wordsFrom .between line = .ok (runs line) ∧
    ∃ first more, line.splitOnP isSeparator = first :: more ∧
      wordsFrom .bare line = .ok (first :: more.filter fun run => !run.isEmpty) := by
  induction line with
  | nil => exact ⟨rfl, [], [], rfl, rfl⟩
  | cons c rest ih =>
      rw [List.forall_mem_cons] at h
      obtain ⟨hbetween, first, more, hsplit, hbare⟩ := ih h.2
      rw [runs, List.splitOnP_cons_eq_if_modifyHead]
      rcases isBare_or_isSeparator h.1 with hc | hc
      · rw [if_pos hc, wordsFrom_between_separator hc, wordsFrom_bare_separator hc, hbetween]
        exact ⟨rfl, [], _, rfl, rfl⟩
      · have hsep := (isBare_iff.1 hc).1
        rw [wordsFrom_between_cons hsep, wordsFrom_bare_bare hc, hbare, hsplit,
          if_neg (by simp [hsep])]
        exact ⟨rfl, c :: first, more, rfl, rfl⟩

theorem words_of_plain {line : List Char} (h : ∀ c ∈ line, c ∉ ['\x27', '"', '\\']) :
    words line = .ok (runs line) :=
  (wordsFrom_of_plain h).1

theorem of_mem_splitOnP {line run : List Char} (h : run ∈ line.splitOnP isSeparator) :
    ∀ c ∈ run, c ∈ line ∧ isSeparator c = false := by
  induction line generalizing run with
  | nil =>
      obtain rfl : run = [] := by simpa using h
      simp
  | cons c rest ih =>
      obtain ⟨first, more, hsplit⟩ :=
        List.exists_cons_of_ne_nil (List.splitOnP_ne_nil isSeparator rest)
      have hmore : ∀ r ∈ first :: more, ∀ d ∈ r, d ∈ c :: rest ∧ isSeparator d = false :=
        fun r hr d hd => (ih (hsplit ▸ hr) d hd).imp_left (List.mem_cons_of_mem c)
      rw [List.splitOnP_cons_eq_if_modifyHead, hsplit] at h
      split at h
      · rcases List.mem_cons.1 h with rfl | hrun
        · simp
        · exact hmore run hrun
      · rename_i hc
        rcases List.mem_cons.1 h with rfl | hrun
        · rw [List.forall_mem_cons]
          exact ⟨⟨List.mem_cons_self, by simpa using hc⟩, hmore first List.mem_cons_self⟩
        · exact hmore run (List.mem_cons_of_mem _ hrun)

/-! ## Words that need no quotation -/

/-- A word that can be written down as it is. -/
def IsPlainWord (w : List Char) : Prop :=
  w ≠ [] ∧ ∀ c ∈ w, isBare c = true

theorem isPlainWord_of_mem_runs {line run : List Char}
    (h : ∀ c ∈ line, c ∉ ['\x27', '"', '\\']) (hrun : run ∈ runs line) : IsPlainWord run := by
  obtain ⟨hmem, hne⟩ := List.mem_filter.1 hrun
  refine ⟨by simpa using hne, fun c hc => ?_⟩
  obtain ⟨hline, hsep⟩ := of_mem_splitOnP hmem c hc
  exact (isBare_or_isSeparator (h c hline)).resolve_left (by simp [hsep])

theorem IsPlainWord.token {w : List Char} (h : IsPlainWord w) : Token w w := by
  obtain ⟨hne, hbare⟩ := h
  induction w with
  | nil => exact absurd rfl hne
  | cons c rest ih =>
      rw [List.forall_mem_cons] at hbare
      cases rest with
      | nil => exact .piece (.bare hbare.1)
      | cons d more => exact .more (.bare hbare.1) (ih (List.cons_ne_nil d more) hbare.2)

theorem line_intercalate {ws : List (List Char)} (h : ∀ w ∈ ws, IsPlainWord w) :
    Line ([' '].intercalate ws) ws := by
  induction ws with
  | nil => exact .nil
  | cons w rest ih =>
      rw [List.forall_mem_cons] at h
      cases rest with
      | nil => simpa using Line.last h.1.token
      | cons v more =>
          rw [List.intercalate_cons_cons, List.append_assoc, List.singleton_append]
          exact .token h.1.token rfl (ih h.2)

theorem tokenize_intercalate {ws : List String} (h : ∀ w ∈ ws, IsPlainWord w.toList) :
    tokenize (String.intercalate " " ws) = .ok ws := by
  rw [tokenize_eq_ok_iff, String.toList_intercalate]
  exact line_intercalate (by simpa using h)

/-! ## The text of a query -/

theorem freeWords_freeWords (tokens : List String) :
    freeWords (freeWords tokens) = freeWords tokens := by
  simp [freeWords]

namespace Criteria

theorem ofWords_freeWords (tokens : List String) :
    ofWords (freeWords tokens) = ⟨(ofWords tokens).text, []⟩ := by
  have hnone : (freeWords tokens).filterMap (fun t => parseFilter t.toList) = [] := by
    simp [freeWords, List.filterMap_eq_nil_iff]
  have htext : (ofWords (freeWords tokens)).text = (ofWords tokens).text :=
    congrArg (String.intercalate " ") (freeWords_freeWords tokens)
  rw [← htext, ofWords, hnone]

theorem ofQuery_text_ofWords {tokens : List String}
    (h : ∀ t ∈ freeWords tokens, IsPlainWord t.toList) :
    ofQuery (ofWords tokens).text = .ok ⟨(ofWords tokens).text, []⟩ := by
  have hwords : tokenize (ofWords tokens).text = .ok (freeWords tokens) := tokenize_intercalate h
  rw [ofQuery_of_tokenize hwords, ofWords_freeWords]

/--
The text of a query is its own translation, if none of its words needs quotation.

This holds for every query without quotation marks and backslashes; such a query is never refused,
and its text is made of the runs between separators that are not read as filters.
-/
theorem ofQuery_text (query : String) :
    ((∀ c ∈ query.toList, c ∉ ['\x27', '"', '\\']) →
      ∃ c, ofQuery query = .ok c ∧
        c.text = String.intercalate " "
          (((runs query.toList).filter fun run => (parseFilter run).isNone).map String.ofList) ∧
        ofQuery c.text = .ok ⟨c.text, []⟩) ∧
    (∀ tokens, tokenize query = .ok tokens →
      (∀ t ∈ freeWords tokens, IsPlainWord t.toList) →
      ∃ c, ofQuery query = .ok c ∧ ofQuery c.text = .ok ⟨c.text, []⟩) := by
  constructor
  · intro hplain
    have htokens : tokenize query = .ok ((runs query.toList).map String.ofList) := by
      rw [tokenize, words_of_plain hplain]
    have hfree : freeWords ((runs query.toList).map String.ofList) =
        ((runs query.toList).filter fun run => (parseFilter run).isNone).map String.ofList := by
      simp [freeWords, List.filter_map, Function.comp_def]
    have hwords : ∀ t ∈ freeWords ((runs query.toList).map String.ofList),
        IsPlainWord t.toList := by
      rw [hfree]
      intro t ht
      obtain ⟨run, hrun, rfl⟩ := List.mem_map.1 ht
      rw [String.toList_ofList]
      exact isPlainWord_of_mem_runs hplain (List.mem_filter.1 hrun).1
    refine ⟨_, ofQuery_of_tokenize htokens, ?_, ofQuery_text_ofWords hwords⟩
    rw [← hfree]
    rfl
  · intro tokens htokens hwords
    exact ⟨_, ofQuery_of_tokenize htokens, ofQuery_text_ofWords hwords⟩

/-- A no-break space does not separate words; a marker does not begin behind another character. -/
theorem ofQuery_text_spaced :
    (∀ c ∈ " a\u00a0b\t @size>5  c@uri= ".toList, c ∉ ['\x27', '"', '\\']) ∧
    ofQuery " a\u00a0b\t @size>5  c@uri= " = .ok ⟨"a\u00a0b c@uri=", [⟨"@size", "NUMGE", "5"⟩]⟩ ∧
    ofQuery "a\u00a0b c@uri=" = .ok ⟨"a\u00a0b c@uri=", []⟩ ∧
    (∀ t ∈ freeWords ["@title=x y", "z"], IsPlainWord t.toList) ∧
    ofQuery "z" = .ok ⟨"z", []⟩ := by
  have hplain : ∀ c ∈ " a\u00a0b\t @size>5  c@uri= ".toList, c ∉ ['\x27', '"', '\\'] := by simp
  have hread : ofQuery " a\u00a0b\t @size>5  c@uri= " =
      .ok ⟨"a\u00a0b c@uri=", [⟨"@size", "NUMGE", "5"⟩]⟩ := by decide
  obtain ⟨c, hc, -, hagain⟩ := (ofQuery_text " a\u00a0b\t @size>5  c@uri= ").1 hplain
  obtain rfl := Except.ok.inj (hread.symm.trans hc)
  have hquoted : tokenize "'@title=x y' z" = .ok ["@title=x y", "z"] := by decide
  have hfree : freeWords ["@title=x y", "z"] = ["z"] := by decide
  have hword : ∀ t ∈ freeWords ["@title=x y", "z"], IsPlainWord t.toList := by
    rw [hfree]
    simp [IsPlainWord, isBare, isSeparator]
  obtain ⟨c', hc', hagain'⟩ := (ofQuery_text "'@title=x y' z").2 _ hquoted hword
  have hread' : ofQuery "'@title=x y' z" = .ok ⟨"z", [⟨"@title", "STRINC", "x y"⟩]⟩ := by decide
  obtain rfl := Except.ok.inj (hread'.symm.trans hc')
  exact ⟨hplain, hread, hagain, hword, hagain'⟩

end Criteria

end IndexedMail.Query
