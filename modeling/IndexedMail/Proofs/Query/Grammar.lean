import IndexedMail.Query.Criteria
import Mathlib.Data.List.Basic

/-!
# The grammar of query lines

A query line is a sequence of tokens between separators, and a token is put together from bare,
escaped and quoted pieces.  The words of a line are the tokens of its derivation, and a line that
has no derivation is refused, so the free text and the filters of a query are those of its tokens.
-/

namespace IndexedMail.Query

/-! ## Lines and what they denote -/

def isBare (c : Char) : Bool :=
  !(isSeparator c || c == '\x27' || c == '"' || c == '\\')

/-- The text between two double quotation marks, and the text that it denotes. -/
inductive DoubleQuoted : List Char → List Char → Prop
  | nil : DoubleQuoted [] []
  | plain {c : Char} {inside denoted : List Char} :
      c ≠ '"' → c ≠ '\\' → DoubleQuoted inside denoted →
        DoubleQuoted (c :: inside) (c :: denoted)
  | escaped {c : Char} {inside denoted : List Char} :
      c = '"' ∨ c = '\\' → DoubleQuoted inside denoted →
        DoubleQuoted ('\\' :: c :: inside) (c :: denoted)
  | kept {c : Char} {inside denoted : List Char} :
      c ≠ '"' → c ≠ '\\' → DoubleQuoted inside denoted →
        DoubleQuoted ('\\' :: c :: inside) ('\\' :: c :: denoted)

/-- A piece of a token, and the text that it denotes. -/
inductive Piece : List Char → List Char → Prop
  | bare {c : Char} : isBare c = true → Piece [c] [c]
  | escaped (c : Char) : Piece ['\\', c] [c]
  | single {run : List Char} : '\x27' ∉ run → Piece ('\x27' :: (run ++ ['\x27'])) run
  | double {inside denoted : List Char} :
      DoubleQuoted inside denoted → Piece ('"' :: (inside ++ ['"'])) denoted

/-- A token is one piece or more. -/
inductive Token : List Char → List Char → Prop
  | piece {source denoted : List Char} : Piece source denoted → Token source denoted
  | more {source denoted source' denoted' : List Char} :
      Piece source denoted → Token source' denoted' →
        Token (source ++ source') (denoted ++ denoted')

/-- A line, and the texts that its tokens denote.  Between two tokens there is a separator;
there may be further ones anywhere outside the tokens. -/
inductive Line : List Char → List (List Char) → Prop
  | nil : Line [] []
  | separator {c : Char} {rest : List Char} {tokens : List (List Char)} :
      isSeparator c = true → Line rest tokens → Line (c :: rest) tokens
  | last {source denoted : List Char} : Token source denoted → Line source [denoted]
  | token {c : Char} {source denoted rest : List Char} {tokens : List (List Char)} :
      Token source denoted → isSeparator c = true → Line rest tokens →
        Line (source ++ c :: rest) (denoted :: tokens)

/-! ## The words of a derived line -/

def prependAll (cs : List Char) (words : List (List Char)) : List (List Char) :=
  cs.foldr prepend words

theorem prependAll_cons (cs word : List Char) (more : List (List Char)) :
    prependAll cs (word :: more) = (cs ++ word) :: more := by
  induction cs with
  | nil => rfl
  | cons c rest ih =>
      rw [prependAll, List.foldr_cons]
      change prepend c (prependAll rest (word :: more)) = _
      rw [ih, prepend, List.cons_append]

theorem map_prependAll_nil (e : Except QuoteError (List (List Char))) :
    e.map (prependAll []) = e := by
  cases e <;> rfl

theorem map_prependAll_cons (e : Except QuoteError (List (List Char))) (c : Char)
    (cs : List Char) : (e.map (prependAll cs)).map (prepend c) = e.map (prependAll (c :: cs)) := by
  cases e <;> rfl

theorem isBare_iff {c : Char} :
    isBare c = true ↔ isSeparator c = false ∧ c ≠ '\x27' ∧ c ≠ '"' ∧ c ≠ '\\' := by
  simp [isBare, and_assoc]

theorem wordsFrom_single {run : List Char} (h : '\x27' ∉ run) (rest : List Char) :
    wordsFrom .single (run ++ '\x27' :: rest) = (wordsFrom .bare rest).map (prependAll run) := by
  induction run with
  | nil => simp [wordsFrom, map_prependAll_nil]
  | cons c more ih =>
      obtain ⟨hc, hmore⟩ : '\x27' ≠ c ∧ '\x27' ∉ more := by simpa using h
      have hne : (c == '\x27') = false := beq_eq_false_iff_ne.2 (Ne.symm hc)
      rw [List.cons_append, wordsFrom, if_neg (by simp [hne]), ih hmore, map_prependAll_cons]

theorem wordsFrom_double {inside denoted : List Char} (h : DoubleQuoted inside denoted)
    (rest : List Char) :
    wordsFrom .double (inside ++ '"' :: rest) =
      (wordsFrom .bare rest).map (prependAll denoted) := by
  induction h with
  | nil => simp [wordsFrom, map_prependAll_nil]
  | @plain c inside denoted hquote hback _ ih =>
      rw [List.cons_append, wordsFrom, if_neg (by simpa using hquote),
        if_neg (by simpa using hback), ih, map_prependAll_cons]
  | @escaped c inside denoted hc _ ih =>
      have hspecial : (c == '"' || c == '\\') = true := by simpa using hc
      have hstart : wordsFrom .double ('\\' :: c :: (inside ++ '"' :: rest)) =
          wordsFrom .doubleEscaped (c :: (inside ++ '"' :: rest)) := by
        simp [wordsFrom]
      rw [List.cons_append, List.cons_append, hstart, wordsFrom, if_pos hspecial, ih,
        map_prependAll_cons]
  | @kept c inside denoted hquote hback _ ih =>
      have hstart : wordsFrom .double ('\\' :: c :: (inside ++ '"' :: rest)) =
          wordsFrom .doubleEscaped (c :: (inside ++ '"' :: rest)) := by
        simp [wordsFrom]
      rw [List.cons_append, List.cons_append, hstart, wordsFrom,
        if_neg (by simp [hquote, hback]), ih]
      cases wordsFrom .bare rest <;> rfl

/-- What a piece denotes is put in front of the words of the rest. -/
theorem wordsFrom_piece {source denoted : List Char} (h : Piece source denoted)
    (rest : List Char) :
    wordsFrom .bare (source ++ rest) = (wordsFrom .bare rest).map (prependAll denoted) := by
  cases h with
  | bare hc =>
      obtain ⟨hsep, hsingle, hdouble, hback⟩ := isBare_iff.1 hc
      rw [List.singleton_append, wordsFrom, if_neg (by simp [hsep]),
        if_neg (by simpa using hsingle), if_neg (by simpa using hdouble),
        if_neg (by simpa using hback)]
      cases wordsFrom .bare rest <;> rfl
  | escaped c =>
      have hstart : wordsFrom .bare ('\\' :: c :: rest) = wordsFrom .escaped (c :: rest) := by
        simp [wordsFrom, isSeparator]
      rw [List.cons_append, List.singleton_append, hstart, wordsFrom]
      cases wordsFrom .bare rest <;> rfl
  | @single run hrun =>
      have hstart : wordsFrom .bare ('\x27' :: (denoted ++ '\x27' :: rest)) =
          wordsFrom .single (denoted ++ '\x27' :: rest) := by
        simp [wordsFrom, isSeparator]
      rw [List.cons_append, List.append_assoc, List.singleton_append, hstart,
        wordsFrom_single hrun]
  | @double inside _ hinside =>
      have hstart : wordsFrom .bare ('"' :: (inside ++ '"' :: rest)) =
          wordsFrom .double (inside ++ '"' :: rest) := by
        simp [wordsFrom, isSeparator]
      rw [List.cons_append, List.append_assoc, List.singleton_append, hstart,
        wordsFrom_double hinside]

theorem wordsFrom_between_piece {source denoted : List Char} (h : Piece source denoted)
    (rest : List Char) :
    wordsFrom .between (source ++ rest) = wordsFrom .bare (source ++ rest) := by
  cases h with
  | bare hc =>
      obtain ⟨hsep, -⟩ := isBare_iff.1 hc
      simp [wordsFrom, hsep]
  | escaped c => simp [wordsFrom, isSeparator]
  | single _ => simp [wordsFrom, isSeparator]
  | double _ => simp [wordsFrom, isSeparator]

theorem wordsFrom_token {source denoted : List Char} (h : Token source denoted)
    (rest : List Char) :
    wordsFrom .bare (source ++ rest) = (wordsFrom .bare rest).map (prependAll denoted) := by
  induction h with
  | piece hpiece => exact wordsFrom_piece hpiece rest
  | @more source denoted source' denoted' hpiece _ ih =>
      rw [List.append_assoc, wordsFrom_piece hpiece, ih]
      cases wordsFrom .bare rest with
      | error e => rfl
      | ok words => simp [Except.map, prependAll]

theorem wordsFrom_between_token {source denoted : List Char} (h : Token source denoted)
    (rest : List Char) :
    wordsFrom .between (source ++ rest) = (wordsFrom .bare rest).map (prependAll denoted) := by
  rw [← wordsFrom_token h]
  cases h with
  | piece hpiece => exact wordsFrom_between_piece hpiece rest
  | more hpiece _ =>
      rw [List.append_assoc]
      exact wordsFrom_between_piece hpiece _

theorem words_of_line {line : List Char} {tokens : List (List Char)} (h : Line line tokens) :
    words line = .ok tokens := by
  unfold words
  induction h with
  | nil => rfl
  | separator hc _ ih => rw [wordsFrom_between_separator hc, ih]
  | @last source denoted htoken =>
      have hend : wordsFrom .between (source ++ []) = _ := wordsFrom_between_token htoken []
      rw [List.append_nil] at hend
      rw [hend, wordsFrom, Except.map, prependAll_cons, List.append_nil]
  | token htoken hc _ ih =>
      rw [wordsFrom_between_token htoken, wordsFrom_bare_separator hc, ih]
      simp only [Except.map, prependAll_cons, List.append_nil]

/-! ## A derivation for the words of a line -/

/-- The rest of a line inside a token, and its words, of which the first is what remains of that
token. -/
inductive Begun : List Char → List (List Char) → Prop
  | done : Begun [] [[]]
  | separator {c : Char} {rest : List Char} {tokens : List (List Char)} :
      isSeparator c = true → Line rest tokens → Begun (c :: rest) ([] :: tokens)
  | piece {source denoted rest word : List Char} {more : List (List Char)} :
      Piece source denoted → Begun rest (word :: more) →
        Begun (source ++ rest) ((denoted ++ word) :: more)

theorem Begun.exists_cons {line : List Char} {words : List (List Char)} (h : Begun line words) :
    ∃ word more, words = word :: more := by
  cases h <;> exact ⟨_, _, rfl⟩

/-- A piece in front of the rest of a token begins a token of the line. -/
theorem Begun.line {source denoted : List Char} (h : Piece source denoted) {rest word : List Char}
    {more : List (List Char)} (hrest : Begun rest (word :: more)) :
    Line (source ++ rest) ((denoted ++ word) :: more) := by
  have htoken : ∃ source' denoted' tail, source ++ rest = source' ++ tail ∧
      Token source' denoted' ∧ denoted ++ word = denoted' ∧
      (tail = [] ∧ more = [] ∨
        ∃ c after, tail = c :: after ∧ isSeparator c = true ∧ Line after more) := by
    -- The piece in front changes at each step, so that the token is built from its end.
    generalize hwords : word :: more = words at hrest
    induction hrest generalizing source denoted word with
    | done =>
        cases hwords
        exact ⟨source, denoted, [], rfl, .piece h, by simp, Or.inl ⟨rfl, rfl⟩⟩
    | separator hc hline =>
        cases hwords
        exact ⟨source, denoted, _, rfl, .piece h, by simp, Or.inr ⟨_, _, rfl, hc, hline⟩⟩
    | piece hnext _ ih =>
        cases hwords
        obtain ⟨source', denoted', tail, hsource, htoken, rfl, htail⟩ := ih hnext rfl
        refine ⟨source ++ source', _, tail, ?_, .more h htoken, rfl, htail⟩
        rw [List.append_assoc, hsource]
  obtain ⟨source', denoted', tail, hsource, htoken, hdenoted, htail⟩ := htoken
  rw [hsource, hdenoted]
  rcases htail with ⟨rfl, rfl⟩ | ⟨c, after, rfl, hc, hline⟩
  · rw [List.append_nil]
    exact .last htoken
  · exact .token htoken hc hline

theorem Begun.exists_single {line : List Char} {words : List (List Char)}
    (h : Begun ('\x27' :: line) words) :
    ∃ run rest word more, '\x27' ∉ run ∧ line = run ++ '\x27' :: rest ∧
      Begun rest (word :: more) ∧ words = (run ++ word) :: more := by
  generalize hall : '\x27' :: line = all at h
  cases h with
  | done => cases hall
  | separator hc _ =>
      cases hall
      exact absurd hc (by decide)
  | piece hpiece hrest =>
      cases hpiece with
      | bare hc =>
          cases hall
          exact absurd hc (by decide)
      | escaped c => cases hall
      | single hrun =>
          rw [List.cons_append, List.append_assoc] at hall
          cases hall
          exact ⟨_, _, _, _, hrun, rfl, hrest, rfl⟩
      | double _ => cases hall

theorem Begun.exists_double {line : List Char} {words : List (List Char)}
    (h : Begun ('"' :: line) words) :
    ∃ inside denoted rest word more, DoubleQuoted inside denoted ∧ line = inside ++ '"' :: rest ∧
      Begun rest (word :: more) ∧ words = (denoted ++ word) :: more := by
  generalize hall : '"' :: line = all at h
  cases h with
  | done => cases hall
  | separator hc _ =>
      cases hall
      exact absurd hc (by decide)
  | piece hpiece hrest =>
      cases hpiece with
      | bare hc =>
          cases hall
          exact absurd hc (by decide)
      | escaped c => cases hall
      | single _ => cases hall
      | double hinside =>
          rw [List.cons_append, List.append_assoc] at hall
          cases hall
          exact ⟨_, _, _, _, _, hinside, rfl, hrest, rfl⟩

theorem Begun.single_cons {c : Char} (hc : c ≠ '\x27') {line : List Char}
    {words : List (List Char)} (h : Begun ('\x27' :: line) words) :
    Begun ('\x27' :: c :: line) (prepend c words) := by
  obtain ⟨run, rest, word, more, hrun, rfl, hrest, rfl⟩ := h.exists_single
  have hpiece : Piece ('\x27' :: (c :: run ++ ['\x27'])) (c :: run) :=
    .single (by simp [hrun, Ne.symm hc])
  simpa [prepend] using Begun.piece hpiece hrest

/-- A double-quoted piece takes in what stands for some text in it. -/
theorem Begun.double_append {line : List Char} {words : List (List Char)}
    (h : Begun ('"' :: line) words) (source added : List Char)
    (hadd : ∀ {inside denoted}, DoubleQuoted inside denoted →
      DoubleQuoted (source ++ inside) (added ++ denoted)) :
    Begun ('"' :: (source ++ line)) (prependAll added words) := by
  obtain ⟨inside, denoted, rest, word, more, hinside, rfl, hrest, rfl⟩ := h.exists_double
  have hpiece : Piece ('"' :: (source ++ inside ++ ['"'])) (added ++ denoted) :=
    .double (hadd hinside)
  simpa [prependAll_cons] using Begun.piece hpiece hrest

def opening : Position → List Char
  | .between => []
  | .bare => []
  | .escaped => ['\\']
  | .single => ['\x27']
  | .double => ['"']
  | .doubleEscaped => ['"', '\\']

/-- A derivation of the rest of a line from a position on. -/
def Derived : Position → List Char → List (List Char) → Prop
  | .between, line, words => Line line words
  | p, line, words => Begun (opening p ++ line) words

theorem exists_of_map_eq_ok {ε α β : Type} {f : α → β} {e : Except ε α} {b : β}
    (h : e.map f = .ok b) : ∃ a, e = .ok a ∧ b = f a := by
  cases e with
  | error _ => cases h
  | ok a =>
      cases h
      exact ⟨a, rfl, rfl⟩

theorem Begun.line_of_not_separator {c : Char} {rest : List Char} {words : List (List Char)}
    (h : Begun (c :: rest) words) (hc : isSeparator c = false) : Line (c :: rest) words := by
  generalize hall : c :: rest = all at h
  cases h with
  | done => cases hall
  | separator hsep _ =>
      cases hall
      rw [hc] at hsep
      cases hsep
  | piece hpiece hrest => exact Begun.line hpiece hrest

theorem wordsFrom_between_cons {c : Char} (hc : isSeparator c = false) (rest : List Char) :
    wordsFrom .between (c :: rest) = wordsFrom .bare (c :: rest) := by
  simp [wordsFrom, hc]

/-! The next position finds a derivation for the rest of the line, and the first character is put in
front of that. -/

section Step

variable {c : Char} {rest : List Char} {words : List (List Char)}
  (hrest : ∀ {p : Position} {words : List (List Char)}, wordsFrom p rest = .ok words →
    Derived p rest words)

include hrest

theorem Begun.of_bare_cons (h : wordsFrom .bare (c :: rest) = .ok words) :
    Begun (c :: rest) words := by
  rw [wordsFrom] at h
  split_ifs at h with hsep hsingle hdouble hback
  · obtain ⟨tokens, htokens, rfl⟩ := exists_of_map_eq_ok h
    exact .separator hsep (hrest (p := .between) htokens)
  · obtain rfl := beq_iff_eq.1 hsingle
    exact hrest (p := .single) h
  · obtain rfl := beq_iff_eq.1 hdouble
    exact hrest (p := .double) h
  · obtain rfl := beq_iff_eq.1 hback
    exact hrest (p := .escaped) h
  · obtain ⟨tail, htail, rfl⟩ := exists_of_map_eq_ok h
    have hbegun : Begun rest tail := hrest (p := .bare) htail
    obtain ⟨word, more, rfl⟩ := hbegun.exists_cons
    have hbare : isBare c = true := by
      simp only [Bool.not_eq_true, beq_eq_false_iff_ne] at hsep hsingle hdouble hback
      exact isBare_iff.2 ⟨hsep, hsingle, hdouble, hback⟩
    exact .piece (.bare hbare) hbegun

theorem Line.of_between_cons (h : wordsFrom .between (c :: rest) = .ok words) :
    Line (c :: rest) words := by
  cases hsep : isSeparator c with
  | true =>
      rw [wordsFrom_between_separator hsep] at h
      exact .separator hsep (hrest (p := .between) h)
  | false =>
      rw [wordsFrom_between_cons hsep] at h
      exact (Begun.of_bare_cons hrest h).line_of_not_separator hsep

theorem Begun.of_escaped_cons (h : wordsFrom .escaped (c :: rest) = .ok words) :
    Begun ('\\' :: c :: rest) words := by
  obtain ⟨tail, htail, rfl⟩ := exists_of_map_eq_ok h
  have hbegun : Begun rest tail := hrest (p := .bare) htail
  obtain ⟨word, more, rfl⟩ := hbegun.exists_cons
  exact .piece (.escaped c) hbegun

theorem Begun.of_single_cons (h : wordsFrom .single (c :: rest) = .ok words) :
    Begun ('\x27' :: c :: rest) words := by
  rw [wordsFrom] at h
  split_ifs at h with hclose
  · obtain rfl := beq_iff_eq.1 hclose
    have hbegun : Begun rest words := hrest (p := .bare) h
    obtain ⟨word, more, rfl⟩ := hbegun.exists_cons
    exact .piece (.single List.not_mem_nil) hbegun
  · obtain ⟨tail, htail, rfl⟩ := exists_of_map_eq_ok h
    have hbegun : Begun ('\x27' :: rest) tail := hrest (p := .single) htail
    exact hbegun.single_cons (by simpa using hclose)

theorem Begun.of_double_cons (h : wordsFrom .double (c :: rest) = .ok words) :
    Begun ('"' :: c :: rest) words := by
  rw [wordsFrom] at h
  split_ifs at h with hclose hback
  · obtain rfl := beq_iff_eq.1 hclose
    have hbegun : Begun rest words := hrest (p := .bare) h
    obtain ⟨word, more, rfl⟩ := hbegun.exists_cons
    exact .piece (.double .nil) hbegun
  · obtain rfl := beq_iff_eq.1 hback
    exact hrest (p := .doubleEscaped) h
  · obtain ⟨tail, htail, rfl⟩ := exists_of_map_eq_ok h
    have hbegun : Begun ('"' :: rest) tail := hrest (p := .double) htail
    simp only [beq_iff_eq] at hclose hback
    exact hbegun.double_append [c] [c] (.plain hclose hback)

theorem Begun.of_doubleEscaped_cons (h : wordsFrom .doubleEscaped (c :: rest) = .ok words) :
    Begun ('"' :: '\\' :: c :: rest) words := by
  rw [wordsFrom] at h
  split_ifs at h with hspecial
  · obtain ⟨tail, htail, rfl⟩ := exists_of_map_eq_ok h
    have hbegun : Begun ('"' :: rest) tail := hrest (p := .double) htail
    have hc : c = '"' ∨ c = '\\' := by simpa using hspecial
    exact hbegun.double_append ['\\', c] [c] (.escaped hc)
  · obtain ⟨tail, htail, rfl⟩ := exists_of_map_eq_ok h
    have hbegun : Begun ('"' :: rest) tail := hrest (p := .double) htail
    obtain ⟨hquote, hback⟩ : c ≠ '"' ∧ c ≠ '\\' := by simpa using hspecial
    exact hbegun.double_append ['\\', c] ['\\', c] (.kept hquote hback)

end Step

theorem derived_of_wordsFrom {line : List Char} {p : Position} {words : List (List Char)}
    (h : wordsFrom p line = .ok words) : Derived p line words := by
  -- On the line, for all positions at once, since each hands the rest to another.
  induction line generalizing p words with
  | nil =>
      cases p with
      | between =>
          cases h
          exact .nil
      | bare =>
          cases h
          exact .done
      | escaped => cases h
      | single => cases h
      | double => cases h
      | doubleEscaped => cases h
  | cons c rest ih =>
      cases p with
      | between => exact Line.of_between_cons ih h
      | bare => exact Begun.of_bare_cons ih h
      | escaped => exact Begun.of_escaped_cons ih h
      | single => exact Begun.of_single_cons ih h
      | double => exact Begun.of_double_cons ih h
      | doubleEscaped => exact Begun.of_doubleEscaped_cons ih h

/-! ## Queries -/

theorem words_eq_ok_iff {line : List Char} {tokens : List (List Char)} :
    words line = .ok tokens ↔ Line line tokens :=
  ⟨fun h => derived_of_wordsFrom (p := .between) h, words_of_line⟩

example : words "a\\ b \"\" 'c\"d'".toList = .ok ["a b".toList, [], "c\"d".toList] := rfl

theorem tokenize_eq_ok_iff {query : String} {tokens : List String} :
    tokenize query = .ok tokens ↔ Line query.toList (tokens.map String.toList) := by
  rw [← words_eq_ok_iff]
  unfold tokenize
  cases words query.toList with
  | error cause => simp
  | ok found =>
      simp only [Except.ok.injEq]
      constructor
      · rintro rfl
        simp [Function.comp_def]
      · rintro rfl
        simp [Function.comp_def]

theorem tokenize_eq_error {query : String} (h : ¬ ∃ tokens, Line query.toList tokens) :
    ∃ cause, tokenize query = .error ⟨query, cause⟩ := by
  unfold tokenize
  cases hwords : words query.toList with
  | error cause => exact ⟨cause, rfl⟩
  | ok tokens => exact absurd ⟨tokens, words_eq_ok_iff.1 hwords⟩ h

/--
A query is translated exactly if its line has a derivation.

Its text is then made of the tokens that are no filters, in order and with single spaces between
them, and its filters are those that the other tokens stand for.  Any other query is refused.
-/
theorem translated_iff_derivable (query : String) :
    (∀ tokens, tokenize query = .ok tokens ↔ Line query.toList (tokens.map String.toList)) ∧
    (∀ c, Criteria.ofQuery query = .ok c ↔
      ∃ tokens : List String, Line query.toList (tokens.map String.toList) ∧
        c.text = String.intercalate " "
          (tokens.filter fun t => (parseFilter t.toList).isNone) ∧
        c.filters = tokens.filterMap fun t => parseFilter t.toList) ∧
    ((∃ cause, Criteria.ofQuery query = .error ⟨query, cause⟩) ↔
      ¬ ∃ tokens, Line query.toList tokens) := by
  have hok : ∀ c, Criteria.ofQuery query = .ok c ↔
      ∃ tokens, tokenize query = .ok tokens ∧ c = Criteria.ofWords tokens := by
    intro c
    unfold Criteria.ofQuery
    cases tokenize query with
    | error e => simp [Except.map]
    | ok tokens => simp [Except.map, eq_comm]
  refine ⟨fun tokens => tokenize_eq_ok_iff, ?_, ?_, ?_⟩
  · intro c
    rw [hok]
    constructor
    · rintro ⟨tokens, htokens, rfl⟩
      exact ⟨tokens, tokenize_eq_ok_iff.1 htokens, rfl, rfl⟩
    · rintro ⟨tokens, hline, htext, hfilters⟩
      refine ⟨tokens, tokenize_eq_ok_iff.2 hline, ?_⟩
      cases c
      simp only at htext hfilters
      rw [htext, hfilters]
      rfl
  · rintro ⟨cause, hcause⟩ ⟨tokens, hline⟩
    have hstrings : Line query.toList ((tokens.map String.ofList).map String.toList) := by
      simpa [Function.comp_def] using hline
    have haccepted := (hok _).2 ⟨_, tokenize_eq_ok_iff.2 hstrings, rfl⟩
    rw [hcause] at haccepted
    cases haccepted
  · intro hnone
    obtain ⟨cause, hcause⟩ := tokenize_eq_error hnone
    exact ⟨cause, by rw [Criteria.ofQuery, hcause, Except.map]⟩

end IndexedMail.Query
