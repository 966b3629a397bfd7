import IndexedMail.Engine.Script
import IndexedMail.Engine.Search
import IndexedMail.Proofs.Listing.Printed

/-!
# What one search promises

The search of one server starts at most one child and reports at most one message.  It answers
with items exactly if its query cannot be cut into words, or its limit can be written and every
numeral in what the child prints can be read; otherwise it ends in an error.
-/

namespace IndexedMail.Engine

open Listing (Backend notices)

/-- The limit of a server can be written on a command line. -/
def Writable (s : Settings.Server) : Prop :=
  s.maxResults.natAbs < Text.Numeral.writableBound

/-- The child that searches a server for criteria. -/
def invocation (parent : Environment) (s : Settings.Server) (c : Query.Criteria) : Invocation :=
  { argv := (Command.ofServer s c).argvWith (Text.Numeral.text s.maxResults)
    environment := some (parent.override s.pinned) }

/-- Every message that a child of a server tells of has numerals that can be read. -/
def Legible (b : Backend) (s : Settings.Server) (o : Outcome) : Prop :=
  ∀ n ∈ notices b s.removePrefix.toList (o.text .utf8), n.Readable

/-! ## The three courses of a search -/

variable {σ : Type} {run : Invocation → σ → Outcome × σ} {parent : Environment}
  {s : Settings.Server} {query : String}

theorem argv_of_writable (parent : Environment) (hs : Writable s) (c : Query.Criteria) :
    (Command.ofServer s c).argv = .ok (invocation parent s c).argv := by
  have hwrite : Text.Numeral.write (Command.ofServer s c).maxResults =
      .ok (Text.Numeral.text s.maxResults) := Text.Numeral.write_of_lt hs
  simp only [Command.argv, hwrite, Except.map, invocation]

theorem argv_of_not_writable (hs : ¬ Writable s) (c : Query.Criteria) :
    (Command.ofServer s c).argv = .error .tooLarge := by
  rw [Writable, Nat.not_lt] at hs
  have hwrite : Text.Numeral.write (Command.ofServer s c).maxResults = .error .tooLarge :=
    Text.Numeral.write_of_le hs
  simp only [Command.argv, hwrite, Except.map]

-- Here the match is unfolded by hand: a simplifier would compute the bound that the limit has.
theorem ofCriteria_of_writable (hs : Writable s) (c : Query.Criteria) :
    Plan.ofCriteria s parent c = .ok ⟨c, invocation parent s c⟩ := by
  have hargv := argv_of_writable parent hs c
  unfold Plan.ofCriteria
  rw [hargv]
  rfl

theorem ofCriteria_of_not_writable (hs : ¬ Writable s) (c : Query.Criteria) :
    Plan.ofCriteria s parent c = .error (.limit c .tooLarge) := by
  have hargv := argv_of_not_writable hs c
  unfold Plan.ofCriteria
  rw [hargv]

theorem search_source (group : Option String) (world : σ) :
    (source run parent s).search query group world = search run parent s query world := rfl

theorem search_of_tokenize_error {e : Query.SyntaxError} (h : Query.tokenize query = .error e)
    (world : σ) : search run parent s query world = (rejection s e, world) := by
  simp [search, Plan.ofQuery, Query.Criteria.ofQuery, h, Except.map, unplanned]

theorem search_of_not_writable {words : List String} (h : Query.tokenize query = .ok words)
    (hs : ¬ Writable s) (world : σ) :
    search run parent s query world =
      ({ events := [.record (queryRecord s (Query.Criteria.ofWords words))]
         result := .error Text.Numeral.Error.tooLarge.message }, world) := by
  simp only [search, Plan.ofQuery, Query.Criteria.ofQuery_of_tokenize h,
    ofCriteria_of_not_writable hs, unplanned]

theorem search_of_writable {words : List String} (h : Query.tokenize query = .ok words)
    (hs : Writable s) (world : σ) :
    search run parent s query world =
      let c := Query.Criteria.ofWords words
      let i := invocation parent s c
      (conclusion s ⟨c, i⟩ (run i world).1, (run i world).2) := by
  simp only [search, Plan.ofQuery, Query.Criteria.ofQuery_of_tokenize h, ofCriteria_of_writable hs]

/-! ## Events and results -/

theorem reports_records (records : List Log.Record) :
    Event.reports (records.map Event.record) = [] := by
  induction records with
  | nil => rfl
  | cons r rest ih => exact ih

theorem reports_cons_record (r : Log.Record) (events : List Event) :
    Event.reports (Event.record r :: events) = Event.reports events := rfl

theorem reports_failureEvents (i : Invocation) (o : Outcome) :
    Event.reports (failureEvents s i o) =
      if o.status? = some 0 then []
      else [named s (ProcessError.message ⟨i.argv, o.status?⟩)] := by
  by_cases h : o.status? = some 0
  · simp [failureEvents, (Outcome.succeeded_iff o).2 h, h, Event.reports]
  · have hs : o.succeeded = false := by simpa [Outcome.succeeded] using h
    simp [failureEvents, hs, h, Event.reports]

/-- A child is reported on exactly if it did not end with status nought. -/
theorem reports_conclusion (p : Plan) (o : Outcome) :
    Event.reports (conclusion s p o).events =
      if o.status? = some 0 then []
      else [named s (ProcessError.message ⟨p.invocation.argv, o.status?⟩)] := by
  have hstart : Event.reports
      (Event.record (queryRecord s p.criteria) ::
        ((childRecords p.invocation o).map .record ++ failureEvents s p.invocation o)) =
      Event.reports (failureEvents s p.invocation o) := by
    rw [reports_cons_record, Event.reports_append, reports_records, List.nil_append]
  rw [← reports_failureEvents, ← hstart]
  unfold conclusion
  split
  · rfl
  · rw [Event.reports_append, reports_cons_record]
    exact List.append_nil _

theorem result_conclusion (p : Plan) (o : Outcome) :
    (conclusion s p o).result =
      match Listing.parse (mailbox s) (o.text .utf8) with
      | .error e => .error e.message
      | .ok hits => .ok (hits.map Hit.item) := by
  cases h : Listing.parse (mailbox s) (o.text .utf8) <;> simp [conclusion, h]

theorem legible_iff {b : Backend} (hb : s.backend = b.name) (o : Outcome) :
    Legible b s o ↔ ∃ hits, Listing.parse (mailbox s) (o.text .utf8) = .ok hits := by
  rw [Listing.exists_parse_iff (m := mailbox s) (b := b) hb]
  rfl

theorem result_eq_error_of_not_legible {b : Backend} (hb : s.backend = b.name) {o : Outcome}
    (h : ¬ Legible b s o) (p : Plan) : ∃ message, (conclusion s p o).result = .error message := by
  rw [result_conclusion]
  cases hparse : Listing.parse (mailbox s) (o.text .utf8) with
  | error e => exact ⟨e.message, rfl⟩
  | ok hits => exact absurd ((legible_iff hb o).2 ⟨hits, hparse⟩) h

/-! ## The contract -/

/--
The promise of a search in a scripted world.

A query that cannot be cut into words starts nothing, is reported once and has no items; any other
starts the one child that belongs to it, reports once if that does not end with status nought, and
in any case answers with the items of what was printed.
-/
structure Fulfilled (parent : Environment) (s : Settings.Server) (query : String)
    (script : Script) (answer : Response × Script) : Prop where
  answers : ∃ items, answer.1.result = .ok items
  rejected : ∀ e, Query.tokenize query = .error e →
    answer.2.started = script.started ∧
      (∃ message, Event.reports answer.1.events = [s.name ++ ": " ++ message]) ∧
      answer.1.result = .ok []
  searched : ∀ words, Query.tokenize query = .ok words →
    (∃ argv, (Command.ofServer s (Query.Criteria.ofWords words)).argv = .ok argv ∧
      answer.2.started = script.started ++ [⟨argv, some (parent.override s.pinned)⟩]) ∧
      (∃ message, Event.reports answer.1.events =
        if (script.outcomes.headD Script.silent).status? = some 0 then []
        else [s.name ++ ": " ++ message]) ∧
      ∃ hits, Listing.parse (mailbox s) ((script.outcomes.headD Script.silent).text .utf8) =
          .ok hits ∧
        answer.1.result = .ok (hits.map Hit.item)

theorem fulfilled_of_tokenize_error {e : Query.SyntaxError} (h : Query.tokenize query = .error e)
    (script : Script) :
    Fulfilled parent s query script (search Script.run parent s query script) := by
  rw [search_of_tokenize_error h]
  refine ⟨⟨[], rfl⟩, ?_, ?_⟩
  · intro _ _
    exact ⟨rfl, ⟨e.message, rfl⟩, rfl⟩
  · intro words hwords
    rw [h] at hwords
    cases hwords

theorem fulfilled_of_legible {b : Backend} (hb : s.backend = b.name) {words : List String}
    (h : Query.tokenize query = .ok words) (hs : Writable s) {script : Script}
    (ho : Legible b s (script.outcomes.headD Script.silent)) :
    Fulfilled parent s query script (search Script.run parent s query script) := by
  obtain ⟨hits, hhits⟩ := (legible_iff hb _).1 ho
  have hresult : (search Script.run parent s query script).1.result = .ok (hits.map Hit.item) := by
    rw [search_of_writable h hs, result_conclusion]
    simp only [Script.run, hhits]
  refine ⟨⟨_, hresult⟩, ?_, ?_⟩
  · intro e he
    rw [h] at he
    cases he
  · intro words' hwords
    obtain rfl : words = words' := by simpa [h] using hwords
    rw [search_of_writable h hs] at hresult ⊢
    refine ⟨⟨_, argv_of_writable parent hs _, rfl⟩, ?_, hits, hhits, hresult⟩
    rw [reports_conclusion]
    exact ⟨_, rfl⟩

theorem started_search_le (script : Script) :
    (search Script.run parent s query script).2.started.length ≤ script.started.length + 1 := by
  cases h : Query.tokenize query with
  | error e =>
      rw [search_of_tokenize_error h]
      exact Nat.le_succ _
  | ok words =>
      by_cases hs : Writable s
      · rw [search_of_writable h hs]
        simp [Script.started_run]
      · rw [search_of_not_writable h hs]
        exact Nat.le_succ _

theorem reports_search_le (script : Script) :
    (Event.reports (search Script.run parent s query script).1.events).length ≤ 1 := by
  cases h : Query.tokenize query with
  | error e =>
      rw [search_of_tokenize_error h]
      exact Nat.le_refl 1
  | ok words =>
      by_cases hs : Writable s
      · rw [search_of_writable h hs]
        simp only [reports_conclusion]
        split <;> simp
      · rw [search_of_not_writable h hs]
        exact Nat.zero_le 1

theorem exists_error_of_not_legible {b : Backend} (hb : s.backend = b.name) {words : List String}
    (h : Query.tokenize query = .ok words) {script : Script}
    (hnot : ¬ (Writable s ∧ Legible b s (script.outcomes.headD Script.silent))) :
    ∃ message, (search Script.run parent s query script).1.result = .error message := by
  by_cases hs : Writable s
  · rw [search_of_writable h hs]
    exact result_eq_error_of_not_legible hb (fun ho => hnot ⟨hs, ho⟩) _
  · rw [search_of_not_writable h hs]
    exact ⟨_, rfl⟩

theorem Fulfilled.result_ne_error {script : Script} {answer : Response × Script}
    (h : Fulfilled parent s query script answer) {message : String} :
    answer.1.result ≠ .error message := by
  obtain ⟨items, hitems⟩ := h.answers
  rw [hitems]
  exact fun hsame => by cases hsame

/--
The contract of one search, whatever its child does.

At most one child is started and at most one message reported.  The promise is kept exactly if the
query cannot be cut into words, or the limit can be written and all numerals of the listing can be
read; in every other case the search ends in an error.
-/
theorem search_contract {s : Settings.Server} {b : Backend} (hb : s.backend = b.name)
    (parent : Environment) (query : String) (group : Option String) (script : Script) :
    let answer := (source Script.run parent s).search query group script
    answer.2.started.length ≤ script.started.length + 1 ∧
    (Event.reports answer.1.events).length ≤ 1 ∧
    (Fulfilled parent s query script answer ↔ ∀ words, Query.tokenize query = .ok words →
      Writable s ∧ Legible b s (script.outcomes.headD Script.silent)) ∧
    ((∃ message, answer.1.result = .error message) ↔
      ∃ words, Query.tokenize query = .ok words ∧
        ¬ (Writable s ∧ Legible b s (script.outcomes.headD Script.silent))) := by
  simp only [search_source]
  refine ⟨started_search_le script, reports_search_le script, ⟨?_, ?_⟩, ⟨?_, ?_⟩⟩
  · intro hfulfilled words h
    by_contra hnot
    obtain ⟨message, hmessage⟩ := exists_error_of_not_legible hb h hnot
    exact hfulfilled.result_ne_error hmessage
  · intro hall
    cases h : Query.tokenize query with
    | error e => exact fulfilled_of_tokenize_error h script
    | ok words =>
        obtain ⟨hs, ho⟩ := hall words h
        exact fulfilled_of_legible hb h hs ho
  · rintro ⟨message, hmessage⟩
    cases h : Query.tokenize query with
    | error e =>
        exact absurd hmessage (fulfilled_of_tokenize_error h script).result_ne_error
    | ok words =>
        refine ⟨words, rfl, ?_⟩
        rintro ⟨hs, ho⟩
        exact (fulfilled_of_legible hb h hs ho).result_ne_error hmessage
  · rintro ⟨words, h, hnot⟩
    exact exists_error_of_not_legible hb h hnot

/-- A server below the directory `/m/` with default settings. -/
def plainServer (name : String) : Settings.Server :=
  { name := name
    engine := "estraier"
    program := Settings.Server.defaultProgram
    indexDir := "/i"
    removePrefix := "/m/"
    switches := []
    maxResults := Settings.Server.defaultMaxResults
    backend := "nnml"
    pinned := Settings.Server.defaultPinned }

theorem writable_plainServer (name : String) : Writable (plainServer name) := by
  have hlimit : (plainServer name).maxResults.natAbs = 300 := rfl
  have hdigits : (Text.Numeral.ofNat 300).length ≤ Text.Numeral.maxDigits := by decide
  rw [Writable, hlimit]
  exact (Text.Numeral.length_ofNat_le_maxDigits_iff 300).1 hdigits

/-- The promise is kept where the child does not start. -/
theorem search_contract_not_started :
    (plainServer "s").backend = Backend.nnml.name ∧
    Fulfilled ⟨[]⟩ (plainServer "s") "x" ⟨[.notStarted "gone"], []⟩
      ((source Script.run ⟨[]⟩ (plainServer "s")).search "x" none
        ⟨[.notStarted "gone"], []⟩) := by
  have hb : (plainServer "s").backend = Backend.nnml.name := rfl
  have hnone : notices .nnml (plainServer "s").removePrefix.toList
      ((Outcome.notStarted "gone").text .utf8) = [] := rfl
  have hlegible : Legible .nnml (plainServer "s") (.notStarted "gone") := by
    intro n hn
    rw [hnone] at hn
    cases hn
  obtain ⟨-, -, hkept, -⟩ := search_contract hb ⟨[]⟩ "x" none ⟨[.notStarted "gone"], []⟩
  exact ⟨hb, hkept.2 fun _ _ => ⟨writable_plainServer "s", hlegible⟩⟩

/-- The output of a child whose listing has a score that is too long. -/
def overlongOutcome : Outcome :=
  .exited 0 (Text.Utf8.encode Listing.overlongListing)

theorem text_overlongOutcome : overlongOutcome.text .utf8 = Listing.overlongListing :=
  Text.Utf8.decodeLossy_encode _

theorem not_legible_overlongOutcome (name : String) :
    ¬ Legible .nnml (plainServer name) overlongOutcome := by
  intro h
  obtain ⟨hits, hhits⟩ := (legible_iff rfl overlongOutcome).1 h
  rw [text_overlongOutcome] at hhits
  obtain ⟨e, he⟩ := Listing.exists_error_of_overlong name
  exact absurd (he.symm.trans hhits) (by simp)

/-- A child that ends with status nought, and a search that ends in an error. -/
theorem search_not_fulfilled :
    (plainServer "s").backend = Backend.nnml.name ∧ overlongOutcome.status? = some 0 ∧
    ¬ Fulfilled ⟨[]⟩ (plainServer "s") "x" ⟨[overlongOutcome], []⟩
      ((source Script.run ⟨[]⟩ (plainServer "s")).search "x" none ⟨[overlongOutcome], []⟩) := by
  refine ⟨rfl, rfl, ?_⟩
  rw [search_source]
  intro hfulfilled
  have hwords : Query.tokenize "x" = .ok ["x"] := by decide
  have hnot : ¬ (Writable (plainServer "s") ∧ Legible .nnml (plainServer "s") overlongOutcome) :=
    fun h => not_legible_overlongOutcome "s" h.2
  obtain ⟨message, hmessage⟩ : ∃ message,
      (search Script.run ⟨[]⟩ (plainServer "s") "x" ⟨[overlongOutcome], []⟩).1.result =
        .error message :=
    exists_error_of_not_legible rfl hwords hnot
  exact hfulfilled.result_ne_error hmessage

end IndexedMail.Engine
