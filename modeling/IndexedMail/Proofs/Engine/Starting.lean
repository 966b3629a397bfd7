import IndexedMail.Proofs.Engine.Search

/-!
# A program that does not start

The reason for which a program was not started stands in the place of its output, and is read as a
listing like any output.  The search is given up with one report and nothing found exactly if the
command line exists and no line of the reason tells of a message.
-/

namespace IndexedMail.Listing

/-- A text without a tab tells of no message. -/
theorem notices_of_tab_not_mem {b : Backend} {root text : List Char} (h : '\t' ∉ text) :
    notices b root text = [] := by
  rw [List.eq_nil_iff_forall_not_mem]
  intro n hn
  obtain ⟨line, hline, hnotice⟩ := List.mem_filterMap.1 hn
  have hother : OtherLine line := by
    refine ⟨Text.isLineEnd_of_mem_lines line hline, ?_⟩
    rintro digits rest - - rfl
    have htab : '\t' ∈ digits ++ (addressMark ++ rest) := by
      rw [List.mem_append, List.mem_append]
      exact .inr (.inl List.mem_cons_self)
    exact h (Text.mem_of_mem_lines _ hline '\t' htab)
  rw [notice?_of_otherLine hother] at hnotice
  cases hnotice

end IndexedMail.Listing

namespace IndexedMail.Engine

open Listing (Backend notices)

variable {σ : Type} {run : Invocation → σ → Outcome × σ} {parent : Environment}
  {s : Settings.Server} {query : String} {words : List String} {world : σ} {reason : String}

/-- One message is reported, and nothing is found. -/
structure GivenUp (s : Settings.Server) (r : Response) : Prop where
  reported : ∃ message, Event.reports r.events = [named s message]
  nothing : r.result = .ok []

theorem reports_of_not_started (hwords : Query.tokenize query = .ok words) (hs : Writable s)
    (hrun : (run (invocation parent s (Query.Criteria.ofWords words)) world).1 =
      .notStarted reason) :
    Event.reports (search run parent s query world).1.events =
      [named s s!"Couldn't run {s.program}: program could not be started"] := by
  rw [search_of_writable hwords hs]
  simp only [reports_conclusion, hrun]
  rfl

theorem result_eq_nil_iff_of_not_started {b : Backend} (hb : s.backend = b.name)
    (hwords : Query.tokenize query = .ok words) (hs : Writable s)
    (hrun : (run (invocation parent s (Query.Criteria.ofWords words)) world).1 =
      .notStarted reason) :
    (search run parent s query world).1.result = .ok [] ↔
      notices b s.removePrefix.toList reason.toList = [] := by
  have hparse : Listing.parse (mailbox s) reason.toList = .ok [] ↔
      notices b s.removePrefix.toList reason.toList = [] :=
    Listing.parse_eq_ok_nil_iff (m := mailbox s) hb
  rw [← hparse, search_of_writable hwords hs]
  simp only [result_conclusion, hrun, Outcome.text]
  cases Listing.parse (mailbox s) reason.toList with
  | error e => simp
  | ok hits => simp

theorem unanswered_of_not_writable (hwords : Query.tokenize query = .ok words)
    (hs : ¬ Writable s) :
    Event.reports (search run parent s query world).1.events = [] ∧
      ∃ message, (search run parent s query world).1.result = .error message := by
  rw [search_of_not_writable hwords hs]
  exact ⟨rfl, _, rfl⟩

theorem givenUp_iff_of_not_started {b : Backend} (hb : s.backend = b.name)
    (hwords : Query.tokenize query = .ok words)
    (hrun : (run (invocation parent s (Query.Criteria.ofWords words)) world).1 =
      .notStarted reason) :
    GivenUp s (search run parent s query world).1 ↔
      Writable s ∧ notices b s.removePrefix.toList reason.toList = [] := by
  by_cases hs : Writable s
  · have hreported := reports_of_not_started hwords hs hrun
    have hnothing := result_eq_nil_iff_of_not_started hb hwords hs hrun
    constructor
    · intro h
      exact ⟨hs, hnothing.1 h.nothing⟩
    · intro h
      exact ⟨⟨_, hreported⟩, hnothing.2 h.2⟩
  · constructor
    · intro h
      obtain ⟨message, hreported⟩ := h.reported
      rw [(unanswered_of_not_writable hwords hs).1] at hreported
      cases hreported
    · intro h
      exact absurd h.1 hs

/--
What comes of a search whose program does not start, for whatever reason.

It is reported once and nothing is found exactly if the limit can be written and no line of the
reason tells of a message, which none does that has no tab in it.  A limit that cannot be written
ends the search before any program is started.
-/
theorem search_not_started {b : Backend} (hb : s.backend = b.name)
    (hwords : Query.tokenize query = .ok words) (group : Option String)
    (hrun : (run (invocation parent s (Query.Criteria.ofWords words)) world).1 =
      .notStarted reason) :
    let answer := ((source run parent s).search query group world).1
    (GivenUp s answer ↔
      Writable s ∧ notices b s.removePrefix.toList reason.toList = []) ∧
    ('\t' ∉ reason.toList → (GivenUp s answer ↔ Writable s)) ∧
    (Writable s → Event.reports answer.events =
      [named s s!"Couldn't run {s.program}: program could not be started"]) ∧
    (¬ Writable s → Event.reports answer.events = [] ∧
      ∃ message, answer.result = .error message) := by
  simp only [search_source]
  have hgivenUp := givenUp_iff_of_not_started hb hwords hrun
  refine ⟨hgivenUp, ?_, ?_, ?_⟩
  · intro htab
    rw [hgivenUp, and_iff_left (Listing.notices_of_tab_not_mem htab)]
  · intro hs
    exact reports_of_not_started hwords hs hrun
  · intro hs
    exact unanswered_of_not_writable hwords hs

/-- A program that is missing. -/
theorem search_not_started_missing :
    GivenUp (plainServer "s") ((source Script.run ⟨[]⟩ (plainServer "s")).search "x" none
      ⟨[.notStarted "No such file or directory"], []⟩).1 := by
  have htab : '\t' ∉ "No such file or directory".toList := by decide
  have hwords : Query.tokenize "x" = .ok ["x"] := by decide
  have hrun : (Script.run (invocation ⟨[]⟩ (plainServer "s") (Query.Criteria.ofWords ["x"]))
      ⟨[.notStarted "No such file or directory"], []⟩).1 =
        .notStarted "No such file or directory" := rfl
  obtain ⟨-, hplain, -⟩ := search_not_started (b := .nnml) rfl hwords none hrun
  exact (hplain htab).2 (writable_plainServer "s")

/-- A reason that has the form of a result line, and the message that is found in it. -/
theorem search_finds_reason :
    ((source Script.run ⟨[]⟩ (plainServer "s")).search "x" none
      ⟨[.notStarted "5\tfile:///m/g/7"], []⟩).1.result = .ok [Hit.item ⟨"s", "g", 7, "5"⟩] ∧
    ¬ GivenUp (plainServer "s") ((source Script.run ⟨[]⟩ (plainServer "s")).search "x" none
      ⟨[.notStarted "5\tfile:///m/g/7"], []⟩).1 := by
  have hwords : Query.tokenize "x" = .ok ["x"] := by decide
  have hparse : Listing.parse (mailbox (plainServer "s")) "5\tfile:///m/g/7".toList =
      .ok [⟨"s", "g", 7, "5"⟩] :=
    Listing.parse_of_notice (b := .nnml) (n := ⟨['5'], ['g'], ['7']⟩) rfl rfl
      ⟨by decide, by decide⟩
  have hresult : ((source Script.run ⟨[]⟩ (plainServer "s")).search "x" none
      ⟨[.notStarted "5\tfile:///m/g/7"], []⟩).1.result = .ok [Hit.item ⟨"s", "g", 7, "5"⟩] := by
    rw [search_source, search_of_writable hwords (writable_plainServer "s")]
    simp only [result_conclusion, Script.run, List.headD_cons, Outcome.text, hparse]
    rfl
  refine ⟨hresult, ?_⟩
  rintro ⟨-, hnothing⟩
  rw [hresult] at hnothing
  cases hnothing

end IndexedMail.Engine
