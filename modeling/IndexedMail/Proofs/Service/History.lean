import IndexedMail.Proofs.Service.Replies

/-!
# Histories of a service

Whatever was done with a service before, a search that reports does so on its own replies only.
Searches that failed may have left messages in the collector, and others may have put some there.
-/

namespace IndexedMail.Service

variable {σ : Type}

/-- What is done with a service from outside. -/
inductive Step where
  | search (query : String) (servers : List String) (group : Option String)
  | report (message : String)
  | drain
  deriving DecidableEq, Repr

/-- A service in a world. -/
structure State (σ : Type) where
  service : Service σ
  world : σ

namespace State

/-- Do one step. -/
def step (st : State σ) : Step → State σ
  | .search query servers group =>
      let answer := st.service.search query servers group st.world
      { service := { st.service with pending := answer.pending }, world := answer.world }
  | .report message => { st with service := (st.service.report message).1 }
  | .drain => { st with service := st.service.drain.1 }

/-- Do steps in order. -/
def run (st : State σ) (steps : List Step) : State σ :=
  steps.foldl step st

/-- The sources are the given ones, and there is a collector or none as given. -/
structure Serves (sources : List (Source σ)) (collected : Bool) (st : State σ) : Prop where
  sources : st.service.sources = sources
  collected : st.service.pending.isSome = collected

end State

/-! ## Steps keep the sources and the collector -/

theorem isSome_pending_search (svc : Service σ) (query : String) (servers : List String)
    (group : Option String) (world : σ) :
    (svc.search query servers group world).pending.isSome = svc.pending.isSome := by
  cases h : svc.select servers with
  | error e => rw [search_of_select_error h]
  | ok selected =>
      obtain ⟨-, hsearch⟩ := search_of_select h query group world
      split at hsearch
      · rw [hsearch.2, Option.isSome_map]
      · rw [hsearch.2, Option.isSome_map]

namespace State

variable {sources : List (Source σ)} {collected : Bool} {st : State σ}

theorem Serves.step (h : Serves sources collected st) (s : Step) :
    Serves sources collected (st.step s) := by
  refine ⟨?_, ?_⟩
  · rw [← h.sources]
    cases s with
    | search query servers group => rfl
    | report message =>
        unfold State.step Service.report
        cases st.service.pending <;> rfl
    | drain => rfl
  · rw [← h.collected]
    cases s with
    | search query servers group => exact isSome_pending_search _ _ _ _ _
    | report message =>
        unfold State.step Service.report
        cases hpending : st.service.pending <;> simp [hpending]
    | drain => exact Option.isSome_map

theorem Serves.run (h : Serves sources collected st) (steps : List Step) :
    Serves sources collected (st.run steps) := by
  induction steps generalizing st with
  | nil => exact h
  | cons s rest ih => exact ih (h.step s)

end State

/-! ## Reports -/

theorem select_congr {svc other : Service σ} (h : svc.sources = other.sources)
    (servers : List String) : svc.select servers = other.select servers := by
  have hsource : svc.source? = other.source? := by
    funext name
    rw [source?, source?, h]
  rw [select, select, h, hsource]

/-- What a search answers is the same whatever waits in the collector. -/
theorem outcome_search_congr {svc other : Service σ} (h : svc.sources = other.sources)
    (hpending : svc.pending.isSome = other.pending.isSome) (query : String)
    (servers : List String) (group : Option String) (world : σ) :
    (svc.search query servers group world).outcome =
      (other.search query servers group world).outcome := by
  have hselect := select_congr h servers
  cases hs : other.select servers with
  | error e =>
      rw [hs] at hselect
      rw [search_of_select_error hs, search_of_select_error hselect]
  | ok selected =>
      rw [hs] at hselect
      obtain ⟨-, hsvc⟩ := search_of_select hselect query group world
      obtain ⟨-, hother⟩ := search_of_select hs query group world
      split at hsvc <;> rename_i hall
      · rw [if_pos hall] at hother
        rw [hsvc.1, hother.1]
      · rw [if_neg hall] at hother
        rw [hsvc.1, hother.1, hpending]

/-- The errors of a report are those of the replies that were given for it. -/
theorem errors_search {svc : Service σ} {query : String} {servers : List String}
    {group : Option String} {world : σ} {report : Report}
    (h : (svc.search query servers group world).outcome = .ok report) :
    ∃ selected, svc.select servers = .ok selected ∧
      report.errors = (replies query group selected world).flatMap
        (if svc.pending.isSome then Reply.messages else Reply.raised) ∧
      (svc.search query servers group world).pending = svc.pending.map fun _ => [] := by
  cases hs : svc.select servers with
  | error e =>
      rw [search_of_select_error hs] at h
      cases h
  | ok selected =>
      obtain ⟨-, hsearch⟩ := search_of_select hs query group world
      split at hsearch
      · rw [hsearch.1] at h
        cases h
      · refine ⟨selected, rfl, ?_, hsearch.2⟩
        rw [hsearch.1] at h
        unfold reportOn at h
        split at h
        · cases h
        · cases h
          rfl

/--
After any steps, a search that reports names the errors of its own sources in their order.

With a collector these are what every selected source reports during this search, and behind it
the error that the source ended with, if any; the collector is empty then.  Without one they are
only the errors that sources ended with.  Messages that waited before make no difference.
-/
theorem errors_after_steps (sources : List (Source σ)) (pending : Option (List String)) (world : σ)
    (steps : List Step) (query : String) (servers : List String) (group : Option String)
    {report : Report} :
    let st := State.run ⟨⟨sources, pending⟩, world⟩ steps
    let answer := st.service.search query servers group st.world
    answer.outcome = .ok report →
    ∃ selected, select ⟨sources, pending⟩ servers = .ok selected ∧
      (pending.isSome →
        report.errors = (replies query group selected st.world).flatMap Reply.messages ∧
          answer.pending = some []) ∧
      (pending = none →
        report.errors = (replies query group selected st.world).flatMap Reply.raised) ∧
      ∀ waiting : Option (List String), waiting.isSome = pending.isSome →
        (search ⟨sources, waiting⟩ query servers group st.world).outcome = .ok report := by
  intro st answer h
  have hstart : State.Serves sources pending.isSome ⟨⟨sources, pending⟩, world⟩ := ⟨rfl, rfl⟩
  have hserves : State.Serves sources pending.isSome st := hstart.run steps
  obtain ⟨selected, hselected, herrors, hempty⟩ := errors_search h
  rw [hserves.collected] at herrors
  refine ⟨selected, ?_, ?_, ?_, ?_⟩
  · rw [← hselected]
    exact select_congr hserves.sources.symm servers
  · intro hsome
    refine ⟨by rw [herrors, if_pos hsome], ?_⟩
    obtain ⟨waiting, hwaiting⟩ := Option.isSome_iff_exists.1 (hserves.collected.trans hsome)
    exact hempty.trans (by rw [hwaiting, Option.map_some])
  · rintro rfl
    simpa using herrors
  · intro waiting hsame
    rw [← h]
    exact outcome_search_congr hserves.sources.symm (hsame.trans hserves.collected.symm) _ _ _ _

/-- A source that always ends with an error. -/
def brokenSource : Source Unit :=
  { name? := some "a", search := fun _ _ world => (⟨[], .error "down"⟩, world), close? := none }

/-- A source that reports whenever it is searched, and finds nothing. -/
def slowSource : Source Unit :=
  { name? := some "b"
    search := fun _ _ world => (⟨[.report "slow"], .ok []⟩, world)
    close? := none }

theorem errors_after_steps_left_over :
    let st := State.run ⟨⟨[brokenSource, slowSource], some ["old"]⟩, ()⟩
      [.report "early", .search "x" ["a"] none, .search "x" ["c"] none]
    st.service.pending = some ["a: down"] ∧
    (st.service.search "x" [] none st.world).outcome = .ok ⟨[], ["a: down", "slow"]⟩ ∧
    (st.service.search "x" [] none st.world).pending = some [] := by
  intro st
  have hitems : Item.sortByScore [] = .ok [] := Ranking.sort_nil _
  have houtcome : (st.service.search "x" [] none st.world).outcome =
      .ok ⟨[], ["a: down", "slow"]⟩ := by
    have hselect : st.service.select [] = .ok [brokenSource, slowSource] := rfl
    obtain ⟨-, hsearch⟩ := search_of_select hselect "x" none st.world
    rw [if_neg (by decide)] at hsearch
    have hnone : (replies "x" none [brokenSource, slowSource] st.world).flatMap Reply.items = [] :=
      rfl
    rw [hsearch.1, reportOn, hnone, hitems]
    rfl
  obtain ⟨selected, -, hcollected, -⟩ := errors_after_steps [brokenSource, slowSource]
    (some ["old"]) () [.report "early", .search "x" ["a"] none, .search "x" ["c"] none] "x" [] none
    houtcome
  exact ⟨rfl, houtcome, (hcollected rfl).2⟩

end IndexedMail.Service
