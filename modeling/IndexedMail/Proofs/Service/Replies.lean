import IndexedMail.Proofs.Ranking.Stability
import IndexedMail.Service
import Mathlib.Data.List.Basic

/-!
# Replies of the searched sources

A search asks its sources one after the other.  Everything that comes of it is a function of the
replies that are given on the way: the items, the messages, and whether all of them failed.  In
particular it is no function of the messages that waited in the collector.
-/

namespace IndexedMail.Service

variable {σ : Type}

/-- A source with what it responded. -/
structure Reply (σ : Type) where
  source : Source σ
  response : Response

namespace Reply

/-- The items of a source that did not fail. -/
def items (r : Reply σ) : List Item :=
  match r.response.result with
  | .error _ => []
  | .ok items => items

/-- The name of a source that failed. -/
def failed (r : Reply σ) : List String :=
  match r.response.result with
  | .error _ => [r.source.displayName]
  | .ok _ => []

/-- The message on a source that failed. -/
def raised (r : Reply σ) : List String :=
  match r.response.result with
  | .error e => [r.source.displayName ++ ": " ++ e]
  | .ok _ => []

/-- What a source reports itself, and the message on its failure behind it. -/
def messages (r : Reply σ) : List String :=
  Event.reports r.response.events ++ r.raised

end Reply

/-- The replies of sources that are asked in turn, each in the world that the last one left. -/
def replies (query : String) (group : Option String) : List (Source σ) → σ → List (Reply σ)
  | [], _ => []
  | s :: rest, world =>
      ⟨s, (s.search query group world).1⟩ :: replies query group rest (s.search query group world).2

/-- The world behind sources that were asked in turn. -/
def worldAfter (query : String) (group : Option String) (sources : List (Source σ)) (world : σ) :
    σ :=
  sources.foldl (fun world s => (s.search query group world).2) world

/-! ## Progress by replies -/

namespace Progress

/-- The second progress comes of the first by some replies. -/
structure Extends (p : Progress σ) (given : List (Reply σ)) (q : Progress σ) : Prop where
  items : q.items = p.items ++ given.flatMap Reply.items
  failed : q.failed = p.failed ++ given.flatMap Reply.failed
  failures : q.failures =
    p.failures ++ if p.pending.isNone then given.flatMap Reply.raised else []
  pending : q.pending = p.pending.map (· ++ given.flatMap Reply.messages)

theorem Extends.refl (p : Progress σ) : p.Extends [] p := by
  constructor <;> simp

theorem Extends.trans {p q r : Progress σ} {first second : List (Reply σ)}
    (h₁ : p.Extends first q) (h₂ : q.Extends second r) : p.Extends (first ++ second) r := by
  refine ⟨?_, ?_, ?_, ?_⟩
  · rw [h₂.items, h₁.items, List.flatMap_append, List.append_assoc]
  · rw [h₂.failed, h₁.failed, List.flatMap_append, List.append_assoc]
  · rw [h₂.failures, h₁.failures, h₁.pending]
    cases p.pending <;> simp
  · rw [h₂.pending, h₁.pending]
    cases p.pending <;> simp

theorem report_pending (p : Progress σ) (message : String) :
    (p.report message).pending = p.pending.map (· ++ [message]) := by
  unfold report
  split <;> rename_i h <;> simp [h]

theorem report_eq (p : Progress σ) (message : String) :
    (p.report message).items = p.items ∧ (p.report message).failed = p.failed ∧
      (p.report message).failures = p.failures ∧ (p.report message).world = p.world := by
  unfold report
  split <;> simp [log]

/-- Events add the messages that they report, and change nothing else that is gathered. -/
theorem foldl_event (events : List Event) (p : Progress σ) :
    (events.foldl event p).items = p.items ∧ (events.foldl event p).failed = p.failed ∧
      (events.foldl event p).failures = p.failures ∧ (events.foldl event p).world = p.world ∧
      (events.foldl event p).pending = p.pending.map (· ++ Event.reports events) := by
  induction events generalizing p with
  | nil => simp [Event.reports]
  | cons e rest ih =>
      obtain ⟨hitems, hfailed, hfailures, hworld, hpending⟩ := ih (p.event e)
      cases e with
      | record r => exact ⟨hitems, hfailed, hfailures, hworld, hpending⟩
      | report message =>
          obtain ⟨hi, hf, hs, hw⟩ := p.report_eq message
          refine ⟨hitems.trans hi, hfailed.trans hf, hfailures.trans hs, hworld.trans hw, ?_⟩
          rw [List.foldl_cons, hpending, event, report_pending]
          cases p.pending <;> simp [Event.reports]

theorem fail_eq (p : Progress σ) (name e : String) :
    (p.fail name e).items = p.items ∧ (p.fail name e).failed = p.failed ++ [name] ∧
      (p.fail name e).failures =
        p.failures ++ (if p.pending.isNone then [name ++ ": " ++ e] else []) ∧
      (p.fail name e).world = p.world ∧
      (p.fail name e).pending = p.pending.map (· ++ [name ++ ": " ++ e]) := by
  unfold fail
  cases p.pending <;> simp [log, report]

theorem search_eq (query : String) (group : Option String) (p : Progress σ) (s : Source σ) :
    p.search query group s =
      let response := (s.search query group p.world).1
      let q := response.events.foldl event { p with world := (s.search query group p.world).2 }
      match response.result with
      | .error e => q.fail s.displayName e
      | .ok items => q.complete s.displayName items := rfl

/-- A source that is searched adds its reply. -/
theorem search_extends (query : String) (group : Option String) (p : Progress σ) (s : Source σ) :
    p.Extends [⟨s, (s.search query group p.world).1⟩] (p.search query group s) ∧
      (p.search query group s).world = (s.search query group p.world).2 := by
  simp only [search_eq]
  generalize (s.search query group p.world).1 = response
  generalize (s.search query group p.world).2 = world
  obtain ⟨hitems, hfailed, hfailures, hworld, hpending⟩ :=
    foldl_event response.events { p with world := world }
  generalize response.events.foldl event { p with world := world } = q at *
  cases hresult : response.result with
  | ok items =>
      refine ⟨⟨?_, ?_, ?_, ?_⟩, hworld⟩
      · simp [complete, log, hitems, Reply.items, hresult]
      · simp [complete, log, hfailed, Reply.failed, hresult]
      · simp [complete, log, hfailures, Reply.raised, hresult]
      · simp [complete, log, hpending, Reply.messages, Reply.raised, hresult]
  | error e =>
      obtain ⟨hi, hf, hs, hw, hp⟩ := q.fail_eq s.displayName e
      refine ⟨⟨?_, ?_, ?_, ?_⟩, hw.trans hworld⟩
      · simp [hi, hitems, Reply.items, hresult]
      · simp [hf, hfailed, Reply.failed, hresult]
      · simp [hs, hfailures, hpending, Reply.raised, hresult]
      · simp only [hp, hpending, Option.map_map]
        simp [Reply.messages, Reply.raised, hresult, Function.comp_def]

/-- Sources that are searched in turn add their replies, in order. -/
theorem foldl_search_extends (query : String) (group : Option String) (sources : List (Source σ))
    (p : Progress σ) :
    p.Extends (replies query group sources p.world) (sources.foldl (search query group) p) ∧
      (sources.foldl (search query group) p).world = worldAfter query group sources p.world := by
  induction sources generalizing p with
  | nil => exact ⟨Extends.refl p, rfl⟩
  | cons s rest ih =>
      obtain ⟨hstep, hworld⟩ := search_extends query group p s
      obtain ⟨hrest, hlast⟩ := ih (p.search query group s)
      rw [hworld] at hrest hlast
      exact ⟨hstep.trans hrest, hlast⟩

end Progress

/-! ## What a search makes of the replies -/

/-- The report on replies that were given with a collector, or without one. -/
def reportOn (collected : Bool) (given : List (Reply σ)) : Except Error Report :=
  match Item.sortByScore (given.flatMap Reply.items) with
  | .error e => .error (.rank e)
  | .ok items =>
      .ok
        { items := items
          errors := given.flatMap (if collected then Reply.messages else Reply.raised) }

theorem search_of_select_error {svc : Service σ} {servers : List String} {e : Error}
    (h : svc.select servers = .error e) (query : String) (group : Option String) (world : σ) :
    svc.search query servers group world =
      { outcome := .error e, pending := svc.pending, records := [], world := world } := by
  simp [search, h]

/-- The progress with which a search begins: the collector has been emptied. -/
def Progress.start (pending : Option (List String)) (world : σ) : Progress σ :=
  { items := []
    failed := []
    failures := []
    pending := pending.map fun _ => []
    records := []
    world := world }

theorem search_eq_conclude {svc : Service σ} {servers : List String} {selected : List (Source σ)}
    (h : svc.select servers = .ok selected) (query : String) (group : Option String) (world : σ) :
    svc.search query servers group world =
      conclude selected
        (selected.foldl (Progress.search query group) (Progress.start svc.pending world)) := by
  simp [search, h, Progress.start]

/-- A search fails if all replies are failures, and else reports on the replies alone. -/
theorem search_of_select {svc : Service σ} {servers : List String} {selected : List (Source σ)}
    (h : svc.select servers = .ok selected) (query : String) (group : Option String) (world : σ) :
    let given := replies query group selected world
    let answer := svc.search query servers group world
    answer.world = worldAfter query group selected world ∧
    if (given.flatMap Reply.failed).length = selected.length then
      answer.outcome = .error (.allFailed (given.flatMap Reply.failed)) ∧
        answer.pending = svc.pending.map fun _ => given.flatMap Reply.messages
    else
      answer.outcome = reportOn svc.pending.isSome given ∧
        answer.pending = svc.pending.map fun _ => [] := by
  intro given answer
  obtain ⟨final, hfinal⟩ : ∃ final, final =
    selected.foldl (Progress.search query group) (Progress.start svc.pending world) := ⟨_, rfl⟩
  have hanswer : answer = conclude selected final := hfinal ▸ search_eq_conclude h query group world
  obtain ⟨hextends, hworld⟩ :=
    Progress.foldl_search_extends query group selected (Progress.start svc.pending world)
  rw [← hfinal] at hextends hworld
  have hitems : final.items = given.flatMap Reply.items := hextends.items
  have hfailed : final.failed = given.flatMap Reply.failed := hextends.failed
  have hpending : final.pending = svc.pending.map fun _ => given.flatMap Reply.messages := by
    rw [hextends.pending, Progress.start, Option.map_map]
    rfl
  have herrors : final.pending.getD final.failures =
      given.flatMap (if svc.pending.isSome then Reply.messages else Reply.raised) := by
    rw [hpending, hextends.failures]
    cases svc.pending <;> simp [Progress.start, given]
  rw [hanswer]
  unfold conclude
  rw [hfailed]
  split
  · exact ⟨hworld, rfl, hpending⟩
  · refine ⟨hworld, ?_, ?_⟩
    · rw [hitems, herrors]
      unfold reportOn
      cases Item.sortByScore (given.flatMap Reply.items) with
      | error e => rfl
      | ok items => rfl
    · rw [hpending, Option.map_map]
      rfl

/-- With a collector and without failures, a search reports what its replies add. -/
theorem search_of_succeeded {svc : Service σ} {servers : List String}
    {selected : List (Source σ)} {query : String} {group : Option String} {world : σ}
    (h : svc.select servers = .ok selected) (hne : selected ≠ [])
    (hpending : svc.pending.isSome = true) {α : Type} {xs : List α} {reply : α → Reply σ}
    (hreplies : replies query group selected world = xs.map reply) {found : α → List Item}
    {said : α → List String}
    (hreply : ∀ x ∈ xs, (reply x).items = found x ∧ (reply x).failed = [] ∧
      (reply x).messages = said x)
    {items : List Item} (hsort : Item.sortByScore (xs.flatMap found) = .ok items) :
    (svc.search query servers group world).outcome =
        .ok { items := items, errors := xs.flatMap said } ∧
      (svc.search query servers group world).world = worldAfter query group selected world := by
  have hitems : (xs.map reply).flatMap Reply.items = xs.flatMap found := by
    rw [List.flatMap_map]
    exact List.flatMap_congr fun x hx => (hreply x hx).1
  have hfailed : (xs.map reply).flatMap Reply.failed = [] := by
    rw [List.flatMap_map]
    exact List.flatMap_eq_nil_iff.2 fun x hx => (hreply x hx).2.1
  have hmessages : (xs.map reply).flatMap Reply.messages = xs.flatMap said := by
    rw [List.flatMap_map]
    exact List.flatMap_congr fun x hx => (hreply x hx).2.2
  obtain ⟨hworld, hsearch⟩ := search_of_select h query group world
  rw [hreplies, hfailed,
    if_neg fun hlength => hne (List.eq_nil_of_length_eq_zero hlength.symm)] at hsearch
  simp only [reportOn, hitems, hsort, hpending, if_true, hmessages] at hsearch
  exact ⟨hsearch.1, hworld⟩

theorem search_of_failed {svc : Service σ} {servers names : List String}
    {selected : List (Source σ)} {query : String} {group : Option String} {world : σ}
    (h : svc.select servers = .ok selected)
    (hfailed : (replies query group selected world).flatMap Reply.failed = names)
    (hlength : names.length = selected.length) :
    (svc.search query servers group world).outcome = .error (.allFailed names) := by
  obtain ⟨-, hsearch⟩ := search_of_select h query group world
  rw [hfailed, if_pos hlength] at hsearch
  exact hsearch.1

end IndexedMail.Service
