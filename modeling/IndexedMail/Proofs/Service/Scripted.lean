import IndexedMail.Proofs.Engine.Search
import IndexedMail.Proofs.Service.Replies
import IndexedMail.Proofs.Settings.Servers

/-!
# Services in a scripted world

The service that accepted settings describe, and the replies of its servers when a script deals
the outcomes of their children.
-/

namespace IndexedMail.Service

open Engine Ranking
open Settings (Server)
open Listing (Backend)

/-! ## The service of accepted settings -/

variable {parent : Environment} {settings : Settings}

section World

variable {σ : Type} {run : Invocation → σ → Outcome × σ}

theorem sourcesOf_eq_ok {servers : List Server}
    (h : ∀ s ∈ servers, Settings.engines.contains s.engine = true) :
    sourcesOf run parent servers = .ok (servers.map (source run parent)) := by
  induction servers with
  | nil => rfl
  | cons s rest ih =>
      have hs : Engine.source? run parent s = .ok (source run parent s) :=
        if_pos (h s List.mem_cons_self)
      have hrest := ih fun t ht => h t (List.mem_cons_of_mem _ ht)
      simp only [sourcesOf, hs, hrest, Except.map, List.map_cons]

theorem ofSettings_eq_ok (h : Settings.WellFormed settings.servers) :
    ofSettings run parent settings =
      .ok ⟨settings.servers.map (source run parent), some []⟩ := by
  rw [ofSettings, sourcesOf_eq_ok h.engine]
  rfl

end World

theorem source?_ofSettings (h : (settings.servers.map Server.name).Nodup)
    (pending : Option (List String)) (name : String) :
    Service.source? ⟨settings.servers.map (source Script.run parent), pending⟩ name =
      (settings.server? name).map (source Script.run parent) := by
  rw [Service.source?, ← List.map_reverse, List.find?_map]
  exact congrArg _ (Settings.find?_name_reverse h name)

theorem select_ofSettings (parent : Environment) (h : Settings.WellFormed settings.servers)
    (pending : Option (List String)) {names : List String}
    (hnames : ∀ name ∈ names, ∃ t ∈ settings.servers, t.name = name) :
    Service.select ⟨settings.servers.map (source Script.run parent), pending⟩ names =
      .ok ((settings.chosen names).map (source Script.run parent)) := by
  have hnonempty : (settings.servers.map (source Script.run parent)).isEmpty = false := by
    simpa using h.nonempty
  have hunknown : (names.filter fun name =>
      (Service.source? ⟨settings.servers.map (source Script.run parent), pending⟩ name).isNone) =
        [] := by
    rw [List.filter_eq_nil_iff]
    intro name hname
    have hsome := Settings.isSome_server?_iff.2 (hnames name hname)
    rw [source?_ofSettings h.names, Option.isNone_map, Option.isNone_iff_eq_none]
    intro hnone
    simp [hnone] at hsome
  have hsources : Service.source? ⟨settings.servers.map (source Script.run parent), pending⟩ =
      fun name => (settings.server? name).map (source Script.run parent) :=
    funext fun name => source?_ofSettings h.names pending name
  unfold select Settings.chosen
  rw [if_neg (by simp [hnonempty])]
  split
  · rfl
  · rw [hunknown, hsources]
    simp only [List.map_filterMap]

/-! ## Replies in a scripted world -/

/-- Servers with the outcomes that a script has for their children, one each. -/
def dealt : List Server → List Outcome → List (Server × Outcome)
  | [], _ => []
  | s :: rest, outcomes => (s, outcomes.headD Script.silent) :: dealt rest outcomes.tail

theorem map_fst_dealt (servers : List Server) (outcomes : List Outcome) :
    (dealt servers outcomes).map (·.1) = servers := by
  induction servers generalizing outcomes with
  | nil => rfl
  | cons s rest ih => rw [dealt, List.map_cons, ih]

variable {query : String} {group : Option String}

/-- The reply of a server whose child searched for words. -/
def replyOf (parent : Environment) (words : List String) (d : Server × Outcome) : Reply Script :=
  let c := Query.Criteria.ofWords words
  ⟨source Script.run parent d.1, conclusion d.1 ⟨c, invocation parent d.1 c⟩ d.2⟩

theorem replies_of_writable (parent : Environment) (group : Option String) {words : List String}
    (h : Query.tokenize query = .ok words) {servers : List Server}
    (hs : ∀ s ∈ servers, Writable s) (script : Script) :
    replies query group (servers.map (source Script.run parent)) script =
      (dealt servers script.outcomes).map (replyOf parent words) ∧
    (worldAfter query group (servers.map (source Script.run parent)) script).started =
      script.started ++
        servers.map fun s => invocation parent s (Query.Criteria.ofWords words) := by
  induction servers generalizing script with
  | nil => simp [replies, worldAfter, dealt]
  | cons s rest ih =>
      let next := (Script.run (invocation parent s (Query.Criteria.ofWords words)) script).2
      have hsearch : (source Script.run parent s).search query group script =
          ((replyOf parent words (s, script.outcomes.headD Script.silent)).response, next) := by
        rw [search_source, search_of_writable h (hs s List.mem_cons_self)]
        rfl
      obtain ⟨hreplies, hstarted⟩ := ih (fun t ht => hs t (List.mem_cons_of_mem _ ht)) next
      refine ⟨?_, ?_⟩
      · rw [List.map_cons, replies, hsearch, hreplies]
        rfl
      · rw [List.map_cons, worldAfter, List.foldl_cons, hsearch]
        refine hstarted.trans ?_
        simp [next, Script.started_run]

theorem replies_of_tokenize_error (parent : Environment) (group : Option String)
    {e : Query.SyntaxError} (h : Query.tokenize query = .error e) (servers : List Server)
    (script : Script) :
    replies query group (servers.map (source Script.run parent)) script =
      servers.map (fun s => ⟨source Script.run parent s, rejection s e⟩) ∧
    worldAfter query group (servers.map (source Script.run parent)) script = script := by
  induction servers with
  | nil => exact ⟨rfl, rfl⟩
  | cons s rest ih =>
      have hsearch : (source Script.run parent s).search query group script =
          (rejection s e, script) := by
        rw [search_source, search_of_tokenize_error h]
      refine ⟨?_, ?_⟩
      · rw [List.map_cons, replies, hsearch, ih.1]
        rfl
      · rw [List.map_cons, worldAfter, List.foldl_cons, hsearch]
        exact ih.2

theorem started_worldAfter_le (servers : List Server) (script : Script) :
    (worldAfter query group (servers.map (source Script.run parent)) script).started.length ≤
      script.started.length + servers.length := by
  induction servers generalizing script with
  | nil => exact Nat.le_refl _
  | cons s rest ih =>
      have hstep : (Engine.search Script.run parent s query script).2.started.length ≤ _ :=
        started_search_le script
      have hrest := ih (Engine.search Script.run parent s query script).2
      refine hrest.trans ?_
      rw [List.length_cons]
      omega

/-- If as many children are started as there are servers, all limits can be written. -/
theorem writable_of_started {words : List String} (h : Query.tokenize query = .ok words)
    {servers : List Server} {script : Script}
    (hstarted : script.started.length + servers.length ≤
      (worldAfter query group (servers.map (source Script.run parent)) script).started.length) :
    ∀ s ∈ servers, Writable s := by
  induction servers generalizing script with
  | nil => simp
  | cons s rest ih =>
      obtain ⟨next, hnext⟩ : ∃ next, next = (Engine.search Script.run parent s query script).2 :=
        ⟨_, rfl⟩
      have hworld : worldAfter query group ((s :: rest).map (source Script.run parent)) script =
          worldAfter query group (rest.map (source Script.run parent)) next := by
        rw [hnext]
        rfl
      have hrest :
          (worldAfter query group (rest.map (source Script.run parent)) next).started.length ≤
            next.started.length + rest.length := started_worldAfter_le rest next
      have hstep : next.started.length ≤ script.started.length + 1 :=
        hnext ▸ started_search_le script
      rw [hworld, List.length_cons] at hstarted
      intro t ht
      rcases List.mem_cons.1 ht with rfl | ht
      · by_contra hnot
        have hsame : next = script := by
          rw [hnext, search_of_not_writable h hnot]
        rw [hsame] at hrest hstarted
        omega
      · have htail : next.started.length + rest.length ≤
            (worldAfter query group (rest.map (source Script.run parent)) next).started.length := by
          omega
        exact ih htail t ht

end IndexedMail.Service
