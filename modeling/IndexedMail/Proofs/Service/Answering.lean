import IndexedMail.Proofs.Service.Isolation
import IndexedMail.Proofs.Service.Merging

/-!
# When a service answers

A search of configured servers answers with a report if one of them does, and all that is in the
report are hits with numbers that can be written.
-/

namespace IndexedMail

open Text.Numeral (writableBound)

namespace Engine

instance (s : Settings.Server) : Decidable (Writable s) :=
  inferInstanceAs (Decidable (s.maxResults.natAbs < writableBound))

end Engine

/-- A hit that has a rank, and a number that can be written. -/
structure Hit.Sound (h : Hit) : Prop where
  rank : ∃ k, h.rank = .ok k
  article : h.article.natAbs < writableBound

namespace Listing

theorem sound_of_parse {m : Mailbox} {b : Backend} (hb : m.backend = b.name) {text : List Char}
    {hits : List Hit} (h : parse m text = .ok hits) : ∀ x ∈ hits, x.Sound := by
  obtain ⟨hranks, -⟩ := of_parse hb h
  intro x hx
  obtain ⟨n, -, hreadable, hhit⟩ := exists_notice_of_mem hb h hx
  refine ⟨(hranks x hx).2, ?_⟩
  rw [← hhit]
  exact Text.Numeral.ofDigits_lt_writableBound hreadable.2

end Listing

namespace Service

open Engine
open Settings (Server)
open Listing (Backend)

section Items

variable {σ : Type} {run : Invocation → σ → Outcome × σ} {parent : Environment} {query : String}
  {group : Option String}

/-- The items are sound hits. -/
def AreHits (items : List Item) : Prop :=
  ∃ hits : List Hit, items = hits.map Hit.item ∧ ∀ h ∈ hits, h.Sound

theorem areHits_iff {items : List Item} :
    AreHits items ↔ ∀ i ∈ items, ∃ h : Hit, i = h.item ∧ h.Sound := by
  constructor
  · rintro ⟨hits, rfl, hsound⟩ i hi
    obtain ⟨h, hh, rfl⟩ := List.mem_map.1 hi
    exact ⟨h, rfl, hsound h hh⟩
  · intro hall
    induction items with
    | nil => exact ⟨[], rfl, by simp⟩
    | cons i rest ih =>
        obtain ⟨h, rfl, hsound⟩ := hall i List.mem_cons_self
        obtain ⟨hits, rfl, hrest⟩ := ih fun j hj => hall j (List.mem_cons_of_mem _ hj)
        exact ⟨h :: hits, rfl, List.forall_mem_cons.2 ⟨hsound, hrest⟩⟩

theorem areHits_of_search {s : Server} {b : Backend} (hb : s.backend = b.name) {world : σ}
    {items : List Item} (h : (Engine.search run parent s query world).1.result = .ok items) :
    AreHits items := by
  cases hwords : Query.tokenize query with
  | error e =>
      rw [search_of_tokenize_error hwords] at h
      cases h
      exact ⟨[], rfl, by simp⟩
  | ok words =>
      by_cases hs : Writable s
      · rw [search_of_writable hwords hs, result_conclusion] at h
        split at h
        · cases h
        · rename_i hits hparse
          cases h
          exact ⟨hits, rfl, Listing.sound_of_parse (m := mailbox s) hb hparse⟩
      · rw [search_of_not_writable hwords hs] at h
        cases h

theorem areHits_of_replies (run : Invocation → σ → Outcome × σ) (parent : Environment)
    (query : String) (group : Option String) {servers : List Server}
    (hbackend : ∀ s ∈ servers, ∃ b : Backend, s.backend = b.name) (world : σ) :
    AreHits ((replies query group (servers.map (source run parent)) world).flatMap
      Reply.items) := by
  rw [areHits_iff]
  induction servers generalizing world with
  | nil => simp [replies]
  | cons s rest ih =>
      obtain ⟨b, hb⟩ := hbackend s List.mem_cons_self
      rw [List.map_cons, replies, List.flatMap_cons, List.forall_mem_append]
      refine ⟨?_, ih (fun t ht => hbackend t (List.mem_cons_of_mem _ ht)) _⟩
      rw [search_source, ← areHits_iff]
      unfold Reply.items
      split
      · exact ⟨[], rfl, by simp⟩
      · rename_i hresult
        exact areHits_of_search hb hresult

end Items

/-! ## Servers that answer -/

variable {parent : Environment} {query : String} {group : Option String}

/-- Among the servers that are searched there is one that answers. -/
def Answered (query : String) (servers : List Server) (outcomes : List Outcome) : Prop :=
  ∀ words, Query.tokenize query = .ok words →
    ∃ d ∈ dealt (servers.filter fun s => Writable s) outcomes,
      ∀ b : Backend, d.1.backend = b.name → Legible b d.1 d.2

theorem not_failed_conclusion_iff {s : Server} (hbackend : ∃ b : Backend, s.backend = b.name)
    (src : Source Script) (p : Plan) (o : Outcome) :
    ¬ (⟨src, conclusion s p o⟩ : Reply Script).Failed ↔
      ∀ b : Backend, s.backend = b.name → Legible b s o := by
  constructor
  · intro hanswered b hb
    by_contra hnot
    exact hanswered (result_eq_error_of_not_legible hb hnot p)
  · obtain ⟨b, hb⟩ := hbackend
    rintro hlegible ⟨message, hmessage⟩
    obtain ⟨hits, hparse⟩ := (legible_iff hb o).1 (hlegible b hb)
    simp only [result_conclusion, hparse] at hmessage
    cases hmessage

/-- Outcomes are dealt to those servers alone whose limits can be written. -/
theorem exists_not_failed_iff {words : List String} (h : Query.tokenize query = .ok words)
    {servers : List Server} (hbackend : ∀ s ∈ servers, ∃ b : Backend, s.backend = b.name)
    (script : Script) :
    (∃ r ∈ replies query group (servers.map (source Script.run parent)) script, ¬ r.Failed) ↔
      ∃ d ∈ dealt (servers.filter fun s => Writable s) script.outcomes,
        ∀ b : Backend, d.1.backend = b.name → Legible b d.1 d.2 := by
  -- Every server that starts a child takes one outcome, so the script changes along the way.
  induction servers generalizing script with
  | nil => simp [replies, dealt]
  | cons s rest ih =>
      have hrest := ih fun t ht => hbackend t (List.mem_cons_of_mem _ ht)
      rw [List.map_cons, replies, search_source]
      by_cases hs : Writable s
      · have hfirst := not_failed_conclusion_iff (hbackend s List.mem_cons_self)
          (source Script.run parent s)
        rw [search_of_writable h hs, List.filter_cons_of_pos (by simpa using hs), dealt]
        simp only [List.exists_mem_cons_iff]
        exact or_congr (hfirst _ _) (hrest _)
      · have hfailed : ¬ ¬ (⟨source Script.run parent s,
            (Engine.search Script.run parent s query script).1⟩ : Reply Script).Failed := by
          rw [search_of_not_writable h hs]
          exact fun hnot => hnot ⟨_, rfl⟩
        rw [search_of_not_writable h hs] at hfailed ⊢
        rw [List.filter_cons_of_neg (by simpa using hs)]
        simp only [List.exists_mem_cons_iff]
        exact (or_iff_right hfailed).trans (hrest script)

theorem answered_iff (parent : Environment) (query : String) (group : Option String)
    {servers : List Server} (hne : servers ≠ [])
    (hbackend : ∀ s ∈ servers, ∃ b : Backend, s.backend = b.name) (script : Script) :
    (∃ r ∈ replies query group (servers.map (source Script.run parent)) script, ¬ r.Failed) ↔
      Answered query servers script.outcomes := by
  cases h : Query.tokenize query with
  | ok words =>
      rw [exists_not_failed_iff h hbackend]
      constructor
      · intro hanswer words' hwords
        exact hanswer
      · intro hanswered
        exact hanswered words h
  | error e =>
      -- No child is started for a query that cannot be read, and no server fails.
      obtain ⟨first, hfirst⟩ := List.exists_mem_of_ne_nil _ hne
      rw [(replies_of_tokenize_error parent group h servers script).1]
      refine iff_of_true ⟨_, List.mem_map_of_mem hfirst, ?_⟩ fun words hwords => ?_
      · rintro ⟨message, hmessage⟩
        cases hmessage
      · rw [h] at hwords
        cases hwords

/-! ## Reports -/

theorem sortByScore_of_areHits {items : List Item} (h : AreHits items) :
    ∃ sorted, Item.sortByScore items = .ok sorted ∧ AreHits sorted := by
  rw [areHits_iff] at h
  have hranks : ∀ i ∈ items, ∃ k, i.rank = .ok k := by
    intro i hi
    obtain ⟨hit, rfl, hsound⟩ := h i hi
    obtain ⟨k, hk⟩ := hsound.rank
    exact ⟨k, Hit.rank_item hk⟩
  obtain ⟨sorted, hsort, hstable⟩ := Ranking.sort_of_forall hranks
  exact ⟨sorted, hsort, areHits_iff.2 fun i hi => h i ((hstable.mem_iff i).1 hi)⟩

theorem exists_reportOn_of_sort {σ : Type} (collected : Bool) {given : List (Reply σ)}
    {sorted : List Item} (h : Item.sortByScore (given.flatMap Reply.items) = .ok sorted) :
    ∃ errors, reportOn collected given = .ok ⟨sorted, errors⟩ :=
  ⟨given.flatMap (if collected then Reply.messages else Reply.raised), by simp only [reportOn, h]⟩

/-- A search of configured servers reports on hits, or fails because all servers fail. -/
theorem outcome_of_chosen (parent : Environment) {settings : Settings}
    (hsettings : settings.Sound) {names : List String}
    (hnames : ∀ name ∈ names, ∃ t ∈ settings.servers, t.name = name) (query : String)
    (group : Option String) (script : Script) :
    let svc : Service Script := ⟨settings.servers.map (source Script.run parent), some []⟩
    let outcome := (svc.search query names group script).outcome
    (Answered query (settings.chosen names) script.outcomes →
      ∃ report, outcome = .ok report ∧ AreHits report.items) ∧
    (¬ Answered query (settings.chosen names) script.outcomes → ∃ e, outcome = .error e) := by
  intro svc outcome
  have hwell := hsettings.wellFormed
  have hselect := select_ofSettings parent hwell (some []) hnames
  have hbackend : ∀ s ∈ settings.chosen names, ∃ b : Backend, s.backend = b.name :=
    fun s hs => hwell.backend s (Settings.chosen_subset hs)
  have hanswered := answered_iff parent query group
    (Settings.chosen_ne_nil hwell hnames) hbackend script
  obtain ⟨-, hsearch⟩ := search_of_select hselect query group script
  rw [← length_replies query group _ script] at hsearch
  rw [← hanswered]
  constructor
  · intro hsome
    have hnotall : ¬ ∀ r ∈ replies query group
        ((settings.chosen names).map (source Script.run parent)) script, r.Failed := by
      simpa using hsome
    rw [if_neg fun hlength => hnotall (length_flatMap_failed_eq_iff.1 hlength)] at hsearch
    obtain ⟨sorted, hsort, hhits⟩ :=
      sortByScore_of_areHits (areHits_of_replies Script.run parent query group hbackend script)
    obtain ⟨errors, hreport⟩ := exists_reportOn_of_sort true hsort
    exact ⟨_, hsearch.1.trans hreport, hhits⟩
  · intro hnone
    have hall : ∀ r ∈ replies query group
        ((settings.chosen names).map (source Script.run parent)) script, r.Failed := by
      simpa using hnone
    rw [if_pos (length_flatMap_failed_eq_iff.2 hall)] at hsearch
    exact ⟨_, hsearch.1⟩

/-- Names that are not configured keep a search from beginning. -/
theorem search_of_not_configured (parent : Environment) {settings : Settings}
    (hsettings : settings.Sound) {names : List String}
    (hnames : ¬ ∀ name ∈ names, ∃ t ∈ settings.servers, t.name = name)
    (query : String) (group : Option String) (script : Script) :
    let svc : Service Script := ⟨settings.servers.map (source Script.run parent), some []⟩
    ∃ e, svc.search query names group script =
      { outcome := .error e, pending := some [], records := [], world := script } := by
  intro svc
  have hne : svc.sources ≠ [] := by
    simpa [svc] using hsettings.nonempty
  obtain ⟨name, hname, hmissing⟩ : ∃ name ∈ names, ¬ ∃ t ∈ settings.servers, t.name = name := by
    simpa using hnames
  have hnone : (svc.source? name).isNone = true := by
    rw [source?_ofSettings hsettings.names, Option.isNone_map, Option.isNone_iff_eq_none]
    by_contra hsome
    exact hmissing (Settings.isSome_server?_iff.1 (Option.isSome_iff_ne_none.2 hsome))
  have hselect := select_of_isNone hne ⟨name, hname, hnone⟩
  exact ⟨_, search_of_select_error hselect query group script⟩

end Service

end IndexedMail
