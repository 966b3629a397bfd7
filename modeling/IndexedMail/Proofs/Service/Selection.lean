import IndexedMail.Proofs.Lookup
import IndexedMail.Proofs.Service.Merging

/-!
# Searching named sources

A search of named sources is the search of a smaller service, which has those sources only.  If a
name is no source's, nothing is searched and nothing else happens.
-/

namespace IndexedMail.Service

variable {σ : Type}

/-- Every source has a name, and no two sources have the same. -/
structure DistinctlyNamed (svc : Service σ) : Prop where
  named : ∀ s ∈ svc.sources, s.name?.isSome
  distinct : svc.names.Nodup

/-- The second service has those sources of the first that names name, each once, in the order in
which the names first come. -/
structure NarrowsTo (svc : Service σ) (servers : List String) (small : Service σ) : Prop where
  sources : small.sources ⊆ svc.sources
  names : small.names = servers.eraseDups
  pending : small.pending = svc.pending

/-- The sources that a search asks, each with the query and the group that it is given. -/
def asked (svc : Service σ) (query : String) (servers : List String) (group : Option String)
    (world : σ) : List (Source σ × String × Option String) :=
  (svc.calls query servers group world).filterMap fun c =>
    svc.sources[c.place]?.map fun s => (s, c.query, c.group)

/-- Why a search of names that are not all names of sources fails. -/
def refusal (svc : Service σ) (servers : List String) : Error :=
  if svc.sources.isEmpty then .noServers
  else .unknownServers (servers.filter fun name => !svc.names.contains name)

/-! ## Names and selectors -/

theorem selector_eq_displayName {s : Source σ} (h : s.name?.isSome) :
    s.selector = s.displayName := by
  obtain ⟨name, hname⟩ := Option.isSome_iff_exists.1 h
  simp [Source.selector, Source.displayName, hname]

theorem mem_names_iff {svc : Service σ} (h : ∀ s ∈ svc.sources, s.name?.isSome) {name : String} :
    name ∈ svc.names ↔ ∃ s ∈ svc.sources, s.selector = name := by
  rw [names, List.mem_map]
  constructor
  · rintro ⟨s, hs, rfl⟩
    exact ⟨s, hs, selector_eq_displayName (h s hs)⟩
  · rintro ⟨s, hs, rfl⟩
    exact ⟨s, hs, (selector_eq_displayName (h s hs)).symm⟩

theorem isNone_source?_iff {svc : Service σ} (h : ∀ s ∈ svc.sources, s.name?.isSome)
    {name : String} : (svc.source? name).isNone = true ↔ name ∉ svc.names := by
  rw [mem_names_iff h, source?, Option.isNone_iff_eq_none, List.find?_eq_none]
  simp

/-! ## Names that are no source's -/

theorem select_of_unknown {svc : Service σ} (h : ∀ s ∈ svc.sources, s.name?.isSome)
    {servers : List String} (hunknown : ∃ name ∈ servers, name ∉ svc.names) :
    svc.select servers = .error (svc.refusal servers) := by
  by_cases hsources : svc.sources = []
  · simp [select, refusal, hsources]
  · obtain ⟨name, hname, hmissing⟩ := hunknown
    have htest : (fun name => (svc.source? name).isNone) =
        fun name => !svc.names.contains name := by
      funext name
      rw [Bool.eq_iff_iff, isNone_source?_iff h]
      simp
    rw [select_of_isNone hsources ⟨name, hname, (isNone_source?_iff h).2 hmissing⟩, htest, refusal,
      if_neg (by simpa using hsources)]

theorem calls_of_unknown {svc : Service σ} (h : ∀ s ∈ svc.sources, s.name?.isSome)
    {servers : List String} (hunknown : ∃ name ∈ servers, name ∉ svc.names) (query : String)
    (group : Option String) (world : σ) : svc.calls query servers group world = [] := by
  have hnames : svc.noting.names = svc.names := by
    rw [names, names, ← List.zipIdx_map_fst 0 svc.sources, noting, List.map_map, List.map_map]
    rfl
  have hnamed : ∀ s ∈ svc.noting.sources, s.name?.isSome := by
    intro s hs
    obtain ⟨⟨t, n⟩, ht, rfl⟩ := List.mem_map.1 hs
    exact h t (List.fst_mem_of_mem_zipIdx ht)
  rw [calls, search_of_select_error (select_of_unknown hnamed (hnames ▸ hunknown))]

/-! ## Names of sources -/

theorem mem_zipIdx_of_mem_chosen {svc : Service σ} {servers : List String} {s : Source σ × Nat}
    (h : s ∈ svc.chosen servers) : s ∈ svc.sources.zipIdx := by
  unfold chosen at h
  split at h
  · exact h
  · obtain ⟨name, -, hfound⟩ := List.mem_filterMap.1 h
    exact List.mem_reverse.1 (List.mem_of_find?_eq_some hfound)

theorem narrowsTo_chosen {svc : Service σ} (h : svc.DistinctlyNamed) {servers : List String}
    (hne : servers ≠ []) (hknown : ∀ name ∈ servers, name ∈ svc.names) :
    svc.NarrowsTo servers ⟨(svc.chosen servers).map (·.1), svc.pending⟩ := by
  have hsources : (svc.chosen servers).map (·.1) ⊆ svc.sources := by
    intro s hs
    obtain ⟨⟨t, n⟩, ht, rfl⟩ := List.mem_map.1 hs
    exact List.fst_mem_of_mem_zipIdx (mem_zipIdx_of_mem_chosen ht)
  refine ⟨hsources, ?_, rfl⟩
  -- Sources are chosen by their selectors, and listed by their names.
  have hselector : ((svc.chosen servers).map (·.1)).map Source.displayName =
      (svc.chosen servers).map fun s => s.1.selector := by
    rw [List.map_map]
    refine List.map_congr_left fun s hs => (selector_eq_displayName ?_).symm
    exact h.named s.1 (hsources (List.mem_map_of_mem hs))
  rw [names, hselector, chosen, if_neg (by simpa using hne)]
  apply Lookup.map_filterMap_of_found
  · intro name s hfound
    simpa using List.find?_some hfound
  · intro name hname
    obtain ⟨s, hs, hselected⟩ :=
      (mem_names_iff h.named).1 (hknown name (List.mem_eraseDups.1 hname))
    rw [← List.zipIdx_map_fst 0 svc.sources] at hs
    obtain ⟨t, ht, rfl⟩ := List.mem_map.1 hs
    rw [List.find?_isSome]
    exact ⟨t, List.mem_reverse.2 ht, by simpa using hselected⟩

theorem NarrowsTo.unique {svc : Service σ} (h : svc.names.Nodup) {servers : List String}
    {small other : Service σ} (hsmall : svc.NarrowsTo servers small)
    (hother : svc.NarrowsTo servers other) : small = other := by
  have hsources : small.sources = other.sources :=
    Lookup.eq_of_map_eq h hsmall.sources hother.sources (hsmall.names.trans hother.names.symm)
  cases small
  cases other
  cases hsources
  cases hsmall.pending.trans hother.pending.symm
  rfl

theorem sources_ne_nil_of_mem_names {svc : Service σ} {name : String} (h : name ∈ svc.names) :
    svc.sources ≠ [] := by
  rintro hnil
  simp [names, hnil] at h

theorem asked_eq {svc : Service σ} (hne : svc.sources ≠ []) {servers : List String}
    (hvalid : ∀ name ∈ servers, ∃ s ∈ svc.sources, s.selector = name) (query : String)
    (group : Option String) (world : σ) :
    svc.asked query servers group world =
      ((svc.chosen servers).map (·.1)).map fun s => (s, query, group) := by
  rw [asked, calls_eq hne hvalid, List.filterMap_map, List.map_map, ← List.filterMap_eq_map]
  refine List.filterMap_congr fun s hs => ?_
  have hplace : svc.sources[s.2]? = some s.1 :=
    List.mk_mem_zipIdx_iff_getElem?.1 (mem_zipIdx_of_mem_chosen hs)
  simp [hplace]

/-- A search of named sources is the search of the smaller service, without names. -/
theorem search_of_narrowsTo {svc : Service σ} (h : svc.DistinctlyNamed) {servers : List String}
    (hne : servers ≠ []) (hknown : ∀ name ∈ servers, name ∈ svc.names) {small : Service σ}
    (hsmall : svc.NarrowsTo servers small) (query : String) (group : Option String) (world : σ) :
    svc.search query servers group world = small.search query [] group world ∧
      svc.asked query servers group world = small.asked query [] group world := by
  obtain rfl := hsmall.unique h.distinct (narrowsTo_chosen h hne hknown)
  obtain ⟨name, hname⟩ := List.exists_mem_of_ne_nil servers hne
  have hvalid : ∀ name ∈ servers, ∃ s ∈ svc.sources, s.selector = name :=
    fun name hname => (mem_names_iff h.named).1 (hknown name hname)
  have hsources := sources_ne_nil_of_mem_names (hknown name hname)
  have hsome : (svc.chosen servers).map (·.1) ≠ [] := by
    intro hnil
    have hnames := (narrowsTo_chosen h hne hknown).names
    rw [names, hnil] at hnames
    exact Lookup.eraseDups_ne_nil hne hnames.symm
  have hall : select ⟨(svc.chosen servers).map (·.1), svc.pending⟩ [] =
      .ok ((svc.chosen servers).map (·.1)) := by
    simpa [select] using hsome
  have hchosen : chosen ⟨(svc.chosen servers).map (·.1), svc.pending⟩ [] =
      ((svc.chosen servers).map (·.1)).zipIdx := rfl
  constructor
  · rw [search_eq_conclude (select_eq_ok hsources hvalid), search_eq_conclude hall]
  · rw [asked_eq hsources hvalid, asked_eq hsome (by simp), hchosen, List.zipIdx_map_fst]

theorem narrowsTo_self {svc : Service σ} (h : svc.DistinctlyNamed) :
    svc.NarrowsTo svc.names svc :=
  ⟨List.Subset.refl _, (Lookup.eraseDups_of_nodup h.distinct).symm, rfl⟩

/--
A search of named sources does what a search of the smaller service does that has only those
sources, each once in the order of the names.

There is one such service if every name is a source's; the answer and the sources that are asked
are then the same, so names that are repeated make no difference, nor does naming all sources.  A
name that is no source's fails the search, which asks no source and leaves the collector alone.
-/
theorem search_selected {svc : Service σ} (h : svc.DistinctlyNamed) {servers : List String}
    (hne : servers ≠ []) (query : String) (group : Option String) (world : σ) :
    let answer := svc.search query servers group world
    let asked := svc.asked query servers group world
    ((∃ name ∈ servers, name ∉ svc.names) →
      answer = ⟨.error (svc.refusal servers), svc.pending, [], world⟩ ∧
        svc.calls query servers group world = []) ∧
    ((∀ name ∈ servers, name ∈ svc.names) →
      (∃ small, svc.NarrowsTo servers small) ∧
      (∀ small, svc.NarrowsTo servers small →
        answer = small.search query [] group world ∧
          asked = small.asked query [] group world) ∧
      ∀ again : List String, again.eraseDups = servers.eraseDups →
        svc.search query again group world = answer ∧
          svc.asked query again group world = asked) ∧
    svc.search query svc.names group world = svc.search query [] group world ∧
      svc.asked query svc.names group world = svc.asked query [] group world := by
  intro answer asked
  refine ⟨?_, ?_, ?_⟩
  · intro hunknown
    exact ⟨search_of_select_error (select_of_unknown h.named hunknown) query group world,
      calls_of_unknown h.named hunknown query group world⟩
  · intro hknown
    have hsmall := narrowsTo_chosen h hne hknown
    have hanswer := search_of_narrowsTo h hne hknown hsmall query group world
    refine ⟨⟨_, hsmall⟩, fun small => ?_, fun again hagain => ?_⟩
    · intro hnarrows
      exact search_of_narrowsTo h hne hknown hnarrows query group world
    · have hsame : ∀ name, name ∈ again ↔ name ∈ servers := by
        intro name
        rw [← List.mem_eraseDups, hagain, List.mem_eraseDups]
      have hne' : again ≠ [] := by
        obtain ⟨name, hname⟩ := List.exists_mem_of_ne_nil servers hne
        exact List.ne_nil_of_mem ((hsame name).2 hname)
      have hnarrows : svc.NarrowsTo again _ :=
        ⟨hsmall.sources, hsmall.names.trans hagain.symm, hsmall.pending⟩
      obtain ⟨hsearch, hasked⟩ := search_of_narrowsTo h hne'
        (fun name hname => hknown name ((hsame name).1 hname)) hnarrows query group world
      exact ⟨hsearch.trans hanswer.1.symm, hasked.trans hanswer.2.symm⟩
  · by_cases hnames : svc.names = []
    · rw [hnames]
      exact ⟨rfl, rfl⟩
    · exact search_of_narrowsTo h hnames (fun _ hname => hname) (narrowsTo_self h) query group world

/-- The sources of three servers, and a message that was left in the collector. -/
def waitingService : Service Unit :=
  { tiedService with pending := some ["old"] }

/-- The service that is left when the last source and the one before it are named. -/
def lastService : Service Unit :=
  { sources := [steady "c" (.ok [scoredItem "c" 1 '0']), steady "b" (.error "down")]
    pending := some ["old"] }

theorem search_selected_repeated :
    waitingService.DistinctlyNamed ∧ ["c", "b", "c"] ≠ [] ∧ ["c", "d"] ≠ [] ∧
    waitingService.NarrowsTo ["c", "b", "c"] lastService ∧
    waitingService.search "x" ["c", "b", "c"] none () = lastService.search "x" [] none () ∧
    waitingService.search "x" ["c", "b"] none () =
      waitingService.search "x" ["c", "b", "c"] none () ∧
    waitingService.search "x" ["c", "d"] none () =
      ⟨.error (.unknownServers ["d"]), some ["old"], [], ()⟩ := by
  have hnames : waitingService.names = ["a", "b", "c"] := rfl
  have h : waitingService.DistinctlyNamed := by
    refine ⟨?_, by simp [hnames]⟩
    simp [waitingService, tiedService, steady]
  have hknown : ∀ name ∈ ["c", "b", "c"], name ∈ waitingService.names := by
    simp [hnames]
  have hsmall : waitingService.NarrowsTo ["c", "b", "c"] lastService := by
    refine ⟨?_, ?_, rfl⟩
    · simp [waitingService, tiedService, lastService]
    · decide
  have hrefusal : waitingService.refusal ["c", "d"] = .unknownServers ["d"] := by decide
  obtain ⟨-, hselected, -⟩ := search_selected h (List.cons_ne_nil "c" ["b", "c"]) "x" none ()
  obtain ⟨-, hanswer, hagain⟩ := hselected hknown
  obtain ⟨hunknown, -⟩ := search_selected h (List.cons_ne_nil "c" ["d"]) "x" none ()
  refine ⟨h, List.cons_ne_nil _ _, List.cons_ne_nil _ _, hsmall, (hanswer _ hsmall).1,
    (hagain ["c", "b"] (by decide)).1, ?_⟩
  rw [(hunknown ⟨"d", by simp, by simp [hnames]⟩).1, hrefusal]
  rfl

end IndexedMail.Service
