import IndexedMail.Proofs.Lookup
import IndexedMail.Proofs.Settings.Checks
import Mathlib.Data.List.Nodup
import Mathlib.Data.List.Pairwise

/-!
# Servers of accepted settings

The servers of settings that are accepted have different names, engines that there are and kinds
of mailbox that there are; so a name selects one server.
-/

namespace IndexedMail.Settings

open Listing (Backend)

/-- What is known of the servers of accepted settings. -/
structure WellFormed (servers : List Server) : Prop where
  nonempty : servers ≠ []
  names : (servers.map Server.name).Nodup
  engine : ∀ s ∈ servers, engines.contains s.engine = true
  backend : ∀ s ∈ servers, ∃ b : Backend, s.backend = b.name

theorem Sound.wellFormed {s : Settings} (h : s.Sound) : WellFormed s.servers :=
  { nonempty := h.nonempty
    names := h.names
    engine := fun t ht => by simpa using (h.servers t ht).engine
    backend := fun t ht => (h.servers t ht).backend }

theorem wellFormed_of_read {e : Environment} {root : Section} {s : Settings}
    (h : read e root = .ok s) : WellFormed s.servers :=
  (read_eq_ok_iff.1 h).2.wellFormed

/-! ## Selections -/

/-- The servers that names select: all if there are no names, and else each once. -/
def chosen (s : Settings) (names : List String) : List Server :=
  if names.isEmpty then s.servers else names.eraseDups.filterMap s.server?

theorem find?_name_eq_some_iff {servers : List Server} (h : (servers.map Server.name).Nodup)
    {name : String} {t : Server} :
    servers.find? (fun s => s.name == name) = some t ↔ t ∈ servers ∧ t.name = name := by
  constructor
  · intro hfound
    exact ⟨List.mem_of_find?_eq_some hfound, by simpa using List.find?_some hfound⟩
  · rintro ⟨ht, rfl⟩
    cases hfound : servers.find? fun s => s.name == t.name with
    | none => simpa using List.find?_eq_none.1 hfound t ht
    | some u =>
        have hname : u.name = t.name := by simpa using List.find?_some hfound
        rw [List.inj_on_of_nodup_map h (List.mem_of_find?_eq_some hfound) ht hname]

/-- As names differ, the last server of a name is the first. -/
theorem find?_name_reverse {servers : List Server} (h : (servers.map Server.name).Nodup)
    (name : String) :
    servers.reverse.find? (fun s => s.name == name) = servers.find? fun s => s.name == name := by
  have hreverse : (servers.reverse.map Server.name).Nodup := by
    rwa [List.map_reverse, List.nodup_reverse]
  ext t
  rw [find?_name_eq_some_iff h, find?_name_eq_some_iff hreverse, List.mem_reverse]

theorem isSome_server?_iff {s : Settings} {name : String} :
    (s.server? name).isSome ↔ ∃ t ∈ s.servers, t.name = name := by
  simp [server?, List.find?_isSome]

theorem chosen_subset {s : Settings} {names : List String} : s.chosen names ⊆ s.servers := by
  intro t ht
  unfold chosen at ht
  split at ht
  · exact ht
  · obtain ⟨name, -, hname⟩ := List.mem_filterMap.1 ht
    exact List.mem_of_find?_eq_some hname

/-- Names that are configured select as many servers, in their order. -/
theorem map_name_filterMap_server? {s : Settings} {names : List String}
    (h : ∀ name ∈ names, ∃ t ∈ s.servers, t.name = name) :
    (names.filterMap s.server?).map Server.name = names :=
  Lookup.map_filterMap_of_found server?_name fun name hname =>
    isSome_server?_iff.2 (h name hname)

theorem nodup_name_chosen {s : Settings} (hs : WellFormed s.servers) {names : List String}
    (h : ∀ name ∈ names, ∃ t ∈ s.servers, t.name = name) :
    ((s.chosen names).map Server.name).Nodup := by
  unfold chosen
  split
  · exact hs.names
  · rw [map_name_filterMap_server? fun name hname => h name (by simpa using hname)]
    exact Lookup.nodup_eraseDups names

theorem chosen_ne_nil {s : Settings} (hs : WellFormed s.servers) {names : List String}
    (h : ∀ name ∈ names, ∃ t ∈ s.servers, t.name = name) : s.chosen names ≠ [] := by
  unfold chosen
  split
  · exact hs.nonempty
  · rename_i hnames
    intro hnil
    have hmap : (names.eraseDups.filterMap s.server?).map Server.name = names.eraseDups :=
      map_name_filterMap_server? fun name hname => h name (by simpa using hname)
    rw [hnil] at hmap
    exact Lookup.eraseDups_ne_nil (by simpa using hnames) hmap.symm

end IndexedMail.Settings
