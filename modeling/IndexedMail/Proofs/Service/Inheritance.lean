import IndexedMail.Proofs.Service.Answering
import IndexedMail.Proofs.Settings.Accepted
import IndexedMail.Proofs.Settings.Layering

/-!
# What children inherit

The environment of a child is that of its parent below the variables that the entry of its server
names, and messages are not translated unless that entry has it otherwise.  In a search of several
servers each child has the environment of its own server.
-/

namespace IndexedMail

namespace Entries

variable {α β : Type} [BEq α] [LawfulBEq α] {entries : List (α × β)}

theorem get?_cons_self (key : α) (value : β) (rest : List (α × β)) :
    get? ((key, value) :: rest) key = some value := by
  simp [get?]

theorem get?_cons_of_ne {key other : α} (h : other ≠ key) (value : β) (rest : List (α × β)) :
    get? ((other, value) :: rest) key = get? rest key := by
  simp [get?, h]

theorem get?_eq_none_iff {key : α} : get? entries key = none ↔ key ∉ keys entries := by
  rw [get?, Option.map_eq_none_iff, List.find?_eq_none]
  simp only [keys, List.mem_map, not_exists, not_and, beq_iff_eq]

theorem isSome_get?_iff {key : α} : (get? entries key).isSome ↔ key ∈ keys entries := by
  rw [Option.isSome_iff_ne_none, ne_eq, get?_eq_none_iff, not_not]

/-- Where each key stands once, the last entry of a key is the first. -/
theorem get?_reverse (h : (keys entries).Nodup) (key : α) :
    get? entries.reverse key = get? entries key := by
  induction entries with
  | nil => rfl
  | cons entry rest ih =>
      obtain ⟨k, v⟩ := entry
      obtain ⟨hk, hrest⟩ := List.nodup_cons.1 h
      rw [List.reverse_cons, get?_append, ih hrest]
      by_cases heq : k = key
      · subst heq
        rw [get?_eq_none_iff.2 hk, Option.none_or, get?_cons_self, get?_cons_self]
      · rw [get?_cons_of_ne heq, get?_cons_of_ne heq]
        exact Option.or_none

theorem nodup_keys_insert (h : (keys entries).Nodup) (key : α) (value : β) :
    (keys (insert key value entries)).Nodup := by
  by_cases hkey : key ∈ keys entries
  · rwa [keys_insert_of_mem key value entries hkey]
  · rw [keys_insert_of_not_mem key value entries hkey]
    exact List.nodup_append.2 ⟨h, List.nodup_singleton key, by
      rintro a ha b hb rfl
      exact hkey (List.mem_singleton.1 hb ▸ ha)⟩

theorem nodup_keys_update (h : (keys entries).Nodup) (overrides : List (α × β)) :
    (keys (update entries overrides)).Nodup := by
  induction overrides generalizing entries with
  | nil => exact h
  | cons entry rest ih =>
      obtain ⟨key, value⟩ := entry
      rw [update_cons]
      exact ih (nodup_keys_insert h key value)

end Entries

namespace Settings

/-! ## Variables of a server -/

/-- The variables that the entry of a server names, each with its scalar. -/
def namedVariables (fields : Section) : Section :=
  match Yaml.field? fields "env" with
  | some (.mapping entries) => entries
  | _ => []

/-- An entry of a settings file is the variable of a name, with the scalar as text for its value. -/
structure Spells (entry : Yaml × Yaml) (pinned : String × String) : Prop where
  name : entry.1 = .string pinned.1
  value : entry.2.scalarText? = some (.ok pinned.2)

theorem spells_of_scalarEntries {key : String} {entries : Section}
    {configured : List (String × String)} (h : scalarEntries key entries = .ok configured) :
    List.Forall₂ Spells entries configured := by
  induction entries generalizing configured with
  | nil =>
      cases h
      exact .nil
  | cons entry rest ih =>
      obtain ⟨k, value⟩ := entry
      cases k with
      | string name =>
          rw [scalarEntries] at h
          split at h
          · cases h
          · cases h
          · rename_i text htext
            cases hrest : scalarEntries key rest with
            | error err => simp [hrest, Except.map] at h
            | ok others =>
                simp only [hrest, Except.map, Except.ok.injEq] at h
                subst h
                exact .cons ⟨rfl, htext⟩ (ih hrest)
      | _ => cases h

theorem keys_of_spells {entries : Section} {configured : List (String × String)}
    (h : List.Forall₂ Spells entries configured) :
    Entries.keys entries = (Entries.keys configured).map Yaml.string := by
  induction h with
  | nil => rfl
  | cons hfirst _ ih =>
      simp only [Entries.keys, List.map_cons] at ih ⊢
      rw [hfirst.name, ih]

theorem get?_of_spells {entries : Section} {configured : List (String × String)}
    (h : List.Forall₂ Spells entries configured) {name : String} {value : Yaml}
    (hvalue : Yaml.field? entries name = some value) :
    ∃ text, value.scalarText? = some (.ok text) ∧ Entries.get? configured name = some text := by
  induction h with
  | nil => cases hvalue
  | @cons entry pinned _ _ hfirst _ ih =>
      obtain ⟨key, scalar⟩ := entry
      obtain ⟨other, text⟩ := pinned
      obtain ⟨hkey, htext⟩ := hfirst
      obtain rfl : key = Yaml.string other := hkey
      by_cases hname : other = name
      · subst hname
        rw [Yaml.field?_cons_self] at hvalue
        obtain rfl := Option.some.inj hvalue
        exact ⟨text, htext, Entries.get?_cons_self _ _ _⟩
      · rw [Yaml.field?_cons_of_ne (fun heq => hname (Yaml.string.inj heq))] at hvalue
        rw [Entries.get?_cons_of_ne hname]
        exact ih hvalue

theorem get?_of_spells_none {entries : Section} {configured : List (String × String)}
    (h : List.Forall₂ Spells entries configured) {name : String}
    (hnone : Yaml.field? entries name = none) : Entries.get? configured name = none := by
  rw [Yaml.field?_eq_none_iff, keys_of_spells h] at hnone
  rw [Entries.get?_eq_none_iff]
  exact fun hmem => hnone (List.mem_map_of_mem hmem)

theorem isSome_get?_of_spells {entries : Section} {configured : List (String × String)}
    (h : List.Forall₂ Spells entries configured) (name : String) :
    (Entries.get? configured name).isSome = (Yaml.field? entries name).isSome := by
  cases hfield : Yaml.field? entries name with
  | none =>
      rw [get?_of_spells_none h hfield]
      rfl
  | some value =>
      obtain ⟨text, -, hfound⟩ := get?_of_spells h hfield
      rw [hfound]
      rfl

/-- The variables of a server are the standing ones below those that its entry names. -/
theorem exists_spells_of_readPinned {fields : Section} {key : String}
    {pinned : List (String × String)} (h : Server.readPinned fields key = .ok pinned) :
    ∃ configured, List.Forall₂ Spells (namedVariables fields) configured ∧
      pinned = Entries.update Server.defaultPinned configured := by
  obtain ⟨configured, hconfigured, hpinned⟩ := exists_of_bind_eq_ok h
  -- A section that is missing or null is read like an empty one.
  have hentries : scalarEntries s!"{key}.env" (namedVariables fields) = .ok configured := by
    unfold optional at hconfigured
    unfold namedVariables
    cases hfield : Yaml.field? fields "env" with
    | none =>
        rw [hfield] at hconfigured
        exact hconfigured
    | some value =>
        rw [hfield] at hconfigured
        cases value with
        | null => exact hconfigured
        | mapping entries => exact hconfigured
        | _ => cases hconfigured
  exact ⟨configured, spells_of_scalarEntries hentries, (Except.ok.inj hpinned).symm⟩

end Settings

namespace Engine

open Settings (Section namedVariables)

/--
An environment is that of a parent below the variables that the entry of a server names, with
messages that are not translated unless the entry has it otherwise.
-/
structure Inherits (fields : Section) (parent env : Environment) : Prop where
  named : ∀ name value, Yaml.field? (namedVariables fields) name = some value →
    ∃ text, value.scalarText? = some (.ok text) ∧ env.get? name = some text
  locale : Yaml.field? (namedVariables fields) "LC_MESSAGES" = none →
    env.get? "LC_MESSAGES" = some "C"
  inherited : ∀ name, Yaml.field? (namedVariables fields) name = none → name ≠ "LC_MESSAGES" →
    env.get? name = parent.get? name
  names : ∀ name, name ∈ Entries.keys env.pairs ↔
    (Yaml.field? (namedVariables fields) name).isSome ∨ name = "LC_MESSAGES" ∨
      name ∈ Entries.keys parent.pairs
  once : (Entries.keys parent.pairs).Nodup → (Entries.keys env.pairs).Nodup

theorem get?_override (parent : Environment) {pinned : List (String × String)}
    (h : (Entries.keys pinned).Nodup) (name : String) :
    (parent.override pinned).get? name = (Entries.get? pinned name).or (parent.get? name) := by
  unfold Environment.get? Environment.override
  rw [Entries.get?_update, Entries.get?_reverse h]

/-- What a child finds under a name: the configured value, the standing one, or its parent's. -/
theorem get?_override_update (parent : Environment) {configured : List (String × String)}
    (h : (Entries.keys configured).Nodup) (name : String) :
    (parent.override (Entries.update Settings.Server.defaultPinned configured)).get? name =
      (Entries.get? configured name).or
        ((Entries.get? Settings.Server.defaultPinned name).or (parent.get? name)) := by
  have hstanding : (Entries.keys Settings.Server.defaultPinned).Nodup :=
    List.nodup_singleton "LC_MESSAGES"
  rw [get?_override parent (Entries.nodup_keys_update hstanding configured), Entries.get?_update,
    Entries.get?_reverse h, Option.or_assoc]

theorem inherits_of_readPinned {fields : Section} {key : String} {pinned : List (String × String)}
    (hread : Settings.Server.readPinned fields key = .ok pinned)
    (hkeys : (Entries.keys (namedVariables fields)).Nodup) (parent : Environment) :
    Inherits fields parent (parent.override pinned) := by
  obtain ⟨configured, hspells, rfl⟩ := Settings.exists_spells_of_readPinned hread
  have hnodup : (Entries.keys configured).Nodup := by
    rw [Settings.keys_of_spells hspells] at hkeys
    exact hkeys.of_map _
  have hget := get?_override_update parent hnodup
  have hother : ∀ {name : String}, name ≠ "LC_MESSAGES" →
      Entries.get? Settings.Server.defaultPinned name = none :=
    fun hname => Entries.get?_cons_of_ne (Ne.symm hname) "C" []
  refine ⟨?_, ?_, ?_, ?_, ?_⟩
  · intro name value hvalue
    obtain ⟨text, htext, hfound⟩ := Settings.get?_of_spells hspells hvalue
    exact ⟨text, htext, by rw [hget, hfound, Option.some_or]⟩
  · intro hnone
    rw [hget, Settings.get?_of_spells_none hspells hnone]
    rfl
  · intro name hnone hname
    rw [hget, Settings.get?_of_spells_none hspells hnone, hother hname, Option.none_or,
      Option.none_or]
  · intro name
    have hstanding : (Entries.get? Settings.Server.defaultPinned name).isSome = true ↔
        name = "LC_MESSAGES" := by
      rw [Entries.isSome_get?_iff]
      exact List.mem_singleton
    rw [← Entries.isSome_get?_iff, ← Entries.isSome_get?_iff, ← hstanding,
      ← Settings.isSome_get?_of_spells hspells name]
    have hsome := congrArg Option.isSome (hget name)
    rw [Option.isSome_or, Option.isSome_or] at hsome
    rw [← Bool.or_eq_true, ← Bool.or_eq_true]
    exact Bool.eq_iff_iff.1 hsome
  · exact fun h => Entries.nodup_keys_update h _

variable {parent : Environment} {s : Settings.Server} {query : String} {words : List String}

theorem started_search (h : Query.tokenize query = .ok words) (group : Option String)
    (script : Script) :
    ((source Script.run parent s).search query group script).2.started =
      script.started ++
        if Writable s then [invocation parent s (Query.Criteria.ofWords words)] else [] := by
  rw [search_source]
  split
  · rename_i hs
    rw [search_of_writable h hs]
    rfl
  · rename_i hs
    rw [search_of_not_writable h hs, List.append_nil]

end Engine

namespace Service

open Engine
open Settings (Server Section namedVariables)

variable {parent : Environment} {query : String} {words : List String}

/-- Of servers asked in turn, each with a limit that can be written starts its own child. -/
theorem started_worldAfter (h : Query.tokenize query = .ok words) (group : Option String)
    (servers : List Server) (script : Script) :
    (worldAfter query group (servers.map (source Script.run parent)) script).started =
      script.started ++ (servers.filter (Writable ·)).map
        (invocation parent · (Query.Criteria.ofWords words)) := by
  induction servers generalizing script with
  | nil => exact (List.append_nil _).symm
  | cons s rest ih =>
      have hworld : worldAfter query group ((s :: rest).map (source Script.run parent)) script =
          worldAfter query group (rest.map (source Script.run parent))
            ((source Script.run parent s).search query group script).2 := rfl
      rw [hworld, ih, started_search h, List.append_assoc]
      by_cases hs : Writable s
      · simp [hs]
      · simp [hs]

/--
The environment of the child that searches a server, for an entry that is read as that server.

It is the parent's below the variables that the entry names, each once, as text, with messages not
translated unless the entry has it otherwise.  A search starts this child if the limit of the server
can be written, and else none; and a service for any accepted settings starts for each server that
it searches the child which that server has by itself.
-/
theorem child_inherits {e : Environment} {fields : Section} {key : String} {s : Server}
    (hread : Server.read e (.mapping fields) key = .ok s)
    (hkeys : (Entries.keys (namedVariables fields)).Nodup)
    (hwords : Query.tokenize query = .ok words) (parent : Environment) :
    let child := fun t => invocation parent t (Query.Criteria.ofWords words)
    (∃ env, (child s).environment = some env ∧ Inherits fields parent env) ∧
    (∀ group script, ((source Script.run parent s).search query group script).2.started =
      script.started ++ if Writable s then [child s] else []) ∧
    ∀ e' root settings, Settings.read e' root = .ok settings → ∀ names,
      (∀ name ∈ names, ∃ t ∈ settings.servers, t.name = name) →
      ∃ svc, ofSettings Script.run parent settings = .ok svc ∧ ∀ group script,
        (svc.search query names group script).world.started =
          script.started ++ ((settings.chosen names).filter (Writable ·)).map child := by
  intro child
  have hinherits := inherits_of_readPinned (Settings.readPinned_of_read hread) hkeys parent
  refine ⟨⟨_, rfl, hinherits⟩, started_search hwords, ?_⟩
  intro e' root settings haccepted names hnames
  have hwell := Settings.wellFormed_of_read haccepted
  have hselect := select_ofSettings parent hwell (some []) hnames
  refine ⟨_, ofSettings_eq_ok hwell, ?_⟩
  intro group script
  rw [(search_of_select hselect query group script).1]
  exact started_worldAfter hwords group (settings.chosen names) script

/-! ## A server with variables of its own -/

/-- The entry of a server that pins two variables, one of them by a truth value. -/
def pinnedFields : Section :=
  [(.string "name", .string "s"), (.string "index_dir", .string "/i"),
    (.string "remove_prefix", .string "/m/"),
    (.string "env", .mapping [(.string "LANG", .string "C"), (.string "TRACE", .bool true)])]

def pinnedServer : Server :=
  { plainServer "s" with pinned := [("LC_MESSAGES", "C"), ("LANG", "C"), ("TRACE", "True")] }

/-- A parent with messages in a language. -/
def germanParent : Environment :=
  ⟨[("LANG", "de_DE"), ("LC_MESSAGES", "de_DE"), ("HOME", "/h")]⟩

theorem child_inherits_pinned :
    Server.read ⟨[]⟩ (.mapping pinnedFields) "servers[0]" = .ok pinnedServer ∧
    (Entries.keys (namedVariables pinnedFields)).Nodup ∧ Query.tokenize "x" = .ok ["x"] ∧
    (∃ env, (invocation germanParent pinnedServer (Query.Criteria.ofWords ["x"])).environment =
      some env ∧ Inherits pinnedFields germanParent env) ∧
    ((source Script.run germanParent pinnedServer).search "x" none ⟨[], []⟩).2.started =
      [invocation germanParent pinnedServer (Query.Criteria.ofWords ["x"])] := by
  have hread : Server.read ⟨[]⟩ (.mapping pinnedFields) "servers[0]" = .ok pinnedServer := rfl
  have hkeys : (Entries.keys (namedVariables pinnedFields)).Nodup := by
    have hnamed : Entries.keys (namedVariables pinnedFields) =
      ["LANG", "TRACE"].map Yaml.string := rfl
    rw [hnamed]
    exact List.Nodup.map (fun _ _ => Yaml.string.inj) (by decide)
  have hwords : Query.tokenize "x" = .ok ["x"] := by decide
  obtain ⟨hinherits, hstarted, -⟩ := child_inherits hread hkeys hwords germanParent
  have hwritable : Writable pinnedServer := writable_plainServer "s"
  refine ⟨hread, hkeys, hwords, hinherits, ?_⟩
  rw [hstarted, if_pos hwritable]
  rfl

end Service

end IndexedMail
