import IndexedMail.Settings.Basic
import Mathlib.Data.List.Basic

/-!
# What the checks of settings ask for

The checks go through the settings in a fixed order and stop at the first fault.  Here is what
they ask for, without an order: settings pass exactly if all of it holds.
-/

namespace IndexedMail.Settings

open Listing (Backend)

/-- What is asked of a server by itself. -/
structure Server.Sound (s : Server) : Prop where
  name : s.name ≠ ""
  engine : s.engine ∈ engines
  program : Text.isAllBlank s.program = false
  indexDir : Text.isAllBlank s.indexDir = false
  limit : s.maxResults ≠ 0
  backend : ∃ b : Backend, s.backend = b.name

theorem eq_name_of_ofName? {name : String} {b : Backend} (h : Backend.ofName? name = some b) :
    name = b.name := by
  have := List.find?_some h
  exact (by simpa using this : b.name = name).symm

theorem isSome_ofName?_iff {name : String} :
    (Backend.ofName? name).isSome ↔ ∃ b : Backend, name = b.name := by
  constructor
  · intro h
    obtain ⟨b, hb⟩ := Option.isSome_iff_exists.1 h
    exact ⟨b, eq_name_of_ofName? hb⟩
  · rintro ⟨b, rfl⟩
    rw [Backend.ofName?_name]
    rfl

namespace Server

/-- A server without a fault is sound, and its name is none of those before it. -/
theorem fault?_eq_none_iff {before : List String} {s : Server} :
    fault? before s = none ↔ s.name ∉ before ∧ s.Sound := by
  constructor
  · intro h
    unfold fault? at h
    split at h; · cases h
    rename_i hname
    split at h; · cases h
    rename_i hbefore
    split at h; · cases h
    rename_i hengine
    split at h; · cases h
    rename_i hprogram
    split at h; · cases h
    rename_i hindex
    split at h; · cases h
    rename_i hlimit
    split at h; · cases h
    rename_i hbackend
    refine ⟨by simpa using hbefore, ?_⟩
    exact
      { name := by simpa using hname
        engine := by simpa using hengine
        program := by simpa using hprogram
        indexDir := by simpa using hindex
        limit := by simpa using hlimit
        backend := isSome_ofName?_iff.1 (by simpa [Option.isSome_iff_ne_none] using hbackend) }
  · rintro ⟨hbefore, h⟩
    have hbackend : (Backend.ofName? s.backend).isNone = false := by
      simpa using isSome_ofName?_iff.2 h.backend
    simp [fault?, h.name, hbefore, h.engine, h.program, h.indexDir, h.limit, hbackend]

/-- No server has a fault; the induction collects the names that have gone before. -/
theorem firstFault?_eq_none_iff {before : List String} {index : Nat} {servers : List Server} :
    firstFault? before index servers = none ↔
      (servers.map name).Nodup ∧ (∀ s ∈ servers, s.name ∉ before) ∧ ∀ s ∈ servers, s.Sound := by
  induction servers generalizing before index with
  | nil => simp [firstFault?]
  | cons s rest ih =>
      rw [firstFault?]
      cases hfault : fault? before s with
      | some fault =>
          have hnot : ¬ (s.name ∉ before ∧ s.Sound) := by
            rw [← fault?_eq_none_iff, hfault]
            exact Option.some_ne_none fault
          simp only [reduceCtorEq, List.forall_mem_cons, false_iff]
          rintro ⟨-, ⟨hbefore, -⟩, hsound, -⟩
          exact hnot ⟨hbefore, hsound⟩
      | none =>
          obtain ⟨hbefore, hsound⟩ := fault?_eq_none_iff.1 hfault
          rw [ih, List.map_cons, List.nodup_cons, List.forall_mem_cons, List.forall_mem_cons]
          simp only [List.mem_cons, not_or, List.mem_map, not_exists, not_and]
          constructor
          · rintro ⟨hnodup, hothers, hrest⟩
            exact ⟨⟨fun t ht => (hothers t ht).1, hnodup⟩, ⟨hbefore, fun t ht => (hothers t ht).2⟩,
              hsound, hrest⟩
          · rintro ⟨⟨hfirst, hnodup⟩, ⟨-, hothers⟩, -, hrest⟩
            exact ⟨hnodup, fun t ht => ⟨hfirst t ht, hothers t ht⟩, hrest⟩

end Server

theorem checkServers_eq_ok_iff {servers : List Server} :
    checkServers servers = .ok () ↔
      servers ≠ [] ∧ (servers.map Server.name).Nodup ∧ ∀ s ∈ servers, s.Sound := by
  unfold checkServers
  cases servers with
  | nil => simp
  | cons s rest =>
      have hfault := @Server.firstFault?_eq_none_iff [] 0 (s :: rest)
      simp only [List.isEmpty_cons, Bool.false_eq_true, if_false]
      cases hfirst : Server.firstFault? [] 0 (s :: rest) with
      | none => simpa [hfirst] using hfault
      | some found => simpa [hfirst] using hfault

theorem checkLog_eq_ok_iff {l : Log} :
    checkLog l = .ok () ↔ l.level ∈ Log.levels ∧ Text.isAllBlank l.dir = false := by
  unfold checkLog
  by_cases hlevel : l.level ∈ Log.levels <;> cases hdir : Text.isAllBlank l.dir <;>
    simp [hlevel]

namespace Output

theorem unknownFormats_eq_nil_iff {o : Output} :
    o.unknownFormats = [] ↔ ∀ f ∈ o.formats, f ∈ knownFormats := by
  rw [← List.length_eq_zero_iff, unknownFormats, List.length_mergeSort, List.length_eq_zero_iff]
  cases hfilter : o.formats.filter fun f => !knownFormats.contains f with
  | nil => simpa using hfilter
  | cons f rest =>
      have hmem : f ∈ o.formats.filter fun f => !knownFormats.contains f :=
        hfilter ▸ List.mem_cons_self
      have hf : f ∈ o.formats ∧ f ∉ knownFormats := by simpa using hmem
      simp only [List.eraseDups_cons, reduceCtorEq, false_iff]
      exact fun hall => hf.2 (hall f hf.1)

end Output

theorem checkOutput_eq_ok_iff {o : Output} :
    checkOutput o = .ok () ↔
      Text.isAllBlank o.baseDir = false ∧ o.formats ≠ [] ∧
        ∀ f ∈ o.formats, f ∈ Output.knownFormats := by
  unfold checkOutput
  rw [← Output.unknownFormats_eq_nil_iff]
  cases hdir : Text.isAllBlank o.baseDir <;> cases hformats : o.formats <;>
    cases hunknown : o.unknownFormats <;> simp

/-- What is asked of settings as a whole. -/
structure Sound (s : Settings) : Prop where
  level : s.log.level ∈ Log.levels
  logDir : Text.isAllBlank s.log.dir = false
  nonempty : s.servers ≠ []
  names : (s.servers.map Server.name).Nodup
  servers : ∀ t ∈ s.servers, t.Sound
  baseDir : Text.isAllBlank s.output.baseDir = false
  formats : s.output.formats ≠ []
  known : ∀ f ∈ s.output.formats, f ∈ Output.knownFormats

theorem exists_of_bind_eq_ok {ε α β : Type} {first : Except ε α} {next : α → Except ε β} {b : β}
    (h : (first >>= next) = .ok b) : ∃ a, first = .ok a ∧ next a = .ok b := by
  cases first with
  | error e => cases h
  | ok a => exact ⟨a, rfl, h⟩

theorem check_eq_ok_iff {s : Settings} : s.check = .ok () ↔ s.Sound := by
  constructor
  · intro h
    obtain ⟨_, hlog, h⟩ := exists_of_bind_eq_ok h
    obtain ⟨_, hservers, houtput⟩ := exists_of_bind_eq_ok h
    obtain ⟨hlevel, hlogDir⟩ := checkLog_eq_ok_iff.1 hlog
    obtain ⟨hnonempty, hnames, hsound⟩ := checkServers_eq_ok_iff.1 hservers
    obtain ⟨hbaseDir, hformats, hknown⟩ := checkOutput_eq_ok_iff.1 houtput
    exact ⟨hlevel, hlogDir, hnonempty, hnames, hsound, hbaseDir, hformats, hknown⟩
  · intro h
    have hlog := checkLog_eq_ok_iff.2 ⟨h.level, h.logDir⟩
    have hservers := checkServers_eq_ok_iff.2 ⟨h.nonempty, h.names, h.servers⟩
    have houtput := checkOutput_eq_ok_iff.2 ⟨h.baseDir, h.formats, h.known⟩
    rw [check, hlog, hservers]
    exact houtput

theorem read_eq_ok_iff {e : Environment} {root : Section} {s : Settings} :
    read e root = .ok s ↔ readSections e root = .ok s ∧ s.Sound := by
  rw [← check_eq_ok_iff]
  constructor
  · intro h
    refine ⟨?_, check_of_read h⟩
    unfold read at h
    split at h
    · cases h
    · rename_i settings hsections
      split at h
      · cases h
      · cases h
        exact hsections
  · rintro ⟨hsections, hcheck⟩
    simp only [read, hsections, hcheck]

end IndexedMail.Settings
