import IndexedMail.Proofs.Listing.FileName
import IndexedMail.Proofs.Service.Isolation
import IndexedMail.Report.Writer

/-!
# Accepted settings can be used

Settings are refused, or everything that is made of them exists: a service with a source for every
server, and a writer for every format.  Only an article number may still be too long to be read.
-/

namespace IndexedMail

open Listing (Backend articleDigits? articleNumber)
open Text.Numeral (maxDigits)

namespace Report.Writer

/-- The output format that a writer is for. -/
def format : Writer → String
  | console => "console"
  | file _ _ => "json"

/-- There is a writer for every format that is known and asked for, and for no other. -/
theorem map_format_ofFormats (formats : List String) (baseDir : String) :
    (ofFormats formats baseDir).map format =
      Settings.Output.knownFormats.filter formats.contains := by
  unfold ofFormats Settings.Output.knownFormats
  by_cases hconsole : "console" ∈ formats <;> by_cases hjson : "json" ∈ formats <;>
    simp [hconsole, hjson, format]

end Report.Writer

namespace Settings

/-- A refusal is for the shape of a value, or for a value of the right shape. -/
inductive Refusal where
  | shape
  | value

def FieldError.refusal : FieldError → Refusal
  | wrongShape _ _ => .shape
  | keysNotStrings _ => .shape
  | missing _ => .value
  | numeral _ => .value
  | lookup _ => .value

def Error.refusal : Error → Refusal
  | field e => e.refusal
  | _ => .value

/-- Refused for a shape are fields that lack theirs and mappings with keys that are no texts. -/
theorem Error.refusal_eq_shape_iff (err : Error) :
    err.refusal = .shape ↔
      (∃ key expected, err = .field (.wrongShape key expected)) ∨
        ∃ key, err = .field (.keysNotStrings key) := by
  cases err with
  | field e => cases e <;> simp [refusal, FieldError.refusal]
  | _ => simp [refusal]

/-! ## Pinned variables -/

theorem pinned_of_readPinned {fields : Section} {key : String}
    {pinned : List (String × String)} (h : Server.readPinned fields key = .ok pinned) :
    ∃ value, Entries.get? pinned "LC_MESSAGES" = some value := by
  obtain ⟨configured, -, hpinned⟩ := exists_of_bind_eq_ok h
  obtain rfl : Entries.update Server.defaultPinned configured = pinned := Except.ok.inj hpinned
  rw [Entries.get?_update]
  cases hconfigured : Entries.get? configured.reverse "LC_MESSAGES" with
  | some value => exact ⟨value, rfl⟩
  | none => exact ⟨"C", rfl⟩

theorem readPinned_of_read {e : Environment} {fields : Section} {key : String} {s : Server}
    (h : Server.read e (.mapping fields) key = .ok s) :
    Server.readPinned fields key = .ok s.pinned := by
  obtain ⟨pinned, hpinned, h⟩ := exists_of_bind_eq_ok h
  -- Nine other fields are read behind the variables, and none of them changes these.
  iterate 9 obtain ⟨_, -, h⟩ := exists_of_bind_eq_ok h
  cases h
  exact hpinned

theorem pinned_of_readServer {e : Environment} {value : Yaml} {key : String} {s : Server}
    (h : Server.read e value key = .ok s) :
    ∃ text, Entries.get? s.pinned "LC_MESSAGES" = some text := by
  cases value with
  | mapping fields => exact pinned_of_readPinned (readPinned_of_read h)
  | _ => cases h

theorem pinned_of_readItems {e : Environment} {index : Nat} {items : List Yaml}
    {servers : List Server} (h : Server.readItems e index items = .ok servers) :
    ∀ s ∈ servers, ∃ text, Entries.get? s.pinned "LC_MESSAGES" = some text := by
  induction items generalizing index servers with
  | nil =>
      cases h
      simp
  | cons item rest ih =>
      rw [Server.readItems] at h
      split at h
      · cases h
      · rename_i first hfirst
        cases hrest : Server.readItems e (index + 1) rest with
        | error err => simp [hrest, Except.map] at h
        | ok others =>
            simp only [hrest, Except.map, Except.ok.injEq] at h
            subst h
            rw [List.forall_mem_cons]
            exact ⟨pinned_of_readServer hfirst, ih hrest⟩

theorem pinned_of_readSections {e : Environment} {root : Section} {s : Settings}
    (h : readSections e root = .ok s) :
    ∀ t ∈ s.servers, ∃ text, Entries.get? t.pinned "LC_MESSAGES" = some text := by
  obtain ⟨log, -, h⟩ := exists_of_bind_eq_ok h
  obtain ⟨servers, hservers, h⟩ := exists_of_bind_eq_ok h
  obtain ⟨output, -, h⟩ := exists_of_bind_eq_ok h
  cases h
  unfold Server.readAll at hservers
  split at hservers
  · cases hservers
  · exact pinned_of_readItems hservers
  · cases hservers

/-! ## Use -/

/-- Everything that is made of the settings exists. -/
structure Usable (s : Settings) : Prop where
  nonempty : s.servers ≠ []
  names : (s.servers.map Server.name).Nodup
  found : ∀ t ∈ s.servers, s.server? t.name = some t
  unknown : ∀ name, (∀ t ∈ s.servers, t.name ≠ name) → s.server? name = none
  servers : ∀ t ∈ s.servers, t.Sound
  pinned : ∀ t ∈ s.servers, ∃ text, Entries.get? t.pinned "LC_MESSAGES" = some text
  level : s.log.level ∈ Log.levels
  service : ∀ (σ : Type) (run : Engine.Invocation → σ → Engine.Outcome × σ)
    (parent : Environment), ∃ svc, Service.ofSettings run parent s = .ok svc ∧
      svc.names = s.servers.map Server.name
  writers : Report.Writer.ofFormats s.output.formats s.output.baseDir ≠ []
  formats : ((Report.Writer.ofFormats s.output.formats s.output.baseDir).map
    Report.Writer.format).Nodup
  written : ∀ f, f ∈ (Report.Writer.ofFormats s.output.formats s.output.baseDir).map
    Report.Writer.format ↔ f ∈ s.output.formats

theorem server?_eq_some_iff {s : Settings} (h : (s.servers.map Server.name).Nodup) {name : String}
    {t : Server} : s.server? name = some t ↔ t ∈ s.servers ∧ t.name = name :=
  find?_name_eq_some_iff h

theorem mem_writers_iff {s : Settings} (h : s.Sound) (f : String) :
    f ∈ (Report.Writer.ofFormats s.output.formats s.output.baseDir).map Report.Writer.format ↔
      f ∈ s.output.formats := by
  rw [Report.Writer.map_format_ofFormats, List.mem_filter]
  simpa using h.known f

theorem writers_ne_nil {s : Settings} (h : s.Sound) :
    Report.Writer.ofFormats s.output.formats s.output.baseDir ≠ [] := by
  intro hnil
  obtain ⟨f, hf⟩ := List.exists_mem_of_ne_nil _ h.formats
  have hmem := (mem_writers_iff h f).2 hf
  simp [hnil] at hmem

theorem usable_of_read {e : Environment} {root : Section} {s : Settings}
    (h : read e root = .ok s) : s.Usable := by
  obtain ⟨hsections, hsound⟩ := read_eq_ok_iff.1 h
  refine
    { nonempty := hsound.nonempty
      names := hsound.names
      found := fun t ht => (server?_eq_some_iff hsound.names).2 ⟨ht, rfl⟩
      unknown := ?_
      servers := hsound.servers
      pinned := pinned_of_readSections hsections
      level := hsound.level
      service := ?_
      writers := writers_ne_nil hsound
      formats := ?_
      written := mem_writers_iff hsound }
  · intro name hnone
    rw [Option.eq_none_iff_forall_ne_some]
    intro t ht
    obtain ⟨hmem, hname⟩ := (server?_eq_some_iff hsound.names).1 ht
    exact hnone t hmem hname
  · intro σ run parent
    refine ⟨_, Service.ofSettings_eq_ok hsound.wellFormed, ?_⟩
    simp only [Service.names, List.map_map]
    rfl
  · rw [Report.Writer.map_format_ofFormats]
    exact List.Nodup.filter _ (by decide)

/--
Whatever stands in a settings file, its settings are refused, or else they can be used.  A refusal
is for the shape of a value exactly if a field has not the shape that it must have, or a mapping
has other keys than texts, and else for a value.

What accepted settings do not promise is that every article number can be read: for a mailbox of
one of their servers this fails exactly if the number has too many digits.
-/
theorem accepted_usable (e : Environment) (root : Section) :
    (∃ err, read e root = .error err ∧
      (err.refusal = .shape ↔
        (∃ key expected, err = .field (.wrongShape key expected)) ∨
          ∃ key, err = .field (.keysNotStrings key))) ∨
      ∃ s, read e root = .ok s ∧ s.Usable ∧
        ∀ t ∈ s.servers, ∃ b : Backend, t.backend = b.name ∧
          ∀ basename, (∃ n, articleNumber basename t.backend = .ok n) ↔
            ∀ digits, articleDigits? b basename = some digits → digits.length ≤ maxDigits := by
  cases hread : read e root with
  | error err => exact .inl ⟨err, rfl, err.refusal_eq_shape_iff⟩
  | ok s =>
      have husable := usable_of_read hread
      refine .inr ⟨s, rfl, husable, ?_⟩
      intro t ht
      obtain ⟨b, hb⟩ := (husable.servers t ht).backend
      exact ⟨b, hb, Listing.exists_articleNumber_iff hb⟩

/-- A file name that is the number seven, with more noughts in front of it than can be read. -/
def overlongName : List Char :=
  List.replicate maxDigits '0' ++ ['7']

theorem articleDigits?_overlongName : articleDigits? .nnml overlongName = some overlongName := by
  have hnewline : '\n' ∉ overlongName := by simp [overlongName]
  have hdigits : overlongName.all Text.isDigit = true := by
    have hzero : Text.isDigit '0' = true := by decide
    have hseven : Text.isDigit '7' = true := by decide
    simp [overlongName, hzero, hseven]
  have hne : overlongName.isEmpty = false := by simp [overlongName]
  simp [articleDigits?, Listing.dropFinalNewline_of_not_mem hnewline, Listing.asDigits?, hdigits,
    hne]

/-- Settings are accepted, and yet the article number in a file name is not read. -/
theorem accepted_not_usable :
    read ⟨[]⟩ Service.pairSection = .ok Service.pairSettings ∧
      Engine.plainServer "s" ∈ Service.pairSettings.servers ∧
      articleDigits? .nnml overlongName = some overlongName ∧
      ¬ ∃ n, articleNumber overlongName (Engine.plainServer "s").backend = .ok n := by
  refine ⟨Service.read_pairSection, List.mem_cons_self, articleDigits?_overlongName, ?_⟩
  have hb : (Engine.plainServer "s").backend = Backend.nnml.name := rfl
  rw [Listing.exists_articleNumber_iff hb]
  intro hshort
  have hle := hshort overlongName articleDigits?_overlongName
  have hlength : overlongName.length = maxDigits + 1 := by simp [overlongName]
  omega

end Settings

end IndexedMail
