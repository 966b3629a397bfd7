import IndexedMail.Limits
import IndexedMail.Settings.Merge
import Mathlib.Data.List.Nodup

/-!
# Settings over defaults, path by path

What is found at a path of names in settings that are laid over defaults.  As long as both hold
mappings the merge goes on; where the settings name nothing the defaults stay, and anything else
that the settings name replaces what was there as a whole.
-/

namespace IndexedMail

namespace Yaml

/-- In mappings within mappings, all keys are texts, each once. -/
inductive Keyed : Yaml → Prop
  | mapping {entries : List (Yaml × Yaml)} :
      (∀ e ∈ entries, ∃ name, e.1 = string name) → (Entries.keys entries).Nodup →
      (∀ e ∈ entries, Keyed e.2) → Keyed (mapping entries)
  | other {value : Yaml} : (∀ entries, value ≠ mapping entries) → Keyed value

/-- The value at a path of names through mappings. -/
def at? : Yaml → List String → Option Yaml
  | value, [] => some value
  | mapping entries, name :: path => (field? entries name).bind fun value => at? value path
  | _, _ :: _ => none

theorem at?_nil (value : Yaml) : value.at? [] = some value := by
  cases value <;> rfl

theorem at?_cons (entries : List (Yaml × Yaml)) (name : String) (path : List String) :
    (mapping entries).at? (name :: path) = (field? entries name).bind fun v => v.at? path := rfl

theorem at?_append (value : Yaml) (first second : List String) :
    value.at? (first ++ second) = (value.at? first).bind fun v => v.at? second := by
  induction first generalizing value with
  | nil => simp [at?_nil]
  | cons name rest ih =>
      cases value with
      | mapping entries =>
          rw [List.cons_append, at?_cons, at?_cons, Option.bind_assoc]
          exact congrArg _ (funext ih)
      | _ => rfl

theorem sameKey_string_iff {key : Yaml} {name : String} :
    sameKey key (string name) = true ↔ key = string name := by
  cases key <;> simp [sameKey, wholeKey?]

theorem field?_cons_self (name : String) (value : Yaml) (rest : List (Yaml × Yaml)) :
    field? ((string name, value) :: rest) name = some value := by
  simp [field?, entry?, sameKey_string_iff]

theorem field?_cons_of_ne {key : Yaml} {name : String} (h : key ≠ string name) (value : Yaml)
    (rest : List (Yaml × Yaml)) : field? ((key, value) :: rest) name = field? rest name := by
  have hkey : sameKey key (string name) = false := by
    rwa [← Bool.not_eq_true, sameKey_string_iff]
  simp [field?, entry?, hkey]

theorem field?_eq_none_iff {entries : List (Yaml × Yaml)} {name : String} :
    field? entries name = none ↔ string name ∉ Entries.keys entries := by
  rw [field?, entry?, Option.map_eq_none_iff, List.find?_eq_none]
  simp only [sameKey_string_iff, Entries.keys, List.mem_map, not_exists, not_and]

/-! ## One entry -/

theorem Keyed.entries {entries : List (Yaml × Yaml)} (h : Keyed (.mapping entries)) :
    (∀ e ∈ entries, ∃ name, e.1 = string name) ∧ (Entries.keys entries).Nodup ∧
      ∀ e ∈ entries, Keyed e.2 := by
  cases h with
  | mapping hnames hnodup hvalues => exact ⟨hnames, hnodup, hvalues⟩
  | other hnot => exact absurd rfl (hnot entries)

theorem Keyed.field? {entries : List (Yaml × Yaml)} (h : Keyed (.mapping entries)) {name : String}
    {value : Yaml} (hvalue : field? entries name = some value) : Keyed value := by
  obtain ⟨e, he, rfl⟩ := Option.map_eq_some_iff.1 hvalue
  exact h.entries.2.2 e (List.mem_of_find?_eq_some he)

end Yaml

namespace Settings

open Yaml (Keyed field? insertEntry)

section Level

variable {override : Section} (hnames : ∀ e ∈ override, ∃ name, e.1 = .string name)
  (hnodup : (Entries.keys override).Nodup)

include hnames hnodup

end Level

/-- Both hold mappings all along the path, and the given ones at its end. -/
structure Meet (base override : Section) (path : List String) (b o : Section) : Prop where
  base : (Yaml.mapping base).at? path = some (.mapping b)
  override : (Yaml.mapping override).at? path = some (.mapping o)

theorem Meet.nil (base override : Section) : Meet base override [] base override :=
  ⟨Yaml.at?_nil _, Yaml.at?_nil _⟩

theorem Meet.append {base override b o b' o' : Section} {met path : List String}
    (h : Meet base override met b o) (h' : Meet b o path b' o') :
    Meet base override (met ++ path) b' o' := by
  refine ⟨?_, ?_⟩
  · rw [Yaml.at?_append, h.base, Option.bind_some, h'.base]
  · rw [Yaml.at?_append, h.override, Option.bind_some, h'.override]

end Settings

end IndexedMail
