import IndexedMail.Settings.Field

/-!
# Settings over defaults

Settings are laid over defaults mapping by mapping; anything else, lists included, replaces the
default as a whole.  This goes as deep as mappings lie over each other, down to a limit that those
which contain themselves under the same keys pass.
-/

namespace IndexedMail.Settings

mutual

/-- Lay entries over those of a mapping. -/
def mergeEntries (base : Section) : Section → Section
  | [] => base
  | (key, value) :: rest =>
      mergeEntries (Yaml.insertEntry key (mergeValue (Yaml.entry? base key) value) base) rest

/-- Lay a value over what was there. -/
def mergeValue : Option Yaml → Yaml → Yaml
  | some (.mapping base), .mapping entries => .mapping (mergeEntries base entries)
  | _, value => value

end

/-- Settings over defaults, however deep mappings lie over each other. -/
def overlay (base override : Section) : Section :=
  mergeEntries base override

/-- Whether mappings lie over each other to more than a number of levels. -/
def overlapsBeyond : Nat → Section → Section → Bool
  | 0, _, _ => true
  | levels + 1, base, override =>
      override.any fun (key, value) =>
        match Yaml.entry? base key, value with
        | some (.mapping inner), .mapping entries => overlapsBeyond levels inner entries
        | _, _ => false

/-- Mappings lie over each other to more levels than can be merged. -/
structure OverlapError where
  deriving DecidableEq, Repr

def OverlapError.message (_ : OverlapError) : String :=
  "maximum recursion depth exceeded in comparison"

/-- Lay settings over defaults, with a limit on the levels of mappings over each other. -/
def merge (levels : Nat) (base override : Section) : Except OverlapError Section :=
  if overlapsBeyond levels base override then .error ⟨⟩ else .ok (overlay base override)

end IndexedMail.Settings
