import IndexedMail.Entries
import IndexedMail.Expansion

/-!
# Environments

Named variables with text values, as a process has them, and the expansion of a path by them.
-/

namespace IndexedMail

/-- Variables with their values, each name once. -/
structure Environment where
  pairs : List (String × String)
  deriving DecidableEq, Repr

namespace Environment

/-- The value of a variable. -/
def get? (e : Environment) (name : String) : Option String :=
  Entries.get? e.pairs name

/-- The environment with some variables set anew. -/
def override (e : Environment) (pinned : List (String × String)) : Environment :=
  ⟨Entries.update e.pairs pinned⟩

/-- The variables by name. -/
def sorted (e : Environment) : List (String × String) :=
  e.pairs.mergeSort fun a b => decide (a.1 ≤ b.1)

/--
What the system knows if only the variables of an environment are known.

The accounts of the system are not modelled: no name is that of one, and without the variable
`HOME` there is no home directory.
-/
def lookups (e : Environment) : Lookups :=
  { value? := fun name => (name.narrow?.bind e.get?).map Text.wide
    home? := fun _ => none
    ownHome? := none }

/-- Expand a path; where there are no halves of surrogate pairs, expanding puts none in. -/
def expand (e : Environment) (path : String) : Except LookupError String :=
  (e.lookups.expand path).map Text.Wide.shown

/-- Expand a path whose references can all be looked up. -/
def expandPath (e : Environment) (path : String) : String :=
  match e.expand path with
  | .ok expanded => expanded
  | .error _ => path

end Environment

end IndexedMail
