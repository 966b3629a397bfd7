import IndexedMail.Environment
import IndexedMail.Yaml.Value

/-!
# Fields of settings

Reading the fields of a settings file one by one.  A failure names the field by its path from the
root, and either says that it is missing or which shape it has to have; what goes wrong while a
value is turned into a text or a path is said without a name.
-/

namespace IndexedMail.Settings

/-- The shapes that a field can be required to have. -/
inductive Shape where
  | object
  | string
  | boolean
  | integer
  | list
  | scalar
  deriving DecidableEq, Repr

namespace Shape

/-- The shape in words. -/
def description : Shape → String
  | object => "an object"
  | string => "a string"
  | boolean => "a boolean"
  | integer => "an integer"
  | list => "a list"
  | scalar => "a scalar"

end Shape

/-- Why a field cannot be read. -/
inductive FieldError where
  | missing (key : String)
  | wrongShape (key : String) (expected : Shape)
  | keysNotStrings (key : String)
  | numeral (e : Text.Numeral.Error)
  | lookup (e : LookupError)
  deriving DecidableEq, Repr

namespace FieldError

def message : FieldError → String
  | missing key => s!"Missing required config: {key}"
  | wrongShape key expected => s!"{key} must be {expected.description}"
  | keysNotStrings key => s!"{key} keys must be strings"
  | numeral e => e.message
  | lookup e => e.message

end FieldError

/-- The entries of a mapping. -/
abbrev Section := List (Yaml × Yaml)

/-- A section of the root; one that is missing or null is empty unless it is required. -/
def section? (root : Section) (key : String) (required : Bool) : Except FieldError Section :=
  match (Yaml.field? root key).getD .null with
  | .null => if required then .error (.missing key) else .ok []
  | .mapping entries => .ok entries
  | _ => .error (.wrongShape key .object)

/-- The value of a field that has to be there. -/
def required (fields : Section) (name key : String) : Except FieldError Yaml :=
  match Yaml.field? fields name with
  | some value => .ok value
  | none => .error (.missing key)

/-- The value of a field, or a default if it is missing or null. -/
def optional (fields : Section) (name : String) (default : Yaml) : Yaml :=
  match Yaml.field? fields name with
  | none => default
  | some .null => default
  | some value => value

/-- A text. -/
def expectString (value : Yaml) (key : String) : Except FieldError String :=
  match value with
  | .string s => .ok s
  | _ => .error (.wrongShape key .string)

/-- A truth value. -/
def expectBool (value : Yaml) (key : String) : Except FieldError Bool :=
  match value with
  | .bool b => .ok b
  | _ => .error (.wrongShape key .boolean)

/-- A whole number. -/
def expectInt (value : Yaml) (key : String) : Except FieldError Int :=
  match value with
  | .int i => .ok i
  | _ => .error (.wrongShape key .integer)

/-- The texts of a list from the given index on. -/
def stringItems (key : String) : Nat → List Yaml → Except FieldError (List String)
  | _, [] => .ok []
  | index, item :: rest =>
      match expectString item s!"{key}[{index}]" with
      | .error e => .error e
      | .ok s => (stringItems key (index + 1) rest).map (s :: ·)

/-- A list of texts. -/
def expectStrings (value : Yaml) (key : String) : Except FieldError (List String) :=
  match value with
  | .sequence items => stringItems key 0 items
  | _ => .error (.wrongShape key .list)

/-- The entries of a mapping from names to scalars, with the scalars as text. -/
def scalarEntries (key : String) : Section → Except FieldError (List (String × String))
  | [] => .ok []
  | (.string name, value) :: rest =>
      match value.scalarText? with
      | none => .error (.wrongShape s!"{key}.{name}" .scalar)
      | some (.error e) => .error (.numeral e)
      | some (.ok text) => (scalarEntries key rest).map ((name, text) :: ·)
  | _ :: _ => .error (.keysNotStrings key)

/-- A mapping from names to scalars, with the scalars as text. -/
def expectScalars (value : Yaml) (key : String) : Except FieldError (List (String × String)) :=
  match value with
  | .mapping entries => scalarEntries key entries
  | _ => .error (.wrongShape key .object)

end IndexedMail.Settings
