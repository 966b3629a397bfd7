import IndexedMail.Number.Shortest
import IndexedMail.Text.Wide

/-!
# JSON values

Values with unbounded whole numbers beside double-precision ones, texts with halves of surrogate
pairs, objects in the order of their members, and the plain text by which messages and listings
show a value.  A value that is nested too deep is shown by none.
-/

namespace IndexedMail

/-- A JSON value. -/
inductive Json where
  | null
  | bool (b : Bool)
  | int (i : Int)
  | float (x : Number.Binary64)
  | string (s : Text.Wide)
  | array (items : List Json)
  | object (members : List (Text.Wide × Json))
  deriving Repr, Inhabited

namespace Json

/-- The spelling of a truth value in listings. -/
def boolText (b : Bool) : String :=
  if b then "True" else "False"

mutual

/-- A value inside another one, where texts stand in quotation marks. -/
def innerText : Json → String
  | null => "None"
  | bool b => boolText b
  | int i => Text.Numeral.text i
  | float x => x.text
  | string s => s.quoted
  | array items => "[" ++ Text.commaSeparated (itemTexts items) ++ "]"
  | object members => "\x7b" ++ Text.commaSeparated (memberTexts members) ++ "\x7d"

def itemTexts : List Json → List String
  | [] => []
  | item :: rest => innerText item :: itemTexts rest

def memberTexts : List (Text.Wide × Json) → List String
  | [] => []
  | (name, value) :: rest => (name.quoted ++ ": " ++ innerText value) :: memberTexts rest

end

/-- The text by which a listing shows a value: a text as it is, anything else as inside a list. -/
def text : Json → Text.Wide
  | string s => s
  | value => innerText value

mutual

/-- The levels of a value, one within the other. -/
def height : Json → Nat
  | array items => itemsHeight items + 1
  | object members => membersHeight members + 1
  | _ => 1

/-- The most levels of the items of an array. -/
def itemsHeight : List Json → Nat
  | [] => 0
  | item :: rest => max (height item) (itemsHeight rest)

/-- The most levels of the values of an object. -/
def membersHeight : List (Text.Wide × Json) → Nat
  | [] => 0
  | (_, value) :: rest => max (height value) (membersHeight rest)

end

/-- A value has too many levels to become text. -/
structure DepthError where
  deriving DecidableEq, Repr

def DepthError.message (_ : DepthError) : String :=
  "maximum recursion depth exceeded while getting the repr of an object"

/-- The text of a value, which has to be a text already or have no more levels than allowed. -/
def textWithin (levels : Nat) : Json → Except DepthError Text.Wide
  | string s => .ok s
  | value => if value.height ≤ levels then .ok value.innerText else .error ⟨⟩

/-- The value of a member of an object. -/
def member? (members : List (Text.Wide × Json)) (name : String) : Option Json :=
  (members.find? fun m => m.1 == Text.wide name).map (·.2)

end Json

end IndexedMail
