import IndexedMail.Json.Value

/-!
# Whole numbers in JSON

The whole number that a value stands for: a text is read as a numeral, a truth value counts as
one or nought, and the fraction of a number is cut off.
-/

namespace IndexedMail.Json

def kindName : Json → String
  | null => "NoneType"
  | bool _ => "bool"
  | int _ => "int"
  | float _ => "float"
  | string _ => "str"
  | array _ => "list"
  | object _ => "dict"

/-- Why a value stands for no whole number. -/
inductive NotWhole where
  | kind (name : String)
  | numeral (e : Text.Numeral.Error)
  | malformed (s : Text.Wide)
  | nan
  | infinite
  deriving DecidableEq, Repr

namespace NotWhole

def message : NotWhole → String
  | kind name =>
      "int() argument must be a string, a bytes-like object or a real number, not " ++
        s!"'{name}'"
  | numeral e => e.message
  | malformed s =>
      "invalid literal for int() with base 10: " ++ String.ofList (s.quoted.toList.take 200)
  | nan => "cannot convert float NaN to integer"
  | infinite => "cannot convert float infinity to integer"

end NotWhole

/-- The number of a text; a half of a surrogate pair is no part of any numeral. -/
def numeral (s : Text.Wide) : Except NotWhole Int :=
  match s.narrow? with
  | some text =>
      match Text.Numeral.read text.toList with
      | .error e => .error (.numeral e)
      | .ok i => .ok i
  | none =>
      match Text.Numeral.read (s.map fun p => p.char?.getD Text.Utf8.replacement) with
      | .error (.tooLong digits) => .error (.numeral (.tooLong digits))
      | _ => .error (.malformed s)

/-- The whole number that a value stands for. -/
def whole (value : Json) : Except NotWhole Int :=
  match value with
  | .int i => .ok i
  | .bool b => .ok (if b then 1 else 0)
  | .string s => numeral s
  | .float x =>
      match x.truncate? with
      | some i => .ok i
      | none => .error (if x == .nan then .nan else .infinite)
  | other => .error (.kind other.kindName)

theorem whole_string (s : String) :
    whole (string s) = (Text.Numeral.read s.toList).mapError NotWhole.numeral := by
  simp only [whole, numeral, Text.Wide.narrow?_wide]
  cases Text.Numeral.read s.toList <;> rfl

end IndexedMail.Json
