import IndexedMail.Json.Value

/-!
# Writing JSON

The indented form in which results are saved: two spaces a level, one item or member a line,
and everything as it is except the quotation mark, the backslash and the controls.  A value with a
whole number in it that would need too many digits is not written at all.
-/

namespace IndexedMail.Json

/-- One character inside a string literal. -/
def escapeChar (c : Char) : List Char :=
  if c == '"' then ['\\', '"']
  else if c == '\\' then ['\\', '\\']
  else if c == '\n' then ['\\', 'n']
  else if c == '\r' then ['\\', 'r']
  else if c == '\t' then ['\\', 't']
  else if c == '\x08' then ['\\', 'b']
  else if c == '\x0c' then ['\\', 'f']
  else if c.toNat < 0x20 then '\\' :: 'u' :: Text.hexDigits 4 c.toNat
  else [c]

/-- One point inside a string literal. -/
def escapePoint : Text.Point → Text.Wide
  | .char c => (escapeChar c).map .char
  | .half n => [.half n]

def renderString (s : Text.Wide) : Text.Wide :=
  .char '"' :: (s.flatMap escapePoint ++ [.char '"'])

/-- A line break and the indentation of a level. -/
def newline (level : Nat) : Text.Wide :=
  .char '\n' :: List.replicate (2 * level) (.char ' ')

/-- A floating-point literal. -/
def renderFloat : Number.Binary64 → Text.Wide
  | .nan => "NaN"
  | .infinite negative => if negative then "-Infinity" else "Infinity"
  | x => x.text

mutual

/-- A value that begins on a line of the given level. -/
def renderAt (level : Nat) : Json → Text.Wide
  | null => "null"
  | bool b => if b then "true" else "false"
  | int i => (Text.Numeral.ofInt i).map .char
  | float x => renderFloat x
  | string s => renderString s
  | array [] => "[]"
  | array (item :: rest) =>
      "[" ++ (newline (level + 1) ++ renderAt (level + 1) item ++ renderItems level rest)
  | object [] => "\x7b\x7d"
  | object ((name, value) :: rest) =>
      "\x7b" ++ (newline (level + 1) ++ renderString name ++ ": " ++
        (renderAt (level + 1) value ++ renderMembers level rest))

/-- The further items of an array, and its end. -/
def renderItems (level : Nat) : List Json → Text.Wide
  | [] => newline level ++ "]"
  | item :: rest =>
      "," ++ (newline (level + 1) ++ renderAt (level + 1) item ++ renderItems level rest)

/-- The further members of an object, and its end. -/
def renderMembers (level : Nat) : List (Text.Wide × Json) → Text.Wide
  | [] => newline level ++ "\x7d"
  | (name, value) :: rest =>
      "," ++ (newline (level + 1) ++ renderString name ++ ": " ++
        (renderAt (level + 1) value ++ renderMembers level rest))

end

/-- The indented form of a value. -/
def render (value : Json) : Text.Wide :=
  renderAt 0 value

mutual

/-- Whether all whole numbers in a value can be written. -/
def isWritable : Json → Bool
  | int i => decide (i.natAbs < Text.Numeral.writableBound)
  | array items => areWritable items
  | object members => membersWritable members
  | _ => true

/-- Whether all whole numbers in the items of an array can be written. -/
def areWritable : List Json → Bool
  | [] => true
  | item :: rest => isWritable item && areWritable rest

/-- Whether all whole numbers in the members of an object can be written. -/
def membersWritable : List (Text.Wide × Json) → Bool
  | [] => true
  | (_, value) :: rest => isWritable value && membersWritable rest

end

/-- Write a value, unless a whole number in it has too many digits. -/
def write (value : Json) : Except Text.Numeral.Error Text.Wide :=
  if value.isWritable then .ok value.render else .error .tooLarge

end IndexedMail.Json
