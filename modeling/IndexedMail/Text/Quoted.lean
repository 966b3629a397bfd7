import IndexedMail.Text.Printable

/-!
# Quoted text

The form in which messages show a text that somebody else supplied: inside quotation marks, with
everything that would not show up on a terminal written as an escape.
-/

namespace IndexedMail.Text

/-- The `width` lowest hexadecimal digits of a number, in small letters. -/
def hexDigits : Nat → Nat → List Char
  | 0, _ => []
  | width + 1, n => hexDigits width (n / 16) ++ [Nat.digitChar (n % 16)]

theorem hexDigits_length (width n : Nat) : (hexDigits width n).length = width := by
  induction width generalizing n with
  | zero => rfl
  | succ width ih => simp [hexDigits, ih]

namespace Quoted

/-- Apostrophes, unless the text holds an apostrophe and no double quote. -/
def mark (cs : List Char) : Char :=
  if cs.contains '\x27' && !cs.contains '"' then '"' else '\x27'

/-- An unprintable character, by the shortest of the three numbered escapes. -/
def numbered (c : Char) : List Char :=
  if c.toNat < 0x100 then '\\' :: 'x' :: hexDigits 2 c.toNat
  else if c.toNat < 0x10000 then '\\' :: 'u' :: hexDigits 4 c.toNat
  else '\\' :: 'U' :: hexDigits 8 c.toNat

/-- One character between the given quotation marks. -/
def escape (quote c : Char) : List Char :=
  if c == quote || c == '\\' then ['\\', c]
  else if c == '\t' then ['\\', 't']
  else if c == '\n' then ['\\', 'n']
  else if c == '\r' then ['\\', 'r']
  else if isPrintable c then [c]
  else numbered c

/-- A text in its quotation marks. -/
def encode (cs : List Char) : List Char :=
  mark cs :: (cs.flatMap (escape (mark cs)) ++ [mark cs])

end Quoted

/-- The text as messages show it. -/
def quoted (s : String) : String :=
  String.ofList (Quoted.encode s.toList)

/-- Texts joined by a comma and a space. -/
def commaSeparated (parts : List String) : String :=
  String.intercalate ", " parts

/-- A list of texts as messages show it. -/
def quotedList (parts : List String) : String :=
  "[" ++ commaSeparated (parts.map quoted) ++ "]"

end IndexedMail.Text
