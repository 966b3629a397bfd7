import IndexedMail.Calendar
import IndexedMail.Entries
import IndexedMail.Number.Shortest

/-!
# Values of settings files

The values that a YAML document can denote, the equality of mapping keys, and the text of a
scalar.  A value that contains itself is unrolled to a depth that no reader of settings reaches.

The modules on YAML stand in for a library that the program calls and that is no part of it.  They
follow YAML 1.1 with its standard tags, and that library's answers to texts which are no YAML or
denote no value.  What is proved about settings relies on no more than that a text is read as one
value or refused.
-/

namespace IndexedMail

/-- A value of a settings file; mappings keep the order of their keys. -/
inductive Yaml where
  | null
  | bool (b : Bool)
  | int (i : Int)
  | float (x : Number.Binary64)
  | string (s : String)
  | bytes (content : List UInt8)
  | date (d : Calendar.Date)
  | moment (m : Calendar.Moment)
  | sequence (items : List Yaml)
  | mapping (entries : List (Yaml × Yaml))
  | set (elements : List Yaml)
  | endless
  deriving Repr, Inhabited

namespace Yaml

/-- Whole numbers and truth values count alike as keys. -/
def wholeKey? : Yaml → Option Int
  | bool b => some (if b then 1 else 0)
  | int i => some i
  | _ => none

/-- Whether two scalars are one key. -/
def sameKey (a b : Yaml) : Bool :=
  match a, b with
  | null, null => true
  | string s, string t => s == t
  | bytes s, bytes t => s == t
  | date d, date e => d == e
  | moment m, moment n => m.isSame n
  | float x, float y => x == y || (x.equalsInt 0 && y.equalsInt 0)
  | float x, other => (other.wholeKey?.map x.equalsInt).getD false
  | other, float y => (other.wholeKey?.map y.equalsInt).getD false
  | x, y =>
      match x.wholeKey?, y.wholeKey? with
      | some i, some j => i == j
      | _, _ => false

/-- Give a key of a mapping a value. -/
def insertEntry (key value : Yaml) (entries : List (Yaml × Yaml)) : List (Yaml × Yaml) :=
  Entries.insertBy sameKey key value entries

/-- The value of a key of a mapping. -/
def entry? (entries : List (Yaml × Yaml)) (key : Yaml) : Option Yaml :=
  (entries.find? fun e => sameKey e.1 key).map (·.2)

/-- The value of a name in a mapping. -/
def field? (entries : List (Yaml × Yaml)) (name : String) : Option Yaml :=
  entry? entries (string name)

/-- Whether the value is nothing: empty, zero, false or null. -/
def isVoid : Yaml → Bool
  | null => true
  | bool b => !b
  | int i => i == 0
  | float x => x.equalsInt 0
  | string s => s.isEmpty
  | bytes content => content.isEmpty
  | date _ => false
  | moment _ => false
  | sequence items => items.isEmpty
  | mapping entries => entries.isEmpty
  | set elements => elements.isEmpty
  | endless => false

mutual

/-- Whether the value contains itself. -/
def isEndless : Yaml → Bool
  | sequence items => anyEndless items
  | mapping entries => anyValueEndless entries
  | endless => true
  | _ => false

/-- Whether one of the items contains itself. -/
def anyEndless : List Yaml → Bool
  | [] => false
  | item :: rest => item.isEndless || anyEndless rest

/-- Whether one of the values of a mapping contains itself. -/
def anyValueEndless : List (Yaml × Yaml) → Bool
  | [] => false
  | (_, value) :: rest => value.isEndless || anyValueEndless rest

end

/-- One byte between the given quotation marks. -/
def escapeByte (quote : Char) (b : UInt8) : List Char :=
  let c := Char.ofNat b.toNat
  if c == quote || c == '\\' then ['\\', c]
  else if c == '\t' then ['\\', 't']
  else if c == '\n' then ['\\', 'n']
  else if c == '\r' then ['\\', 'r']
  else if b < 0x20 || 0x7f ≤ b then '\\' :: 'x' :: Text.hexDigits 2 b.toNat
  else [c]

def bytesText (content : List UInt8) : String :=
  let mark := Text.Quoted.mark (content.map fun b => Char.ofNat b.toNat)
  String.ofList ('b' :: mark :: (content.flatMap (escapeByte mark) ++ [mark]))

/-- The text of an element of a set; a number may be too large for it. -/
def innerText : Yaml → Except Text.Numeral.Error String
  | bool b => .ok (if b then "True" else "False")
  | int i => Text.Numeral.write i
  | float x => .ok x.text
  | string s => .ok (Text.quoted s)
  | bytes content => .ok (bytesText content)
  | date d => .ok d.innerText
  | moment m => .ok m.innerText
  | _ => .ok "None"

/-- The texts of elements, as far as they can be written. -/
def innerTexts : List Yaml → Except Text.Numeral.Error (List String)
  | [] => .ok []
  | element :: rest =>
      match innerText element with
      | .error e => .error e
      | .ok text => (innerTexts rest).map (text :: ·)

/--
The text of a set, with its elements in the order of the document.  The program shows them in an
order that depends on hashing, so that the text is only the program's own if there is at most one
element.
-/
def setText (elements : List Yaml) : Except Text.Numeral.Error String :=
  if elements.isEmpty then .ok "set()"
  else (innerTexts elements).map fun texts => "\x7b" ++ Text.commaSeparated texts ++ "\x7d"

/--
The text of a value that is no list, no mapping and not null; a number may be too large for it.
-/
def scalarText? : Yaml → Option (Except Text.Numeral.Error String)
  | null => none
  | bool b => some (.ok (if b then "True" else "False"))
  | int i => some (Text.Numeral.write i)
  | float x => some (.ok x.text)
  | string s => some (.ok s)
  | bytes content => some (.ok (bytesText content))
  | date d => some (.ok d.text)
  | moment m => some (.ok m.text)
  | set elements => some (setText elements)
  | sequence _ => none
  | mapping _ => none
  | endless => none

end Yaml

end IndexedMail
