import IndexedMail.Yaml.Error
import IndexedMail.Yaml.Token.Folding

/-!
# Quoted scalars

Scalars between single or double quotation marks.  Line breaks inside are folded, double
quotation marks allow escapes, and inside single ones a doubled mark is one mark.

Settings are text: an escape that names one half of a surrogate pair, which other readers let
through, is refused.
-/

namespace IndexedMail.Yaml.Quoted

/-- What the character after a backslash stands for by itself. -/
def escaped? (c : Char) : Option Char :=
  match c with
  | '0' => some (Char.ofNat 0x00)
  | 'a' => some (Char.ofNat 0x07)
  | 'b' => some (Char.ofNat 0x08)
  | 't' => some '\t'
  | '\t' => some '\t'
  | 'n' => some '\n'
  | 'v' => some (Char.ofNat 0x0b)
  | 'f' => some (Char.ofNat 0x0c)
  | 'r' => some '\r'
  | 'e' => some (Char.ofNat 0x1b)
  | ' ' => some ' '
  | '"' => some '"'
  | '\\' => some '\\'
  | '/' => some '/'
  | 'N' => some (Char.ofNat 0x85)
  | '_' => some (Char.ofNat 0xa0)
  | 'L' => some (Char.ofNat 0x2028)
  | 'P' => some (Char.ofNat 0x2029)
  | _ => none

/-- How many hexadecimal digits follow the character after a backslash. -/
def codeLength? (c : Char) : Option Nat :=
  match c with
  | 'x' => some 2
  | 'u' => some 4
  | 'U' => some 8
  | _ => none

/-- Whether the character is a hexadecimal digit of ASCII. -/
def isHexDigit (c : Char) : Bool :=
  c.isDigit || (decide ('a' ≤ c) && decide (c ≤ 'f')) || (decide ('A' ≤ c) && decide (c ≤ 'F'))

def hexValue (c : Char) : Nat :=
  let n := c.toNat
  if n ≤ 57 then n - 48 else if n ≤ 70 then n - 55 else n - 87

/-- The number that hexadecimal digits spell. -/
def ofHex (ds : List Char) : Nat :=
  ds.foldl (fun n d => n * 16 + hexValue d) 0

/-- The character of a numbered escape. -/
def ofCode (code : Nat) : Except Error Char :=
  if 0x10ffff < code then .error (.codePoint code)
  else if 0xd800 ≤ code ∧ code < 0xe000 then .error (.halfOfPair code)
  else .ok (Char.ofNat code)

/-- Pass over empty lines, with a bound on their number; a document must not end inside. -/
def emptyLines : Nat → Cursor → Except Error (List Char × Cursor)
  | 0, c => .ok ([], c)
  | fuel + 1, c =>
      if c.isSeparator then .error (.malformed .separatorInQuote)
      else
        let c := c.skip isGap
        if c.isAt isBreak then
          let (mark, c) := c.lineBreak
          (emptyLines fuel c).map fun (more, c) => (mark ++ more, c)
        else .ok ([], c)

/-- Read an escape at the place behind its backslash. -/
def escape (c : Cursor) : Except Error (List Char × Cursor) :=
  match c.peek? with
  | none => .error (.malformed .unknownEscape)
  | some ch =>
      match escaped? ch, codeLength? ch with
      | some value, _ => .ok ([value], c.next)
      | none, some length =>
          let digits := c.next.rest.take length
          if digits.length < length || !digits.all isHexDigit then
            .error (.malformed .unknownEscape)
          else (ofCode (ofHex digits)).map fun value => ([value], c.next.drop length)
      | none, none =>
          if isBreak ch then
            let (_, c) := c.lineBreak
            emptyLines (c.rest.length + 1) c
          else .error (.malformed .unknownEscape)

/-- Pass over blanks: they stay inside a line, and fold together with line breaks. -/
def gap (c : Cursor) : Except Error (List Char × Cursor) :=
  let (blanks, c) := c.span isGap
  match c.peek? with
  | none => .error (.malformed .unclosedQuote)
  | some ch =>
      if isBreak ch then
        let (mark, c) := c.lineBreak
        (emptyLines (c.rest.length + 1) c).map fun (more, c) => (folded mark more, c)
      else .ok (blanks, c)

/-- The text up to the closing mark and the place behind it, with a bound on the steps. -/
def body (mark : Char) : Nat → Cursor → Except Error (List Char × Cursor)
  | 0, _ => .error (.malformed .unclosedQuote)
  | fuel + 1, c =>
      match c.peek? with
      | none => .error (.malformed .unclosedQuote)
      | some ch =>
          if ch == mark then
            if mark == '\'' && c.next.peek? == some mark then
              (body mark fuel (c.drop 2)).map fun (more, c) => (mark :: more, c)
            else .ok ([], c.next)
          else if isGap ch || isBreak ch then do
            let (piece, c) ← gap c
            let (more, c) ← body mark fuel c
            pure (piece ++ more, c)
          else if mark == '"' && ch == '\\' then do
            let (piece, c) ← escape c.next
            let (more, c) ← body mark fuel c
            pure (piece ++ more, c)
          else (body mark fuel c.next).map fun (more, c) => (ch :: more, c)

/-- Read a quoted scalar at its opening mark. -/
def read (mark : Char) (c : Cursor) : Except Error (List Char × Cursor) :=
  body mark (c.rest.length + 1) c.next

end IndexedMail.Yaml.Quoted
