/-!
# Places in a text

A cursor stands at a place of a text and knows how many characters, line breaks and columns lie
before it.
-/

namespace IndexedMail.Yaml

/-- Whether the character breaks a line. -/
def isBreak (c : Char) : Bool :=
  let n := c.toNat
  n == 0x0a || n == 0x0d || n == 0x85 || n == 0x2028 || n == 0x2029

/-- Whether the character is a space or a tab. -/
def isGap (c : Char) : Bool :=
  c == ' ' || c == '\t'

/-- The mark that may open a text and that takes no column. -/
def byteOrderMark : Char := Char.ofNat 0xfeff

/-- A place in a text: the rest of the text, and what lies before it. -/
structure Cursor where
  rest : List Char
  index : Nat
  line : Nat
  column : Nat
  deriving DecidableEq, Repr

namespace Cursor

/-- The beginning of a text. -/
def start (cs : List Char) : Cursor :=
  ⟨cs, 0, 0, 0⟩

/-- The next character. -/
def peek? (c : Cursor) : Option Char :=
  c.rest.head?

/-- Pass over one character; a carriage return before a line feed breaks no line of its own. -/
def next (c : Cursor) : Cursor :=
  match c.rest with
  | [] => c
  | ch :: rest =>
      if isBreak ch && !(ch == '\r' && rest.head? == some '\n') then
        ⟨rest, c.index + 1, c.line + 1, 0⟩
      else if ch == byteOrderMark then ⟨rest, c.index + 1, c.line, c.column⟩
      else ⟨rest, c.index + 1, c.line, c.column + 1⟩

/-- Pass over some characters. -/
def drop : Nat → Cursor → Cursor
  | 0, c => c
  | n + 1, c => drop n c.next

/-- The longest run of characters of a class, and the place behind it. -/
def span (p : Char → Bool) (c : Cursor) : List Char × Cursor :=
  let run := c.rest.takeWhile p
  (run, c.drop run.length)

/-- The place behind the longest run of characters of a class. -/
def skip (p : Char → Bool) (c : Cursor) : Cursor :=
  (c.span p).2

/-- Whether the next character is of a class; the end of the text counts as such. -/
def atEndOr (p : Char → Bool) (c : Cursor) : Bool :=
  match c.peek? with
  | none => true
  | some ch => p ch

/-- Whether the next character is there and of a class. -/
def isAt (p : Char → Bool) (c : Cursor) : Bool :=
  match c.peek? with
  | none => false
  | some ch => p ch

/-- Pass over a line break and say what stands for it: itself if it separates, else a line feed. -/
def lineBreak (c : Cursor) : List Char × Cursor :=
  match c.rest with
  | '\r' :: '\n' :: _ => (['\n'], c.drop 2)
  | ch :: _ =>
      if !isBreak ch then ([], c)
      else if ch.toNat = 0x2028 ∨ ch.toNat = 0x2029 then ([ch], c.next)
      else (['\n'], c.next)
  | [] => ([], c)

/-- Whether nothing but a blank, a tab or a line break follows the given number of characters. -/
def isWordEnd (n : Nat) (c : Cursor) : Bool :=
  match (c.rest.drop n).head? with
  | none => true
  | some ch => isGap ch || isBreak ch

/-- Whether three given characters stand here as a word. -/
def isMarker (mark : Char) (c : Cursor) : Bool :=
  c.rest.take 3 == [mark, mark, mark] && c.isWordEnd 3

/-- Whether a document begins or ends here, if this is the beginning of a line. -/
def isSeparator (c : Cursor) : Bool :=
  c.isMarker '-' || c.isMarker '.'

/-- Pass over blanks and a comment behind them. -/
def skipComment (c : Cursor) : Cursor :=
  let c := c.skip (· == ' ')
  if c.isAt (· == '#') then c.skip fun ch => !isBreak ch else c

end Cursor

end IndexedMail.Yaml
