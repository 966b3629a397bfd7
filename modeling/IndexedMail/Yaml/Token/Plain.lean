import IndexedMail.Yaml.Token.Folding

/-!
# Plain scalars

Scalars without quotation marks, on one line or on several lines.
-/

namespace IndexedMail.Yaml.Plain

/-- Whether the character is an indicator of flow collections. -/
def isFlowIndicator (c : Char) : Bool :=
  c == ',' || c == '[' || c == ']' || c == '\x7b' || c == '\x7d'

/-- Whether a colon ends a key if the given character follows it. -/
def endsKey (flow : Bool) : Option Char → Bool
  | none => true
  | some c => isGap c || isBreak c || (flow && isFlowIndicator c)

/-- The length of the word at the beginning of a text. -/
def wordLength (flow : Bool) : List Char → Nat
  | [] => 0
  | c :: rest =>
      if isGap c || isBreak c || (c == ':' && endsKey flow rest.head?) ||
          (flow && (isFlowIndicator c || c == '?')) then 0
      else wordLength flow rest + 1

/-- What lies between two words of a scalar. -/
structure Space where
  content : List Char
  after : Cursor
  crossesLine : Bool

/-- Pass over blanks and empty lines, or nothing if a document begins or ends there. -/
def emptyLines : Nat → Cursor → Option (List Char) × Cursor
  | 0, c => (some [], c)
  | fuel + 1, c =>
      match c.peek? with
      | some ' ' => emptyLines fuel c.next
      | some ch =>
          if isBreak ch then
            let (mark, c) := c.lineBreak
            if c.isSeparator then (none, c)
            else
              let (more, c) := emptyLines fuel c
              (more.map (mark ++ ·), c)
          else (some [], c)
      | none => (some [], c)

/-- What lies behind a word; nothing is left where the scalar cannot go on. -/
def space (c : Cursor) : Space :=
  let (blanks, c) := c.span (· == ' ')
  if c.isAt isBreak then
    let (mark, c) := c.lineBreak
    if c.isSeparator then ⟨[], c, true⟩
    else
      match emptyLines (c.rest.length + 1) c with
      | (none, c) => ⟨[], c, true⟩
      | (some more, c) => ⟨folded mark more, c, true⟩
  else ⟨blanks, c, false⟩

/--
The scalar from a place on, the place behind it, and whether a line was broken after its last
word.

The arguments are the column that further lines must reach outside flow collections, a bound on
the words, what lies before the next word, and whether that breaks a line.
-/
def words (flow : Bool) (indent : Nat) :
    Nat → List Char → Bool → Cursor → List Char × Cursor × Bool
  | 0, _, crossed, c => ([], c, crossed)
  | fuel + 1, before, crossed, c =>
      let length := if c.isAt (· == '#') then 0 else wordLength flow c.rest
      if length = 0 then ([], c, crossed)
      else
        let word := before ++ c.rest.take length
        let gap := space (c.drop length)
        if gap.content.isEmpty || gap.after.isAt (· == '#') ||
            (!flow && decide (gap.after.column < indent)) then
          (word, gap.after, gap.crossesLine)
        else
          let (more, c, crossed) := words flow indent fuel gap.content gap.crossesLine gap.after
          (word ++ more, c, crossed)

/-- Read a plain scalar. -/
def read (flow : Bool) (indent : Nat) (c : Cursor) : List Char × Cursor × Bool :=
  words flow indent (c.rest.length + 1) [] false c

end IndexedMail.Yaml.Plain
