import IndexedMail.Yaml.Cursor
import IndexedMail.Yaml.Error

/-!
# Block scalars

Scalars that are written as indented lines, line by line or folded.
-/

namespace IndexedMail.Yaml.Block

/-- What happens to the line breaks at the end. -/
inductive Chomping where
  | strip
  | clip
  | keep
  deriving DecidableEq, Repr

/-- The header of a block scalar: the indentation may be given there. -/
structure Header where
  chomping : Chomping
  indent : Option Nat

/-- What a sign in a header says about the end. -/
def chomping? (c : Char) : Option Chomping :=
  if c == '+' then some .keep else if c == '-' then some .strip else none

/-- A digit of a header. -/
def digit? (c : Char) : Option Nat :=
  if c.isDigit then some (c.toNat - 48) else none

/-- Read the signs of a header, in either order. -/
def indicators (c : Cursor) : Header × Cursor :=
  let sign := c.peek?.bind chomping?
  let digit := c.peek?.bind digit?
  match sign, digit with
  | some s, _ =>
      match c.next.peek?.bind digit? with
      | some d => (⟨s, some d⟩, c.drop 2)
      | none => (⟨s, none⟩, c.next)
  | none, some d =>
      match c.next.peek?.bind chomping? with
      | some s => (⟨s, some d⟩, c.drop 2)
      | none => (⟨.clip, some d⟩, c.next)
  | none, none => (⟨.clip, none⟩, c)

/-- Read a header with the rest of its line. -/
def header (c : Cursor) : Except Error (Header × Cursor) :=
  let (h, c) := indicators c
  if h.indent == some 0 || !c.atEndOr (fun ch => ch == ' ' || isBreak ch) then
    .error (.malformed .malformedHeader)
  else
    let c := c.skipComment
    if c.atEndOr isBreak then .ok (h, c.lineBreak.2) else .error (.malformed .malformedHeader)

/-- Empty lines at the beginning, with the greatest column that they reach. -/
def leadingLines : Nat → Nat → Cursor → List Char × Nat × Cursor
  | 0, widest, c => ([], widest, c)
  | fuel + 1, widest, c =>
      match c.peek? with
      | some ' ' => leadingLines fuel (max widest c.next.column) c.next
      | some ch =>
          if isBreak ch then
            let (mark, c) := c.lineBreak
            let (more, widest, c) := leadingLines fuel widest c
            (mark ++ more, widest, c)
          else ([], widest, c)
      | none => ([], widest, c)

/-- Pass over blanks up to a column. -/
def indentTo (column : Nat) (c : Cursor) : Cursor :=
  c.drop ((c.rest.take (column - c.column)).takeWhile (· == ' ')).length

/-- Empty lines before the next line of the scalar. -/
def emptyLines (indent : Nat) : Nat → Cursor → List Char × Cursor
  | 0, c => ([], c)
  | fuel + 1, c =>
      let c := indentTo indent c
      if c.isAt isBreak then
        let (mark, c) := c.lineBreak
        let (more, c) := emptyLines indent fuel c
        (mark ++ more, c)
      else ([], c)

/-- Whether the next line belongs to the scalar. -/
def goesOn (indent : Nat) (c : Cursor) : Bool :=
  c.column == indent && c.peek?.isSome

/-- The line break between two lines. -/
def joint (fold : Bool) (mark further : List Char) (wordBefore wordAfter : Bool) : List Char :=
  if fold && mark == ['\n'] && wordBefore && wordAfter then
    if further.isEmpty then [' '] else []
  else mark

/--
The lines of the scalar, given the empty lines before them, with a bound on their number.

The answer holds the text, the last line break and the empty lines behind it, and the place
behind them.
-/
def lines (fold : Bool) (indent : Nat) :
    Nat → List Char → Cursor → List Char × List Char × List Char × Cursor
  | 0, before, c => ([], [], before, c)
  | fuel + 1, before, c =>
      let (line, afterLine) := c.span fun ch => !isBreak ch
      let (mark, afterMark) := afterLine.lineBreak
      let (further, after) := emptyLines indent (afterMark.rest.length + 1) afterMark
      if goesOn indent after then
        let between := joint fold mark further (!c.isAt isGap) (!after.isAt isGap)
        let (more, last, trailing, c) := lines fold indent fuel further after
        (before ++ line ++ between ++ more, last, trailing, c)
      else (before ++ line, mark, further, after)

/-- Read a block scalar at its indicator; its lines reach at least the given column. -/
def read (fold : Bool) (least : Nat) (c : Cursor) : Except Error (List Char × Cursor) :=
  match header c.next with
  | .error e => .error e
  | .ok (h, c) =>
      let least := max 1 least
      let (before, indent, c) :=
        match h.indent with
        | some n =>
            let indent := least + n - 1
            let (breaks, c) := emptyLines indent (c.rest.length + 1) c
            (breaks, indent, c)
        | none =>
            let (breaks, widest, c) := leadingLines (c.rest.length + 1) 0 c
            (breaks, max least widest, c)
      let (text, last, trailing, c) :=
        if goesOn indent c then lines fold indent (c.rest.length + 1) before c
        else ([], [], before, c)
      let ending :=
        match h.chomping with
        | .strip => []
        | .clip => last
        | .keep => last ++ trailing
      .ok (text ++ ending, c)

end IndexedMail.Yaml.Block
