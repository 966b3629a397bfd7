import IndexedMail.Yaml.Token.Block
import IndexedMail.Yaml.Token.Name
import IndexedMail.Yaml.Token.Plain

/-!
# Streams of tokens

A text is cut into tokens from left to right.  Whether a token is a key shows only at the colon
behind it, so the reader remembers the places where a key may have begun and puts the marks of
keys and of block mappings in afterwards.
-/

namespace IndexedMail.Yaml

/-- The tokens of a text, and the error that stopped the reading if it did not reach the end. -/
structure Stream where
  tokens : List Token
  stop : Option Error
  deriving DecidableEq, Repr

namespace Stream

/-- A place where a key may have begun. -/
structure Candidate where
  depth : Nat
  position : Nat
  required : Bool
  index : Nat
  line : Nat
  column : Nat
  deriving DecidableEq, Repr

/--
The state of the reader.

The tokens stand in reverse and are counted, the columns of the open block collections stand from
the innermost to the outermost, and the depth counts the open flow collections.  There are fewer
lines than the bound says.
-/
structure State where
  bound : Nat
  cursor : Cursor
  depth : Nat
  columns : List Nat
  keyAllowed : Bool
  candidates : List Candidate
  tokens : List Token
  count : Nat
  deriving Repr

/-- The most characters that a key may have. -/
def maxKeyLength : Nat := 1024

namespace State

/-- The state before a text. -/
def start (cs : List Char) : State :=
  { bound := cs.length + 2
    cursor := Cursor.start cs
    depth := 0
    columns := []
    keyAllowed := true
    candidates := []
    tokens := []
    count := 0 }

/-- Whether the place is inside a flow collection. -/
def inFlow (s : State) : Bool :=
  s.depth != 0

/-- Add a token. -/
def emit (t : Token) (s : State) : State :=
  { s with tokens := t :: s.tokens, count := s.count + 1 }

/-- Put a token at an earlier position. -/
def emitAt (position : Nat) (t : Token) (s : State) : State :=
  let behind := s.count - position
  { s with
    tokens := s.tokens.take behind ++ t :: s.tokens.drop behind
    count := s.count + 1 }

/-- The column that the lines of a nested scalar must reach. -/
def innerColumn (s : State) : Nat :=
  match s.columns with
  | [] => 0
  | column :: _ => column + 1

/-- Whether a candidate can no longer be a key: its line is over, or it is too long. -/
def isStale (s : State) (k : Candidate) : Bool :=
  k.line != s.cursor.line || decide (maxKeyLength < s.cursor.index - k.index)

/-- Forget the candidates of a kind; one that has to be a key must not be forgotten. -/
def forget (gone : Candidate → Bool) (s : State) : Except Error State :=
  if s.candidates.any fun k => gone k && k.required then .error (.malformed .missingColon)
  else .ok { s with candidates := s.candidates.filter fun k => !gone k }

/-- Forget the candidates that can no longer be keys. -/
def forgetStale (s : State) : Except Error State :=
  s.forget s.isStale

/-- Forget the candidate at this depth. -/
def forgetHere (s : State) : Except Error State :=
  s.forget fun k => k.depth == s.depth

/-- Remember that a key may begin here, if one is allowed here. -/
def remember (s : State) : Except Error State :=
  if !s.keyAllowed then .ok s
  else do
    let s ← s.forgetHere
    let k : Candidate :=
      { depth := s.depth
        position := s.count
        required := !s.inFlow && s.columns.head? == some s.cursor.column
        index := s.cursor.index
        line := s.cursor.line
        column := s.cursor.column }
    pure { s with candidates := k :: s.candidates }

/-- Close the block collections that lie deeper than a condition on their columns allows. -/
def closeBlocks (deeper : Nat → Bool) (s : State) : State :=
  if s.inFlow then s
  else
    let closed := s.columns.takeWhile deeper
    closed.foldl (fun s _ => s.emit .blockEnd)
      { s with columns := s.columns.drop closed.length }

/-- Whether a block collection begins at a column. -/
def opensAt (s : State) (column : Nat) : Bool :=
  match s.columns with
  | [] => true
  | innermost :: _ => decide (innermost < column)

/-- Open a block collection here if the column is deeper than all open ones. -/
def openBlock (t : Token) (s : State) : State :=
  if s.opensAt s.cursor.column then
    { s.emit t with columns := s.cursor.column :: s.columns }
  else s

/-- Pass over blanks, comments and line breaks, with a bound on the lines. -/
def skipLines : Nat → State → State
  | 0, s => s
  | fuel + 1, s =>
      let c := s.cursor.skipComment
      if c.isAt isBreak then
        skipLines fuel
          { s with cursor := c.lineBreak.2, keyAllowed := s.keyAllowed || !s.inFlow }
      else { s with cursor := c }

/-- Go to the next token; a byte order mark may open the text. -/
def skipToToken (s : State) : State :=
  let c := s.cursor
  let c := if c.index == 0 && c.isAt (· == byteOrderMark) then c.next else c
  skipLines s.bound { s with cursor := c }

/-- Take an indicator of the given length. -/
def take (t : Token) (length : Nat) (s : State) : State :=
  { s.emit t with cursor := s.cursor.drop length }

/-- A directive, or a mark between documents: all block collections end here. -/
def atDocument (s : State) : Except Error State := do
  let s ← (s.closeBlocks fun _ => true).forgetHere
  pure { s with keyAllowed := false }

def directive (s : State) : Except Error State := do
  let s ← s.atDocument
  let (d, c) ← Name.directive s.cursor
  pure ({ s with cursor := c }.emit (.directive d))

/-- The beginning of a flow collection, which may itself be a key. -/
def openFlow (t : Token) (s : State) : Except Error State := do
  let s ← s.remember
  pure { s.take t 1 with depth := s.depth + 1, keyAllowed := true }

/-- The end of a flow collection. -/
def closeFlow (t : Token) (s : State) : Except Error State := do
  let s ← s.forgetHere
  if s.depth == 0 then .error (.malformed .unexpectedToken)
  else pure { s.take t 1 with depth := s.depth - 1, keyAllowed := false }

/-- A comma between the entries of a flow collection. -/
def flowEntry (s : State) : Except Error State := do
  let s ← s.forgetHere
  pure { s.take .flowEntry 1 with keyAllowed := true }

/-- A mark in front of an entry of a block collection, with the beginning of the collection. -/
def blockMark (opening : Token) (s : State) : Except Error State :=
  if s.inFlow then .ok s
  else if !s.keyAllowed then .error (.malformed .misplacedIndicator)
  else .ok (s.openBlock opening)

/-- A dash in front of an entry. -/
def blockEntry (s : State) : Except Error State := do
  let s ← s.blockMark .blockSequence
  let s ← s.forgetHere
  pure { s.take .blockEntry 1 with keyAllowed := true }

/-- A question mark in front of a key. -/
def explicitKey (s : State) : Except Error State := do
  let s ← s.blockMark .blockMapping
  let s ← s.forgetHere
  pure { s.take .key 1 with keyAllowed := !s.inFlow }

/-- A colon behind a key, whose mark is put in now. -/
def valueOf (k : Candidate) (s : State) : State :=
  let s := { s with candidates := s.candidates.filter fun other => other != k }
  let s := s.emitAt k.position .key
  let s :=
    if !s.inFlow && s.opensAt k.column then
      { s.emitAt k.position .blockMapping with columns := k.column :: s.columns }
    else s
  { s.take .value 1 with keyAllowed := false }

/-- A colon, behind a key or by itself. -/
def value (s : State) : Except Error State :=
  match s.candidates.find? fun k => k.depth == s.depth with
  | some k => .ok (s.valueOf k)
  | none => do
      let s ← s.blockMark .blockMapping
      pure { s.take .value 1 with keyAllowed := !s.inFlow }

/-- A token that may be a key or the beginning of one, read by the given function. -/
def keyLike (read : Cursor → Except Error (Token × Cursor)) (s : State) : Except Error State := do
  let s ← s.remember
  let (t, c) ← read s.cursor
  pure ({ s with cursor := c, keyAllowed := false }.emit t)

/-- A quoted scalar. -/
def quoted (mark : Char) (s : State) : Except Error State :=
  s.keyLike fun c => (Quoted.read mark c).map fun (cs, c) =>
    (.scalar (String.ofList cs) false, c)

/-- A block scalar. -/
def block (fold : Bool) (s : State) : Except Error State := do
  let s ← s.forgetHere
  let (cs, c) ← Block.read fold s.innerColumn s.cursor
  pure ({ s with cursor := c, keyAllowed := true }.emit (.scalar (String.ofList cs) false))

/-- A plain scalar; after a line break behind it a key may begin. -/
def plain (s : State) : Except Error State := do
  let s ← s.remember
  let (cs, c, crossed) := Plain.read s.inFlow s.innerColumn s.cursor
  pure ({ s with cursor := c, keyAllowed := crossed }.emit (.scalar (String.ofList cs) true))

/-- Whether a plain scalar begins here. -/
def startsPlain (s : State) (ch : Char) : Bool :=
  if isGap ch || isBreak ch || "-?:,[]\x7b\x7d#&*!|>'\"%@\x60".toList.contains ch then
    !s.cursor.isWordEnd 1 && (ch == '-' || (!s.inFlow && (ch == '?' || ch == ':')))
  else true

/-- Read the token that begins with the given character. -/
def token (ch : Char) (s : State) : Except Error State :=
  let c := s.cursor
  let isMark := s.inFlow || c.isWordEnd 1
  if ch == '%' && c.column == 0 then s.directive
  else if c.column == 0 && c.isMarker '-' then (s.atDocument).map (take .documentStart 3)
  else if c.column == 0 && c.isMarker '.' then (s.atDocument).map (take .documentEnd 3)
  else if ch == '[' then s.openFlow .openSequence
  else if ch == '\x7b' then s.openFlow .openMapping
  else if ch == ']' then s.closeFlow .closeSequence
  else if ch == '\x7d' then s.closeFlow .closeMapping
  else if ch == ',' then s.flowEntry
  else if ch == '-' && c.isWordEnd 1 then s.blockEntry
  else if ch == '?' && isMark then s.explicitKey
  else if ch == ':' && isMark then s.value
  else if ch == '*' then s.keyLike fun c => (Name.anchor c).map fun (n, c) => (.alias n, c)
  else if ch == '&' then s.keyLike fun c => (Name.anchor c).map fun (n, c) => (.anchor n, c)
  else if ch == '!' then s.keyLike fun c => (Name.tag c).map fun (n, c) => (.tag n, c)
  else if ch == '|' && !s.inFlow then s.block false
  else if ch == '>' && !s.inFlow then s.block true
  else if ch == '\'' || ch == '"' then s.quoted ch
  else if s.startsPlain ch then s.plain
  else .error (.malformed .strayCharacter)

/-- The state after the next token, or the last state with all collections closed. -/
def advance (s : State) : Except Error (State × Bool) := do
  let s ← s.skipToToken.forgetStale
  let s := s.closeBlocks fun column => decide (s.cursor.column < column)
  match s.cursor.peek? with
  | none => do
      let s ← s.atDocument
      pure (s, true)
  | some ch => do
      let s ← s.token ch
      pure (s, false)

/-- The number of tokens that are certain: those before every place where a key may have begun. -/
def settled (s : State) : Nat :=
  s.candidates.foldl (fun n k => min n k.position) s.count

end State

/-- All tokens from a state on, with a bound on their number. -/
def collect : Nat → State → Stream
  | 0, s => ⟨s.tokens.reverse, some (.malformed .strayCharacter)⟩
  | fuel + 1, s =>
      match s.forgetStale with
      | .error e => ⟨s.tokens.reverse, some e⟩
      | .ok s =>
          match s.advance with
          | .error e => ⟨s.tokens.reverse.take s.settled, some e⟩
          | .ok (s, true) => ⟨s.tokens.reverse, none⟩
          | .ok (s, false) => collect fuel s

def ofText (cs : List Char) : Stream :=
  let start := State.start cs
  collect start.bound start

end Stream

end IndexedMail.Yaml
