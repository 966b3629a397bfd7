import IndexedMail.Text.Utf8
import IndexedMail.Yaml.Token
import IndexedMail.Yaml.Token.Quoted

/-!
# Names, tags and directives

The tokens that consist of an indicator and a name behind it.
-/

namespace IndexedMail.Yaml.Name

/-- Whether the character may be part of the name of an anchor, a handle or a directive. -/
def isNameChar (c : Char) : Bool :=
  c.isAlphanum || c == '-' || c == '_'

def endsAnchor (c : Char) : Bool :=
  isGap c || isBreak c || "?:,]\x7d%@\x60".toList.contains c

/-- The name of an anchor or an alias, at its indicator. -/
def anchor (c : Cursor) : Except Error (String × Cursor) :=
  let (name, c) := c.next.span isNameChar
  if name.isEmpty || !c.atEndOr endsAnchor then .error (.malformed .malformedName)
  else .ok (String.ofList name, c)

/-- Whether the character may be part of a tag. -/
def isTagChar (c : Char) : Bool :=
  c.isAlphanum || "-;/?:@&=+$,_.!~*'()[]".toList.contains c

/-- Characters that are written as bytes, with a bound on their number. -/
def escapedBytes : Nat → Cursor → Except Error (List UInt8 × Cursor)
  | 0, c => .ok ([], c)
  | fuel + 1, c =>
      match c.rest with
      | '%' :: a :: b :: _ =>
          if Quoted.isHexDigit a && Quoted.isHexDigit b then
            (escapedBytes fuel (c.drop 3)).map fun (more, c) =>
              (UInt8.ofNat (Quoted.ofHex [a, b]) :: more, c)
          else .error (.malformed .malformedTag)
      | '%' :: _ => .error (.malformed .malformedTag)
      | _ => .ok ([], c)

/-- A tag from a place on, with a bound on the runs of escapes. -/
def tagText : Nat → Cursor → Except Error (List Char × Cursor)
  | 0, c => .ok ([], c)
  | fuel + 1, c =>
      let (run, c) := c.span isTagChar
      if c.isAt (· == '%') then do
        let (bytes, c) ← escapedBytes (c.rest.length + 1) c
        match Text.Utf8.decode bytes with
        | .error _ => .error (.malformed .malformedTag)
        | .ok chars =>
            let (more, c) ← tagText fuel c
            pure (run ++ chars ++ more, c)
      else .ok (run, c)

/-- A tag or the beginning of one; something has to stand there. -/
def tagSuffix (c : Cursor) : Except Error (String × Cursor) :=
  if c.isAt fun ch => isTagChar ch || ch == '%' then
    (tagText (c.rest.length + 1) c).map fun (cs, c) => (String.ofList cs, c)
  else .error (.malformed .malformedTag)

/-- The handle of a tag, at its first exclamation mark. -/
def handle (c : Cursor) : Except Error (String × Cursor) :=
  if !c.isAt (· == '!') then .error (.malformed .malformedTag)
  else if c.next.isAt (· == ' ') then .ok ("!", c.next)
  else
    let (name, after) := c.next.span isNameChar
    if after.isAt (· == '!') then .ok (String.ofList ('!' :: (name ++ ['!'])), after.next)
    else .error (.malformed .malformedTag)

/-- Whether the character ends a tag or a value of a directive. -/
def isBlankOrBreak (c : Char) : Bool :=
  c == ' ' || isBreak c

/-- Whether another exclamation mark comes before the next blank. -/
def hasHandle (c : Cursor) : Bool :=
  (c.rest.takeWhile fun ch => !isBlankOrBreak ch).contains '!'

/-- Read a tag at its exclamation mark, without a look at what follows it. -/
def tagName (c : Cursor) : Except Error (TagName × Cursor) :=
  let inner := c.next
  if inner.isAt (· == '<') then do
    let (suffix, c) ← tagSuffix (c.drop 2)
    if c.isAt (· == '>') then pure (⟨none, suffix⟩, c.next)
    else .error (.malformed .malformedTag)
  else if inner.isWordEnd 0 then .ok (⟨none, "!"⟩, inner)
  else do
    let (name, c) ← if hasHandle inner then handle c else .ok ("!", inner)
    let (suffix, c) ← tagSuffix c
    pure (⟨some name, suffix⟩, c)

/-- Read a tag at its exclamation mark; a blank or the end of the line has to follow. -/
def tag (c : Cursor) : Except Error (TagName × Cursor) :=
  match tagName c with
  | .error e => .error e
  | .ok (name, c) =>
      if c.atEndOr isBlankOrBreak then .ok (name, c) else .error (.malformed .malformedTag)

/-- A number in a version. -/
def versionNumber (c : Cursor) : Except Error (Nat × Cursor) :=
  let (digits, c) := c.span Char.isDigit
  if digits.isEmpty then .error (.malformed .malformedDirective)
  else
    match Text.Numeral.readDigits digits with
    | .error e => .error (.numeral e)
    | .ok n => .ok (n, c)

/-- A version: two numbers with a point between them. -/
def version (c : Cursor) : Except Error (Directive × Cursor) := do
  let (major, c) ← versionNumber (c.skip (· == ' '))
  if !c.isAt (· == '.') then .error (.malformed .malformedDirective)
  else
    let (_, c) ← versionNumber c.next
    if c.atEndOr isBlankOrBreak then pure (.version major, c)
    else .error (.malformed .malformedDirective)

/-- The meaning of a handle. -/
def handleMeaning (c : Cursor) : Except Error (Directive × Cursor) := do
  let (name, c) ← handle (c.skip (· == ' '))
  if !c.isAt (· == ' ') then .error (.malformed .malformedDirective)
  else
    let (beginning, c) ← tagSuffix (c.skip (· == ' '))
    if c.atEndOr isBlankOrBreak then pure (.handle name beginning, c)
    else .error (.malformed .malformedDirective)

/-- What stands behind the name of a directive. -/
def directiveValue (name : List Char) (c : Cursor) : Except Error (Directive × Cursor) :=
  if name == "YAML".toList then version c
  else if name == "TAG".toList then handleMeaning c
  else .ok (.other, c.skip fun ch => !isBreak ch)

/-- Read a directive with its line, at its indicator. -/
def directive (c : Cursor) : Except Error (Directive × Cursor) :=
  let (name, c) := c.next.span isNameChar
  if name.isEmpty || !c.atEndOr isBlankOrBreak then .error (.malformed .malformedDirective)
  else do
    let (d, c) ← directiveValue name c
    let c := c.skipComment
    if c.atEndOr isBreak then pure (d, c.lineBreak.2)
    else .error (.malformed .malformedDirective)

end IndexedMail.Yaml.Name
