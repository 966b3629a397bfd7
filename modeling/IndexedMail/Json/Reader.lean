import IndexedMail.Entries
import IndexedMail.Json.Value
import IndexedMail.Text.Percent

/-!
# Reading JSON

A reader for JSON texts, with the three constants for numbers that are no finite value.  The last
of several members of one name wins.  A failure says what was expected and where.  Arrays and
objects may be nested up to a limit, which is noticed before anything that follows.
-/

namespace IndexedMail.Json

/-- What is wrong at some place of a text. -/
inductive Defect where
  | byteOrderMark
  | noValue
  | noComma
  | noColon
  | noName
  | unterminatedString
  | controlCharacter
  | badEscape
  | badUnicodeEscape
  | extraData
  deriving DecidableEq, Repr

namespace Defect

/-- The defect in words. -/
def description : Defect → String
  | byteOrderMark => "Unexpected UTF-8 BOM (decode using utf-8-sig)"
  | noValue => "Expecting value"
  | noComma => "Expecting ',' delimiter"
  | noColon => "Expecting ':' delimiter"
  | noName => "Expecting property name enclosed in double quotes"
  | unterminatedString => "Unterminated string starting at"
  | controlCharacter => "Invalid control character at"
  | badEscape => "Invalid \\escape"
  | badUnicodeEscape => "Invalid \\uXXXX escape"
  | extraData => "Extra data"

end Defect

/-- What can be nested. -/
inductive Nest where
  | array
  | object
  deriving DecidableEq, Repr

namespace Nest

/-- What is nested, in words. -/
def description : Nest → String
  | array => "array"
  | object => "object"

end Nest

/--
Why a text is not read: a defect in front of what remains, a number that is too long, or too many
arrays and objects inside each other.
-/
inductive Failure where
  | defect (what : Defect) (remaining : List Char)
  | numeral (e : Text.Numeral.Error)
  | tooDeep (nest : Nest)

/-- Why a text is not read, with the place of a defect. -/
inductive ReadError where
  | malformed (what : Defect) (line column position : Nat)
  | numeral (e : Text.Numeral.Error)
  | tooDeep (nest : Nest)
  deriving DecidableEq, Repr

namespace ReadError

def message : ReadError → String
  | malformed what line column position =>
      what.description ++ s!": line {line} column {column} (char {position})"
  | numeral e => e.message
  | tooDeep nest =>
      s!"maximum recursion depth exceeded while decoding a JSON {nest.description} " ++
        "from a unicode string"

end ReadError

/-- Whether the character may stand between the parts of a text. -/
def isSpace (c : Char) : Bool :=
  c == ' ' || c == '\t' || c == '\n' || c == '\r'

/-- Drop the space in front of a part. -/
def skipSpace (cs : List Char) : List Char :=
  cs.dropWhile isSpace

/-- The number of four hexadecimal digits. -/
def hexQuad? (cs : List Char) : Option Nat :=
  match cs with
  | a :: b :: c :: d :: _ => do
      let w ← Text.Percent.hexValue? a
      let x ← Text.Percent.hexValue? b
      let y ← Text.Percent.hexValue? c
      let z ← Text.Percent.hexValue? d
      pure (((w * 16 + x) * 16 + y) * 16 + z)
  | _ => none

/-- Whether a code unit is the first half of a pair. -/
def isHighHalf (n : Nat) : Bool :=
  decide (0xd800 ≤ n) && decide (n < 0xdc00)

/-- Whether a code unit is the second half of a pair. -/
def isLowHalf (n : Nat) : Bool :=
  decide (0xdc00 ≤ n) && decide (n < 0xe000)

/-- What a code unit stands for: a character, or a half that stands alone. -/
def unitPoint (n : Nat) : Text.Point :=
  if isHighHalf n || isLowHalf n then .half (Fin.ofNat 2048 (n - Text.Point.firstHalf))
  else .char (Char.ofNat n)

/--
A numbered escape, from its letter `u` on: what it stands for and the number of characters taken.

The escape needs a character after its digits, and the second half of a pair counts only if there
is one after that as well.
-/
def unicodeEscape (fromU : List Char) : Except Failure (Text.Point × Nat) :=
  let digits := fromU.drop 1
  let bad : Except Failure (Text.Point × Nat) := .error (.defect .badUnicodeEscape fromU)
  if (digits.take 5).length ≤ 4 then bad
  else
    match hexQuad? digits with
    | none => bad
    | some n =>
        let after := digits.drop 4
        match after with
        | '\\' :: 'u' :: second =>
            if isHighHalf n && decide (6 < (after.take 7).length) then
              match hexQuad? second with
              | none => .error (.defect .badUnicodeEscape (after.drop 1))
              | some m =>
                  if isLowHalf m then
                    .ok (.char (Char.ofNat (0x10000 + (n - 0xd800) * 0x400 + (m - 0xdc00))), 11)
                  else .ok (unitPoint n, 5)
            else .ok (unitPoint n, 5)
        | _ => .ok (unitPoint n, 5)

/-- The character that a letter after a backslash stands for. -/
def shortEscape? (c : Char) : Option Char :=
  if c == '"' then some '"'
  else if c == '\\' then some '\\'
  else if c == '/' then some '/'
  else if c == 'b' then some '\x08'
  else if c == 'f' then some '\x0c'
  else if c == 'n' then some '\n'
  else if c == 'r' then some '\r'
  else if c == 't' then some '\t'
  else none

/--
The rest of a string literal after passing over some characters: its text and what follows the
closing mark.  The first argument is the text from the opening mark on.
-/
def stringFrom (opening : List Char) : Nat → List Char → Except Failure (Text.Wide × List Char)
  | _, [] => .error (.defect .unterminatedString opening)
  | skip + 1, _ :: rest => stringFrom opening skip rest
  | 0, c :: rest =>
      if c == '"' then .ok ([], rest)
      else if c == '\\' then
        match rest with
        | [] => .error (.defect .unterminatedString opening)
        | e :: _ =>
            if e == 'u' then
              match unicodeEscape rest with
              | .error f => .error f
              | .ok (p, taken) =>
                  (stringFrom opening taken rest).map fun (s, after) => (p :: s, after)
            else
              match shortEscape? e with
              | none => .error (.defect .badEscape (c :: rest))
              | some ch => (stringFrom opening 1 rest).map fun (s, after) => (.char ch :: s, after)
      else if c.toNat < 0x20 then .error (.defect .controlCharacter (c :: rest))
      else (stringFrom opening 0 rest).map fun (s, after) => (.char c :: s, after)

/-- Whether the character is one of the ten digits of a number literal. -/
def isDecimal (c : Char) : Bool :=
  decide ('0' ≤ c) && decide (c ≤ '9')

/-- The number that decimal digits spell. -/
def digitsValue (ds : List Char) : Nat :=
  ds.foldl (fun n c => n * 10 + (c.toNat - 48)) 0

/-- Split off a fraction: a point with a digit after it. -/
def splitFraction : List Char → List Char × List Char
  | '.' :: d :: rest =>
      if isDecimal d then ((d :: rest).takeWhile isDecimal, (d :: rest).dropWhile isDecimal)
      else ([], '.' :: d :: rest)
  | cs => ([], cs)

/-- Split off an exponent: its sign and digits, if there are digits. -/
def splitExponent (cs : List Char) : Option (Bool × List Char) × List Char :=
  match cs with
  | e :: rest =>
      if e == 'e' || e == 'E' then
        let (negative, body) :=
          match rest with
          | '-' :: more => (true, more)
          | '+' :: more => (false, more)
          | _ => (false, rest)
        let ds := body.takeWhile isDecimal
        if ds.isEmpty then (none, cs) else (some (negative, ds), body.dropWhile isDecimal)
      else (none, cs)
  | [] => (none, [])

/-- A number literal without its sign, in front of which `start` begins. -/
def number (start : List Char) (negative : Bool) (cs : List Char) :
    Except Failure (Json × List Char) :=
  let split : Option (List Char × List Char) :=
    match cs with
    | '0' :: rest => some (['0'], rest)
    | d :: _ =>
        if isDecimal d then some (cs.takeWhile isDecimal, cs.dropWhile isDecimal) else none
    | [] => none
  match split with
  | none => .error (.defect .noValue start)
  | some (whole, rest) =>
      let (fraction, rest) := splitFraction rest
      let (exponent, rest) := splitExponent rest
      if fraction.isEmpty && exponent.isNone then
        match Text.Numeral.readDigits whole with
        | .error e => .error (.numeral e)
        | .ok n => .ok (int (if negative then -Int.ofNat n else Int.ofNat n), rest)
      else
        let power : Int :=
          match exponent with
          | none => 0
          | some (down, ds) => if down then -Int.ofNat (digitsValue ds) else digitsValue ds
        let digits := digitsValue (whole ++ fraction)
        let x := Number.Binary64.ofDecimal negative digits (power - Int.ofNat fraction.length)
        .ok (float x, rest)

/-- What follows a word, if the text begins with it. -/
def afterWord? : List Char → List Char → Option (List Char)
  | [], rest => some rest
  | _ :: _, [] => none
  | w :: ws, c :: rest => if w == c then afterWord? ws rest else none

/-- The constants with their values. -/
def constants : List (List Char × Json) :=
  [("null".toList, null), ("true".toList, bool true), ("false".toList, bool false),
   ("NaN".toList, float .nan), ("Infinity".toList, float (.infinite false)),
   ("-Infinity".toList, float (.infinite true))]

/-- A constant or a number. -/
def atom (cs : List Char) : Except Failure (Json × List Char) :=
  match constants.findSome? fun (word, value) => (afterWord? word cs).map (value, ·) with
  | some found => .ok found
  | none =>
      match cs with
      | '-' :: rest => number cs true rest
      | _ => number cs false cs

mutual

/--
A value in front of other text, with the number of levels that may be opened, and a bound on the
steps.
-/
def valueFuel : Nat → Nat → List Char → Except Failure (Json × List Char)
  | 0, _, cs => .error (.defect .noValue cs)
  | fuel + 1, levels, cs =>
      match cs with
      | [] => .error (.defect .noValue [])
      | c :: rest =>
          if c == '"' then (stringFrom cs 0 rest).map fun (s, after) =>
            (string s, after)
          else if c == '[' then
            match levels with
            | 0 => .error (.tooDeep .array)
            | inner + 1 =>
                match skipSpace rest with
                | ']' :: after => .ok (array [], after)
                | body =>
                    (itemsFuel fuel inner body).map fun (items, after) => (array items, after)
          else if c == '\x7b' then
            match levels with
            | 0 => .error (.tooDeep .object)
            | inner + 1 =>
                match skipSpace rest with
                | '\x7d' :: after => .ok (object [], after)
                | body =>
                    (membersFuel fuel inner body []).map fun (ms, after) => (object ms, after)
          else atom cs

/-- The items of an array from one of them on. -/
def itemsFuel : Nat → Nat → List Char → Except Failure (List Json × List Char)
  | 0, _, cs => .error (.defect .noValue cs)
  | fuel + 1, levels, cs =>
      match valueFuel fuel levels cs with
      | .error f => .error f
      | .ok (item, rest) =>
          match skipSpace rest with
          | ']' :: after => .ok ([item], after)
          | ',' :: more =>
              (itemsFuel fuel levels (skipSpace more)).map fun (items, after) =>
                (item :: items, after)
          | other => .error (.defect .noComma other)

/-- The members of an object from one of them on, behind those already read. -/
def membersFuel : Nat → Nat → List Char → List (Text.Wide × Json) →
    Except Failure (List (Text.Wide × Json) × List Char)
  | 0, _, cs, _ => .error (.defect .noValue cs)
  | fuel + 1, levels, cs, done =>
      match cs with
      | '"' :: rest =>
          match stringFrom cs 0 rest with
          | .error f => .error f
          | .ok (name, rest) =>
              match skipSpace rest with
              | ':' :: rest =>
                  match valueFuel fuel levels (skipSpace rest) with
                  | .error f => .error f
                  | .ok (value, rest) =>
                      let done := Entries.insert name value done
                      match skipSpace rest with
                      | '\x7d' :: after => .ok (done, after)
                      | ',' :: more => membersFuel fuel levels (skipSpace more) done
                      | other => .error (.defect .noComma other)
              | other => .error (.defect .noColon other)
      | other => .error (.defect .noName other)

end

/-- A whole text within some levels, with failures that still hold what remains. -/
def readText (levels : Nat) (cs : List Char) : Except Failure Json :=
  if cs.head? == some (Char.ofNat 0xfeff) then .error (.defect .byteOrderMark cs)
  else
    match valueFuel (2 * cs.length + 2) levels (skipSpace cs) with
    | .error f => .error f
    | .ok (value, rest) =>
        match skipSpace rest with
        | [] => .ok value
        | extra => .error (.defect .extraData extra)

/-- The place of a defect: line and column from one, position from nought. -/
def locate (cs remaining : List Char) : Nat × Nat × Nat :=
  let before := cs.take (cs.length - remaining.length)
  let line := before.count '\n' + 1
  let column := (before.reverse.takeWhile (· != '\n')).length + 1
  (line, column, before.length)

/-- Read a JSON text with at most the given number of levels. -/
def read (levels : Nat) (cs : List Char) : Except ReadError Json :=
  match readText levels cs with
  | .ok value => .ok value
  | .error (.numeral e) => .error (.numeral e)
  | .error (.tooDeep nest) => .error (.tooDeep nest)
  | .error (.defect what remaining) =>
      let (line, column, position) := locate cs remaining
      .error (.malformed what line column position)

end IndexedMail.Json
