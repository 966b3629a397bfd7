import IndexedMail.Number.Reading
import IndexedMail.Text.Case
import IndexedMail.Yaml.Error
import IndexedMail.Yaml.Tag

/-!
# Reading scalars

The value that the text of a scalar denotes once its kind is known.
-/

namespace IndexedMail.Yaml.Scalar

/-- The truth value of a word; capitals do not matter. -/
def truth (cs : List Char) : Except Error Yaml :=
  let word := Text.lowercase (String.ofList cs)
  if word == "yes" || word == "true" || word == "on" then .ok (.bool true)
  else if word == "no" || word == "false" || word == "off" then .ok (.bool false)
  else .error (.notTruth word)

/-- The sign of a number and the rest of it, without underscores. -/
def signed (cs : List Char) : Except Error (Bool × List Char) :=
  match cs.filter (· != '_') with
  | [] => .error .emptyNumeral
  | c :: rest =>
      if c == '-' then .ok (true, rest)
      else if c == '+' then .ok (false, rest)
      else .ok (false, c :: rest)

/-- Read a numeral in a base. -/
def numeral (base : Nat) (cs : List Char) : Except Error Int :=
  match Text.Numeral.readIn base cs with
  | .error e => .error (.numeral e)
  | .ok n => .ok n

/-- The value of digits of base sixty, of which the first is the highest. -/
def sexagesimalInt : Int → List (List Char) → Except Error Int
  | acc, [] => .ok acc
  | acc, part :: more =>
      match numeral 10 part with
      | .error e => .error e
      | .ok n => sexagesimalInt (acc * 60 + n) more

/-- The value of a whole number without its sign; the base shows at the beginning. -/
def magnitude (cs : List Char) : Except Error Int :=
  match cs with
  | [] => .error .emptyNumeral
  | ['0'] => .ok 0
  | '0' :: 'b' :: ds => numeral 2 ds
  | '0' :: 'x' :: ds => numeral 16 ds
  | '0' :: _ => numeral 8 cs
  | _ => if cs.contains ':' then sexagesimalInt 0 (Tag.splitColons cs) else numeral 10 cs

/-- The whole number that a text denotes. -/
def int (cs : List Char) : Except Error Yaml := do
  let (negative, body) ← signed cs
  let n ← magnitude body
  pure (.int (if negative then -n else n))

/-- The number with a point that a text spells. -/
def decimal (cs : List Char) : Except Error Number.Binary64 :=
  match Number.Binary64.read? cs with
  | some x => .ok x
  | none => .error (.notFloat (String.ofList cs))

/-- The numbers that texts spell. -/
def decimals : List (List Char) → Except Error (List Number.Binary64)
  | [] => .ok []
  | part :: more =>
      match decimal part with
      | .error e => .error e
      | .ok x => (decimals more).map (x :: ·)

/--
The value of digits of base sixty, of which the first is the lowest, added up in this order.

Every power of sixty that is needed has to be in range, whatever the digit is.
-/
def sexagesimalFloat (power : Nat) (acc : Number.Binary64) :
    List Number.Binary64 → Except Error Number.Binary64
  | [] => .ok acc
  | x :: more =>
      match Number.Binary64.ofInt? (Int.ofNat power) with
      | none => .error .sixtyTooLarge
      | some scale => sexagesimalFloat (power * 60) (acc.add (x.mul scale)) more

/-- The number that a text denotes. -/
def float (cs : List Char) : Except Error Yaml := do
  let (negative, body) ← signed (Text.lowercase (String.ofList cs)).toList
  let sign : Number.Binary64 → Yaml := fun x => .float (if negative then x.neg else x)
  if body == ".inf".toList then pure (.float (.infinite negative))
  else if body == ".nan".toList then pure (.float .nan)
  else if body.contains ':' then
    let parts ← decimals (Tag.splitColons body)
    let x ← sexagesimalFloat 1 (Number.Binary64.ofInt 0) parts.reverse
    pure (sign x)
  else
    let x ← decimal body
    pure (sign x)

/-- Whether a text is a spelling of the one not-a-number that all such spellings stand for. -/
def isSharedNan (text : String) : Bool :=
  match signed (Text.lowercase text).toList with
  | .ok (_, body) => body == ".nan".toList
  | .error _ => false

/-- The value of a digit of base sixty-four. -/
def sextet? (c : Char) : Option Nat :=
  let n := c.toNat
  if c.isUpper then some (n - 65)
  else if c.isLower then some (n - 71)
  else if c.isDigit then some (n + 4)
  else if c == '+' then some 62
  else if c == '/' then some 63
  else none

/--
The bytes of a text in base sixty-four; characters that are no digits are passed over.

The arguments are the number of digits since the last full group, the bits that have not become
a byte, and the number of closing signs in a row.
-/
def base64 : Nat → Nat → Nat → List Char → Option (List UInt8)
  | 0, _, _, [] => some []
  | _ + 1, _, _, [] => none
  | quad, bits, pads, c :: rest =>
      if c == '=' then
        if 2 ≤ quad ∧ 4 ≤ quad + pads + 1 then some [] else base64 quad bits (pads + 1) rest
      else
        match sextet? c with
        | none => base64 quad bits pads rest
        | some d =>
            match quad with
            | 0 => base64 1 d 0 rest
            | 1 => (base64 2 (d % 16) 0 rest).map (UInt8.ofNat (bits * 4 + d / 16) :: ·)
            | 2 => (base64 3 (d % 4) 0 rest).map (UInt8.ofNat (bits * 16 + d / 4) :: ·)
            | _ => (base64 0 0 0 rest).map (UInt8.ofNat (bits * 64 + d) :: ·)

/-- The bytes that a text denotes. -/
def binary (cs : List Char) : Except Error Yaml :=
  if cs.any fun c => decide (127 < c.toNat) then .error (.malformed .malformedBase64)
  else
    match base64 0 0 0 cs with
    | some content => .ok (.bytes content)
    | none => .error (.malformed .malformedBase64)

/-- The day or the moment that a text denotes. -/
def timestamp (cs : List Char) : Except Error Yaml :=
  match Timestamp.parts? cs with
  | none => .error .notMoment
  | some p =>
      match Timestamp.value p with
      | .error e => .error (.calendar e)
      | .ok v => .ok v

/-- The value of a scalar of a kind. -/
def read (tag : Tag) (text : String) : Except Error Yaml :=
  let cs := text.toList
  match tag with
  | .string => .ok (.string text)
  | .null => .ok .null
  | .bool => truth cs
  | .int => int cs
  | .float => float cs
  | .binary => binary cs
  | .timestamp => timestamp cs
  | .sequence => .error (.malformed .wrongKind)
  | .mapping => .error (.malformed .wrongKind)
  | .set => .error (.malformed .wrongKind)
  | .orderedMapping => .error (.malformed .wrongKind)
  | .pairs => .error (.malformed .wrongKind)
  | .merge => .error (.malformed .unknownTag)
  | .value => .error (.malformed .unknownTag)
  | .other => .error (.malformed .unknownTag)

end IndexedMail.Yaml.Scalar
