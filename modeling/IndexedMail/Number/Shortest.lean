import IndexedMail.Number.Binary64
import IndexedMail.Text.Numeral

/-!
# Shortest decimal text

The decimal with the fewest digits that reads back as the same double-precision number, and of
those the nearest one.  It is written positionally when the point falls near its digits, with an
exponent otherwise.
-/

namespace IndexedMail.Number.Shortest

/-- The numbers that round to a given positive one: a point and two ends over one denominator. -/
structure Interval where
  low : Nat
  point : Nat
  high : Nat
  denominator : Nat
  closed : Bool
  deriving Repr

/-- The interval of a significand and an exponent. -/
def interval (m : Nat) (e : Int) : Interval :=
  let below := if m = binaryPower 52 ∧ Binary64.minExponent < e then 1 else 2
  let (scale, denominator) :=
    match e with
    | .ofNat k => (binaryPower k, 4)
    | .negSucc k => (1, 4 * binaryPower (k + 1))
  { low := (4 * m - below) * scale
    point := 4 * m * scale
    high := (4 * m + 2) * scale
    denominator := denominator
    closed := m % 2 = 0 }

/-- The factors that a number over a denominator is multiplied with to count in tens. -/
def tenFactors (exponent : Int) : Nat × Nat :=
  match exponent with
  | .ofNat k => (1, decimalPower k)
  | .negSucc k => (decimalPower (k + 1), 1)

/-- Whether `10 ^ exponent` is at most the point of the interval. -/
def reaches (i : Interval) (exponent : Int) : Bool :=
  let (up, down) := tenFactors exponent
  decide (i.denominator * down ≤ i.point * up)

/-- The exponent of the leading decimal digit. -/
def leadingExponent (i : Interval) : Int :=
  let bits : Int := Int.ofNat i.point.log2 - Int.ofNat i.denominator.log2
  let guess := bits * 30103 / 100000
  if reaches i (guess + 1) then guess + 1
  else if reaches i guess then guess
  else guess - 1

/-- Whether a multiple of a power of ten lies in the interval. -/
def contains (i : Interval) (multiple : Nat) (exponent : Int) : Bool :=
  let (up, down) := tenFactors exponent
  let value := multiple * i.denominator * down
  if i.closed then decide (i.low * up ≤ value) && decide (value ≤ i.high * up)
  else decide (i.low * up < value) && decide (value < i.high * up)

/-- The multiple of a power of ten in the interval that is nearest to the point, if there is one. -/
def nearest? (i : Interval) (exponent : Int) : Option Nat :=
  let (up, down) := tenFactors exponent
  let unit := i.denominator * down
  let lower := i.point * up / unit
  let remainder := i.point * up % unit
  let upper := lower + 1
  match contains i lower exponent, contains i upper exponent with
  | true, true =>
      if 2 * remainder < unit then some lower
      else if unit < 2 * remainder then some upper
      else if lower % 2 = 0 then some lower
      else some upper
  | true, false => some lower
  | false, true => some upper
  | false, false => none

/-- The first hit on finer and finer decimal grids, with the exponent of its last digit. -/
def search (i : Interval) (lead : Int) : Nat → Nat → Nat × Int
  | 0, _ => (0, 0)
  | tries + 1, count =>
      let exponent := lead - Int.ofNat count
      match nearest? i exponent with
      | some digits => (digits, exponent)
      | none => search i lead tries (count + 1)

/-- Digits and exponent of the last digit for a positive number. -/
def digits (m : Nat) (e : Int) : Nat × Int :=
  let i := interval m e
  search i (leadingExponent i) 18 0

/-- Where positional notation ends: the exponents of the leading digit that still have it. -/
def positionalFrom : Int := -4

/-- The first exponent of the leading digit that is too large for positional notation. -/
def positionalBelow : Int := 16

def dropTrailingZeros (ds : List Char) : List Char :=
  (ds.reverse.dropWhile (· == '0')).reverse

/-- Write digits with the given exponent of the leading one. -/
def layout (ds : List Char) (lead : Int) : List Char :=
  if positionalFrom ≤ lead ∧ lead < positionalBelow then
    match lead with
    | .ofNat k =>
        let whole := (ds ++ List.replicate (k + 1 - ds.length) '0').take (k + 1)
        let fraction := ds.drop (k + 1)
        whole ++ '.' :: (if fraction.isEmpty then ['0'] else fraction)
    | .negSucc k => '0' :: '.' :: (List.replicate k '0' ++ ds)
  else
    let mantissa :=
      match ds with
      | [] => []
      | [d] => [d]
      | d :: more => d :: '.' :: more
    let size := Text.Numeral.ofNat lead.natAbs
    let padded := if size.length < 2 then '0' :: size else size
    mantissa ++ 'e' :: (if lead < 0 then '-' else '+') :: padded

/-- The text of a positive number, or of zero. -/
def magnitude (m : Nat) (e : Int) : List Char :=
  if m = 0 then ['0', '.', '0']
  else
    let (n, last) := digits m e
    let ds := Text.Numeral.ofNat n
    layout (dropTrailingZeros ds) (last + Int.ofNat (ds.length - 1))

end IndexedMail.Number.Shortest

namespace IndexedMail.Number

/-- The text of a double-precision number. -/
def Binary64.text : Binary64 → String
  | .nan => "nan"
  | .infinite negative => if negative then "-inf" else "inf"
  | .finite negative m e =>
      let body := Shortest.magnitude m e
      String.ofList (if negative then '-' :: body else body)

end IndexedMail.Number
