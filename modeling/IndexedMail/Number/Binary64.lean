/-!
# Double-precision numbers

Binary floating-point numbers with a significand of 53 bits, as exact values.  Every operation
here computes with whole numbers and rounds once, to the nearest number and in a tie to the even
significand.
-/

namespace IndexedMail.Number

def binaryPower (exponent : Nat) : Nat :=
  Nat.pow 2 exponent

def decimalPower (exponent : Nat) : Nat :=
  Nat.pow 10 exponent

/--
A double-precision number.

A finite number is `significand * 2 ^ exponent`.  The operations below build normal forms only:
the significand has 53 bits, or the exponent is the least one.
-/
inductive Binary64 where
  | nan
  | infinite (negative : Bool)
  | finite (negative : Bool) (significand : Nat) (exponent : Int)
  deriving DecidableEq, Repr

namespace Binary64

/-- The exponent of the smallest positive number. -/
def minExponent : Int := -1074

/-- The largest exponent of a number with a full significand. -/
def maxExponent : Int := 971

/-- The first number that is too large for a significand. -/
def significandBound : Nat := binaryPower 53

/-- The quotient rounded to the nearest whole number, in a tie to the even one. -/
def roundedQuotient (n d : Nat) : Nat :=
  let q := n / d
  let r := n % d
  if 2 * r < d then q
  else if d < 2 * r then q + 1
  else if q % 2 = 0 then q
  else q + 1

/-- Numerator and denominator of `n / d` divided by a power of two. -/
def scaled (n d : Nat) (exponent : Int) : Nat × Nat :=
  match exponent with
  | .ofNat e => (n, d * binaryPower e)
  | .negSucc e => (n * binaryPower (e + 1), d)

/-- The exponent at which the quotient `n / d` of positive numbers has a full significand. -/
def exponentFor (n d : Nat) : Int :=
  let guess : Int := Int.ofNat n.log2 - Int.ofNat d.log2 - 52
  let (a, b) := scaled n d guess
  let e := if a / b < binaryPower 52 then guess - 1 else guess
  if e < minExponent then minExponent else e

/-- The number nearest to a quotient of natural numbers. -/
def ofRatio (negative : Bool) (n d : Nat) : Binary64 :=
  if n = 0 ∨ d = 0 then .finite negative 0 minExponent
  else
    let e := exponentFor n d
    let (a, b) := scaled n d e
    let m := roundedQuotient a b
    let (m, e) := if m = significandBound then (significandBound / 2, e + 1) else (m, e)
    if maxExponent < e then .infinite negative else .finite negative m e

/-- The number nearest to a whole number. -/
def ofInt (i : Int) : Binary64 :=
  ofRatio (decide (i < 0)) i.natAbs 1

/-- The number nearest to a whole number, unless that is out of range. -/
def ofInt? (i : Int) : Option Binary64 :=
  match ofInt i with
  | finite negative m e => some (finite negative m e)
  | _ => none

/--
The number nearest to `digits * 10 ^ exponent`.

Decimals that are out of range by their order of magnitude alone are not computed with.
-/
def ofDecimal (negative : Bool) (digits : Nat) (exponent : Int) : Binary64 :=
  let magnitude : Int := Int.ofNat digits.log2 * 30103 / 100000 + exponent
  if digits = 0 then .finite negative 0 minExponent
  else if 400 < magnitude then .infinite negative
  else if magnitude < -400 then .finite negative 0 minExponent
  else
    match exponent with
    | .ofNat e => ofRatio negative (digits * decimalPower e) 1
    | .negSucc e => ofRatio negative digits (decimalPower (e + 1))

/-- The number with the opposite sign. -/
def neg : Binary64 → Binary64
  | nan => nan
  | infinite negative => infinite (!negative)
  | finite negative m e => finite (!negative) m e

/-- The number as a fraction with sign, if it is finite. -/
def toRatio? : Binary64 → Option (Bool × Nat × Nat)
  | finite negative m (.ofNat e) => some (negative, m * binaryPower e, 1)
  | finite negative m (.negSucc e) => some (negative, m, binaryPower (e + 1))
  | _ => none

/-- The whole part of a finite number, towards zero. -/
def truncate? (x : Binary64) : Option Int :=
  x.toRatio?.map fun (negative, n, d) =>
    let whole := Int.ofNat (n / d)
    if negative then -whole else whole

/-- The sum of the fractions `a / b` and `c / d` with signs; a sum of zeros keeps their sign. -/
def addRatios (s : Bool) (a b : Nat) (t : Bool) (c d : Nat) : Binary64 :=
  let left : Int := (if s then -1 else 1) * Int.ofNat (a * d)
  let right : Int := (if t then -1 else 1) * Int.ofNat (c * b)
  let sum := left + right
  ofRatio (if sum = 0 then s && t else decide (sum < 0)) sum.natAbs (b * d)

/-- The sum; opposite infinities have none. -/
def add (x y : Binary64) : Binary64 :=
  match x, y with
  | nan, _ => nan
  | _, nan => nan
  | infinite s, infinite t => if s == t then infinite s else nan
  | infinite s, _ => infinite s
  | _, infinite t => infinite t
  | x, y =>
      match x.toRatio?, y.toRatio? with
      | some (s, a, b), some (t, c, d) => addRatios s a b t c d
      | _, _ => nan

/-- Whether the number is a zero of either sign. -/
def isZero : Binary64 → Bool
  | finite _ 0 _ => true
  | _ => false

/-- Whether the number has a minus sign. -/
def isNegative : Binary64 → Bool
  | nan => false
  | infinite negative => negative
  | finite negative _ _ => negative

/-- The product; an infinity and a zero have none. -/
def mul (x y : Binary64) : Binary64 :=
  match x.toRatio?, y.toRatio? with
  | some (s, a, b), some (t, c, d) => ofRatio (s != t) (a * c) (b * d)
  | _, _ =>
      if x == nan || y == nan || x.isZero || y.isZero then nan
      else infinite (x.isNegative != y.isNegative)

/-- Whether the number equals a whole number. -/
def equalsInt (x : Binary64) (i : Int) : Bool :=
  match x.toRatio? with
  | some (negative, n, d) => (if negative then -Int.ofNat n else Int.ofNat n) == i * Int.ofNat d
  | none => false

end Binary64

end IndexedMail.Number
