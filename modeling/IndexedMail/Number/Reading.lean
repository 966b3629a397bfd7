import IndexedMail.Number.Binary64
import IndexedMail.Text.Numeral

/-!
# Reading double-precision numbers

A sign, decimal digits of any script with or without a point, an exponent, and blanks around the
whole; or one of the words for what is not finite.
-/

namespace IndexedMail.Number.Binary64

open Text.Numeral (ofDigits splitSign isMargin)

/-- Whether the character is a decimal digit of some script. -/
def isDecimalDigit (c : Char) : Bool :=
  (Text.digitValue? c).isSome

/-- The exponent at the end of a number. -/
def exponent? (cs : List Char) : Option Int :=
  match cs with
  | [] => some 0
  | c :: rest =>
      if c != 'e' && c != 'E' then none
      else
        let (negative, digits) := splitSign rest
        if digits.isEmpty || !digits.all isDecimalDigit then none
        else
          let n := Int.ofNat (ofDigits digits)
          some (if negative then -n else n)

/-- Read a number without its sign. -/
def readMagnitude? (negative : Bool) (cs : List Char) : Option Binary64 :=
  let whole := cs.takeWhile isDecimalDigit
  let rest := cs.drop whole.length
  let (fraction, rest) :=
    match rest with
    | '.' :: more => (more.takeWhile isDecimalDigit, more.dropWhile isDecimalDigit)
    | _ => ([], rest)
  if whole.isEmpty && fraction.isEmpty then none
  else
    (exponent? rest).map fun e =>
      ofDecimal negative (ofDigits (whole ++ fraction)) (e - Int.ofNat fraction.length)

def read? (cs : List Char) : Option Binary64 :=
  let core := ((cs.dropWhile isMargin).reverse.dropWhile isMargin).reverse
  let (negative, body) := splitSign core
  let word := String.ofList (body.map Char.toLower)
  if word == "inf" || word == "infinity" then some (infinite negative)
  else if word == "nan" then some nan
  else readMagnitude? negative body

end IndexedMail.Number.Binary64
