import IndexedMail.Text.Blank
import IndexedMail.Text.Digit
import IndexedMail.Text.Quoted

/-!
# Numerals

Whole numbers as text.  Reading takes the digits of any script, a sign, single underscores
between digits and blanks around the whole; a numeral with too many digits is refused before
anything that follows it is looked at.  A number that would need too many digits is not written
either, where it comes from a source without such a limit.
-/

namespace IndexedMail.Text.Numeral

/-- The most digits a decimal numeral may have. -/
def maxDigits : Nat := 4300

/-- Why a text is not read as a whole number, or a number not written as text. -/
inductive Error where
  | malformed (base : Nat) (text : String)
  | tooLong (digits : Nat)
  | tooLarge
  deriving DecidableEq, Repr

namespace Error

/-- The reason in words; a quoted text is cut after two hundred characters. -/
def message : Error → String
  | malformed base text =>
      s!"invalid literal for int() with base {base}: " ++
        String.ofList ((Quoted.encode text.toList).take 200)
  | tooLong digits =>
      s!"Exceeds the limit ({maxDigits} digits) for integer string conversion: " ++
        s!"value has {digits} digits; use sys.set_int_max_str_digits() to increase the limit"
  | tooLarge =>
      s!"Exceeds the limit ({maxDigits} digits) for integer string conversion; " ++
        "use sys.set_int_max_str_digits() to increase the limit"

end Error

/-- The number that a list of digit values spells in a base. -/
def ofValues (base : Nat) (values : List Nat) : Nat :=
  values.foldl (fun n d => n * base + d) 0

/-- The value of a digit in a base of up to thirty-six. -/
def digitIn? (base : Nat) (c : Char) : Option Nat :=
  let n := c.toNat
  let value :=
    match digitValue? c with
    | some d => some d
    | none =>
        if 97 ≤ n ∧ n ≤ 122 then some (n - 87)
        else if 65 ≤ n ∧ n ≤ 90 then some (n - 55)
        else none
  value.filter (· < base)

/-- The number that decimal digits spell; what is no digit counts as zero. -/
def ofDigits (ds : List Char) : Nat :=
  ofValues 10 (ds.map fun c => (digitValue? c).getD 0)

/-- Read a run of decimal digits, if it is not too long. -/
def readDigits (ds : List Char) : Except Error Nat :=
  if maxDigits < ds.length then .error (.tooLong ds.length) else .ok (ofDigits ds)

/-- Whether the character may surround a numeral: a blank other than the four separators. -/
def isMargin (c : Char) : Bool :=
  isBlank c && !(decide (0x1c ≤ c.toNat) && decide (c.toNat ≤ 0x1f))

/--
Cut off the longest run of digits and underscores, given the last character before it.

The answer holds the digit values and the rest, or nothing if two underscores meet or the run
ends in one.
-/
def digitRun (base : Nat) (last : Char) : List Char → Option (List Nat × List Char)
  | [] => if last == '_' then none else some ([], [])
  | c :: rest =>
      match digitIn? base c with
      | some d => (digitRun base c rest).map fun (ds, tail) => (d :: ds, tail)
      | none =>
          if c == '_' then
            if last == '_' then none else digitRun base c rest
          else if last == '_' then none
          else some ([], c :: rest)

/-- The sign and what follows it. -/
def splitSign : List Char → Bool × List Char
  | '-' :: rest => (true, rest)
  | '+' :: rest => (false, rest)
  | cs => (false, cs)

/-- Drop a base mark such as `0x` and one underscore after it. -/
def dropBaseMark (base : Nat) (cs : List Char) : List Char :=
  match cs with
  | '0' :: m :: rest =>
      if (base == 16 && (m == 'x' || m == 'X')) || (base == 2 && (m == 'b' || m == 'B')) ||
          (base == 8 && (m == 'o' || m == 'O')) then
        match rest with
        | '_' :: after => after
        | _ => rest
      else cs
  | _ => cs

/-- Read a whole number in a base. -/
def readIn (base : Nat) (cs : List Char) : Except Error Int :=
  let malformed : Except Error Int := .error (.malformed base (String.ofList cs))
  let (negative, body) := splitSign (cs.dropWhile isMargin)
  match dropBaseMark base body with
  | [] => malformed
  | c :: more =>
      if c == '_' then malformed
      else
        match digitRun base ' ' (c :: more) with
        | none => malformed
        | some (values, rest) =>
            if base == 10 && decide (maxDigits < values.length) then
              .error (.tooLong values.length)
            else if values.isEmpty || !rest.all isMargin then malformed
            else
              let n := Int.ofNat (ofValues base values)
              .ok (if negative then -n else n)

/-- Read a whole decimal number. -/
def read (cs : List Char) : Except Error Int :=
  readIn 10 cs

/-- Decimal digits of a number in front of a text, with a bound on their count. -/
def digitsFuel : Nat → Nat → List Char → List Char
  | 0, _, tail => tail
  | fuel + 1, n, tail =>
      if n < 10 then Nat.digitChar n :: tail
      else digitsFuel fuel (n / 10) (Nat.digitChar (n % 10) :: tail)

/-- The decimal numeral of a natural number. -/
def ofNat (n : Nat) : List Char :=
  digitsFuel (n + 1) n []

/-- The decimal numeral of a whole number. -/
def ofInt : Int → List Char
  | .ofNat n => ofNat n
  | .negSucc n => '-' :: ofNat (n + 1)

/-- The decimal numeral as a string. -/
def text (i : Int) : String :=
  String.ofList (ofInt i)

/-- The first natural number that has too many digits to be written. -/
def writableBound : Nat :=
  Nat.pow 10 maxDigits

/-- Write a whole number, if that does not take too many digits. -/
def write (i : Int) : Except Error String :=
  if writableBound ≤ i.natAbs then .error .tooLarge else .ok (text i)

theorem write_of_lt {i : Int} (h : i.natAbs < writableBound) : write i = .ok (text i) := by
  simp [write, Nat.not_le.2 h]

theorem readDigits_of_le {ds : List Char} (h : ds.length ≤ maxDigits) :
    readDigits ds = .ok (ofDigits ds) := by
  simp [readDigits, Nat.not_lt.2 h]

end IndexedMail.Text.Numeral
