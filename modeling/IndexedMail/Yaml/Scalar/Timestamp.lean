import IndexedMail.Yaml.Cursor
import IndexedMail.Yaml.Value

/-!
# Timestamps

Days and moments as text: a day alone, or a day with a time, a fraction of a second and a
distance from universal time.
-/

namespace IndexedMail.Yaml.Timestamp

/-- The parts of a time of day, as text. -/
structure Time where
  hour : List Char
  minute : List Char
  second : List Char
  fraction : List Char
  offset : Option Int
  deriving DecidableEq, Repr

/-- The parts of a timestamp, as text. -/
structure Parts where
  year : List Char
  month : List Char
  day : List Char
  time : Option Time
  deriving DecidableEq, Repr

/-- Between `least` and `most` digits at the beginning, as many as there are. -/
def digits? (least most : Nat) (cs : List Char) : Option (List Char × List Char) :=
  let run := (cs.take most).takeWhile Char.isDigit
  if run.length < least then none else some (run, cs.drop run.length)

/-- The rest of a text behind a character that has to begin it. -/
def after? (c : Char) : List Char → Option (List Char)
  | [] => none
  | d :: rest => if c == d then some rest else none

/-- The number that the digits spell. -/
def number (ds : List Char) : Nat :=
  Text.Numeral.ofDigits ds

/-- A distance from universal time, in minutes. -/
def offset? (cs : List Char) : Option Int :=
  match cs with
  | ['Z'] => some 0
  | sign :: rest =>
      if sign == '+' || sign == '-' then do
        let (hours, rest) ← digits? 1 2 rest
        let minutes ← match rest with
          | [] => some []
          | c :: rest =>
              if c == ':' && rest.length == 2 && rest.all Char.isDigit then some rest else none
        let total := Int.ofNat (number hours * 60 + number minutes)
        pure (if sign == '-' then -total else total)
      else none
  | [] => none

/-- The fraction of a second, if there is one, and the rest. -/
def fraction (cs : List Char) : List Char × List Char :=
  match after? '.' cs with
  | some rest => (rest.takeWhile Char.isDigit, rest.dropWhile Char.isDigit)
  | none => ([], cs)

/-- The time behind a day. -/
def time? (cs : List Char) : Option Time := do
  let (hour, cs) ← digits? 1 2 cs
  let cs ← after? ':' cs
  let (minute, cs) ← digits? 2 2 cs
  let cs ← after? ':' cs
  let (second, cs) ← digits? 2 2 cs
  let (fraction, cs) := fraction cs
  let offset ←
    if cs.isEmpty then some none else (offset? (cs.dropWhile isGap)).map some
  pure { hour := hour, minute := minute, second := second, fraction := fraction, offset := offset }

/-- What separates a time from its day: a letter, or blanks. -/
def separator? (cs : List Char) : Option (List Char) :=
  match cs with
  | [] => none
  | c :: rest =>
      if c == 'T' || c == 't' then some rest
      else if isGap c then some (rest.dropWhile isGap)
      else none

/-- The parts of a timestamp; one line feed may end it. -/
def parts? (cs : List Char) : Option Parts := do
  let cs := if cs.getLast? == some '\n' then cs.dropLast else cs
  let (year, cs) ← digits? 4 4 cs
  let cs ← after? '-' cs
  let (month, cs) ← digits? 1 2 cs
  let cs ← after? '-' cs
  let (day, cs) ← digits? 1 2 cs
  let time ← if cs.isEmpty then some none else ((separator? cs).bind time?).map some
  pure { year := year, month := month, day := day, time := time }

/-- Whether a plain text is taken for a timestamp: a day alone needs all its digits. -/
def isTimestamp (cs : List Char) : Bool :=
  match parts? cs with
  | none => false
  | some p => p.time.isSome || (p.month.length == 2 && p.day.length == 2)

/-- The microseconds of a fraction; further digits are cut off. -/
def microseconds (fraction : List Char) : Nat :=
  let ds := fraction.take 6
  number (ds ++ List.replicate (6 - ds.length) '0')

/-- The day or the moment with the given parts. -/
def value (p : Parts) : Except Calendar.Error Yaml :=
  match p.time with
  | none => (Calendar.Date.ofNumbers (number p.year) (number p.month) (number p.day)).map .date
  | some t =>
      (Calendar.Moment.ofNumbers (number p.year) (number p.month) (number p.day) (number t.hour)
        (number t.minute) (number t.second) (microseconds t.fraction) t.offset).map .moment

end IndexedMail.Yaml.Timestamp
