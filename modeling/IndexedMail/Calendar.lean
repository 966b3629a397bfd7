import IndexedMail.Text.Numeral

/-!
# Dates and moments

Days of the Gregorian calendar and moments with an optional distance from universal time, the
conditions under which they exist, when two of them are the same, and their texts.
-/

namespace IndexedMail.Calendar

/-- A day. -/
structure Date where
  year : Nat
  month : Nat
  day : Nat
  deriving DecidableEq, Repr

/-- A time on a day; the distance from universal time is in minutes. -/
structure Moment where
  date : Date
  hour : Nat
  minute : Nat
  second : Nat
  microsecond : Nat
  offset : Option Int
  deriving DecidableEq, Repr

/-- Why a day or a moment does not exist. -/
inductive Error where
  | year (year : Nat)
  | month
  | day
  | hour
  | minute
  | second
  | offset (minutes : Int)
  deriving DecidableEq, Repr

def minutesPerDay : Int := 1440

/-- A distance from universal time as a number of days and of seconds. -/
def durationText (minutes : Int) : String :=
  let days := minutes / minutesPerDay
  let seconds := minutes % minutesPerDay * 60
  let parts :=
    (if days = 0 then [] else ["days=" ++ Text.Numeral.text days]) ++
      (if seconds = 0 then [] else ["seconds=" ++ Text.Numeral.text seconds])
  "datetime.timedelta(" ++ Text.commaSeparated parts ++ ")"

namespace Error

def message : Error → String
  | year y => s!"year {y} is out of range"
  | month => "month must be in 1..12"
  | day => "day is out of range for month"
  | hour => "hour must be in 0..23"
  | minute => "minute must be in 0..59"
  | second => "second must be in 0..59"
  | offset minutes =>
      "offset must be a timedelta strictly between -timedelta(hours=24) and " ++
        s!"timedelta(hours=24), not {durationText minutes}."

end Error

/-- Whether the year has a leap day. -/
def isLeap (year : Nat) : Bool :=
  year % 4 == 0 && (year % 100 != 0 || year % 400 == 0)

def daysIn (year month : Nat) : Nat :=
  if month = 2 then if isLeap year then 29 else 28
  else if month = 4 ∨ month = 6 ∨ month = 9 ∨ month = 11 then 30
  else 31

/-- The days of a year before the first of a month. -/
def daysBeforeMonth (year month : Nat) : Nat :=
  ((List.range month).drop 1).foldl (fun days m => days + daysIn year m) 0

namespace Date

/-- The number of the day, counted from the first day of the year one, which is day one. -/
def number (d : Date) : Nat :=
  let before := d.year - 1
  before * 365 + before / 4 - before / 100 + before / 400 + daysBeforeMonth d.year d.month + d.day

/-- The day with the given numbers, if it exists. -/
def ofNumbers (year month day : Nat) : Except Error Date :=
  if year = 0 ∨ 9999 < year then .error (.year year)
  else if month = 0 ∨ 12 < month then .error .month
  else if day = 0 ∨ daysIn year month < day then .error .day
  else .ok ⟨year, month, day⟩

end Date

/-- A number with zeros in front of it up to a width. -/
def padded (width n : Nat) : String :=
  let ds := Text.Numeral.ofNat n
  String.ofList (List.replicate (width - ds.length) '0' ++ ds)

/-- The text of a day. -/
def Date.text (d : Date) : String :=
  padded 4 d.year ++ "-" ++ padded 2 d.month ++ "-" ++ padded 2 d.day

/-- Numbers as the arguments of a call. -/
def argumentsText (numbers : List Nat) : List String :=
  numbers.map fun n => Text.Numeral.text (Int.ofNat n)

/-- The text of a day inside a collection. -/
def Date.innerText (d : Date) : String :=
  "datetime.date(" ++ Text.commaSeparated (argumentsText [d.year, d.month, d.day]) ++ ")"

namespace Moment

/-- The moment with the given numbers, if it exists; the distance is looked at first. -/
def ofNumbers (year month day hour minute second microsecond : Nat) (offset : Option Int) :
    Except Error Moment :=
  match offset.filter fun m => decide (minutesPerDay ≤ m.natAbs) with
  | some m => .error (.offset m)
  | none =>
      match Date.ofNumbers year month day with
      | .error e => .error e
      | .ok date =>
          if 23 < hour then .error .hour
          else if 59 < minute then .error .minute
          else if 59 < second then .error .second
          else .ok ⟨date, hour, minute, second, microsecond, offset⟩

/-- The text of a distance from universal time. -/
def offsetText (minutes : Int) : String :=
  (if minutes < 0 then "-" else "+") ++ padded 2 (minutes.natAbs / 60) ++ ":" ++
    padded 2 (minutes.natAbs % 60)

/-- The text of a moment; a fraction of a second is shown if there is one. -/
def text (m : Moment) : String :=
  m.date.text ++ " " ++ padded 2 m.hour ++ ":" ++ padded 2 m.minute ++ ":" ++
    padded 2 m.second ++ (if m.microsecond = 0 then "" else "." ++ padded 6 m.microsecond) ++
    (match m.offset with
    | some minutes => offsetText minutes
    | none => "")

/-- The text of a distance from universal time inside a collection. -/
def zoneText (minutes : Int) : String :=
  if minutes = 0 then "datetime.timezone.utc"
  else "datetime.timezone(" ++ durationText minutes ++ ")"

/-- The text of a moment inside a collection; what is zero at its end is not shown. -/
def innerText (m : Moment) : String :=
  let tail :=
    if m.microsecond = 0 then if m.second = 0 then [] else [m.second]
    else [m.second, m.microsecond]
  let numbers := [m.date.year, m.date.month, m.date.day, m.hour, m.minute] ++ tail
  let zone :=
    match m.offset with
    | some minutes => ["tzinfo=" ++ zoneText minutes]
    | none => []
  "datetime.datetime(" ++ Text.commaSeparated (argumentsText numbers ++ zone) ++ ")"

/-- The minutes from the day before the first day to a moment, in universal time. -/
def minutes (m : Moment) : Int :=
  Int.ofNat m.date.number * minutesPerDay + Int.ofNat (m.hour * 60 + m.minute) - m.offset.getD 0

/-- Whether two moments are the same; one without a distance is never the same as one with it. -/
def isSame (m n : Moment) : Bool :=
  m.offset.isSome == n.offset.isSome && m.minutes == n.minutes && m.second == n.second &&
    m.microsecond == n.microsecond

def secondsPerDay : Nat := 86400

/-- The days from the first of March of the year zero to the first of January 1970. -/
def daysBefore1970 : Nat := 719468

/-- The days of four hundred years. -/
def daysPerEra : Nat := 146097

/--
The day with a number that counts from the first of January 1970.

Years are counted from March on here, so that a leap day is the last day of its year.
-/
def dateOfDays (days : Nat) : Date :=
  let shifted := days + daysBefore1970
  let era := shifted / daysPerEra
  let dayOfEra := shifted % daysPerEra
  let yearOfEra :=
    (dayOfEra - dayOfEra / 1460 + dayOfEra / 36524 - dayOfEra / 146096) / 365
  let dayOfYear := dayOfEra - (365 * yearOfEra + yearOfEra / 4 - yearOfEra / 100)
  let month := (5 * dayOfYear + 2) / 153
  let day := dayOfYear - (153 * month + 2) / 5 + 1
  if month < 10 then ⟨era * 400 + yearOfEra, month + 3, day⟩
  else ⟨era * 400 + yearOfEra + 1, month - 9, day⟩

/-- The moment of universal time that lies some seconds after the beginning of 1970. -/
def ofSeconds (seconds : Nat) : Moment :=
  let rest := seconds % secondsPerDay
  { date := dateOfDays (seconds / secondsPerDay)
    hour := rest / 3600
    minute := rest / 60 % 60
    second := rest % 60
    microsecond := 0
    offset := some 0 }

end Moment

end IndexedMail.Calendar
