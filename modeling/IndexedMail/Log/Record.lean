import IndexedMail.Calendar
import IndexedMail.Text.Wide

/-!
# Log records

A record has a numeric level and a text.  In a log it is one line, with the time and a mark of
four letters for the level.
-/

namespace IndexedMail.Log

/-- One message with its level. -/
structure Record where
  level : Int
  text : Text.Wide
  deriving DecidableEq, Repr

/-- The levels that have names of their own. -/
def debugLevel : Int := 10

/-- The level of notes on progress. -/
def infoLevel : Int := 20

def warningLevel : Int := 30

def errorLevel : Int := 40

/-- The level of errors that end the program. -/
def criticalLevel : Int := 50

namespace Record

/-- A message for diagnosis. -/
def debug (text : Text.Wide) : Record := ⟨debugLevel, text⟩

/-- A note on progress. -/
def info (text : Text.Wide) : Record := ⟨infoLevel, text⟩

def warning (text : Text.Wide) : Record := ⟨warningLevel, text⟩

def error (text : Text.Wide) : Record := ⟨errorLevel, text⟩

/-- The mark of a level: that of its name, or the beginning of its number in words. -/
def mark (level : Int) : String :=
  if level = debugLevel then "DEBG"
  else if level = infoLevel then "INFO"
  else if level = warningLevel then "WARN"
  else if level = errorLevel ∨ level = criticalLevel then "ERRO"
  else if level = 0 then "NOTS"
  else "Leve"

/-- The time of a record as a log shows it. -/
def timeText (now : Calendar.Moment) : String :=
  Calendar.padded 2 now.date.month ++ "-" ++ Calendar.padded 2 now.date.day ++ " " ++
    Calendar.padded 2 now.hour ++ ":" ++ Calendar.padded 2 now.minute ++ ":" ++
    Calendar.padded 2 now.second

/-- The record as a line of a log. -/
def line (now : Calendar.Moment) (r : Record) : Text.Wide :=
  Text.wide (timeText now ++ " [" ++ mark r.level ++ "] ") ++ r.text ++ "\n"

end Record

end IndexedMail.Log
