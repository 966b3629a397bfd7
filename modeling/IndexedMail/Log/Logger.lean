import IndexedMail.Files.Basic
import IndexedMail.Log.Record
import IndexedMail.Text.Case

/-!
# The log

A log that is configured writes to the console and, if asked for, to a file, which receives all
records for diagnosis too, except those whose text cannot be encoded.  The file is the one to which
its path leads without detours.  A log that was never configured still puts warnings on the console.
-/

namespace IndexedMail.Log

/-- Where records go: the level that the console shows, and the file if there is one. -/
structure Sink where
  level : Int
  file : Option Path
  deriving DecidableEq, Repr

/-- The level of a log for which none was chosen. -/
def unchosenLevel : Int := 0

/-- The least level of the records that are looked at. -/
def Sink.threshold (s : Sink) : Int :=
  if s.file.isSome then debugLevel
  else if s.level = unchosenLevel then warningLevel
  else s.level

/-- Whether a record is looked at. -/
def Sink.takes (s : Sink) (r : Record) : Bool :=
  decide (s.threshold ≤ r.level)

def levelNames : List (String × Int) :=
  [("NOTSET", unchosenLevel), ("DEBUG", debugLevel), ("INFO", infoLevel),
    ("WARN", warningLevel), ("WARNING", warningLevel), ("ERROR", errorLevel),
    ("FATAL", criticalLevel), ("CRITICAL", criticalLevel)]

/-- What a name stands for that is no level. -/
inductive Misnomer where
  | text (content : String)
  | table (shown : String)
  deriving DecidableEq, Repr

/-- The text that the line of a record follows by default. -/
def formatText : String := "%(levelname)s:%(name)s:%(message)s"

/-- The styles in which such a text can be written, as they are shown. -/
def stylesText : String :=
  "\x7b'%': (<class 'logging.PercentStyle'>, '" ++ formatText ++ "'), " ++
    "'\x7b': (<class 'logging.StrFormatStyle'>, " ++
    "'\x7blevelname\x7d:\x7bname\x7d:\x7bmessage\x7d'), " ++
    "'$': (<class 'logging.StringTemplateStyle'>, " ++
    "'$\x7blevelname\x7d:$\x7bname\x7d:$\x7bmessage\x7d')\x7d"

/-- The names that stand for something other than a level. -/
def misnomers : List (String × Misnomer) :=
  [("BASIC_FORMAT", .text formatText), ("_STYLES", .table stylesText)]

/-- What a log is configured by. -/
structure Request where
  level : String
  action : Option String
  toFile : Bool
  dir : String
  deriving DecidableEq, Repr

/-- Why a log cannot be configured. -/
inductive Error where
  | noLevel (stands : Misnomer)
  | files (e : Files.Error)
  deriving DecidableEq, Repr

namespace Error

def message : Error → String
  | noLevel (.text content) => "Unknown level: " ++ Text.quoted content
  | noLevel (.table shown) => "Level not an integer or a valid string: " ++ shown
  | files e => e.message

end Error

/-- The level of a name; capitals do not matter, and unknown names stand for notes. -/
def level (name : String) : Except Error Int :=
  let capitals := String.ofList (Text.asciiCapitals name.toList)
  match Entries.get? misnomers capitals with
  | some stands => .error (.noLevel stands)
  | none => .ok ((Entries.get? levelNames capitals).getD infoLevel)

/-- The time as it appears in the names of log files. -/
def fileStamp (now : Calendar.Moment) : String :=
  Calendar.padded 2 now.date.month ++ Calendar.padded 2 now.date.day ++
    Calendar.padded 2 now.hour ++ Calendar.padded 2 now.minute ++ Calendar.padded 2 now.second

def actionDir (dir action : String) : Path :=
  (Path.ofString (if dir.isEmpty then "log" else dir)).child action

/-- The log file of an action. -/
def filePath (now : Calendar.Moment) (dir action : String) : Path :=
  (actionDir dir action).child (action ++ "_" ++ fileStamp now ++ ".log")

/-- The file that a request asks for, made together with its directory. -/
def openFile (now : Calendar.Moment) (r : Request) (f : Files) :
    Except Error (Option Path) × Files :=
  let action := r.action.getD ""
  if !r.toFile || action.isEmpty then (.ok none, f)
  else
    match f.makeDirectories (actionDir r.dir action) with
    | (.error e, f) => (.error (.files e), f)
    | (.ok (), f) =>
        let path := filePath now r.dir action
        match f.append (path.straight f.base) [] with
        | .error e => (.error (.files e), f)
        | .ok f => (.ok (some path), f)

/-- Configure a log anew. -/
def configure (now : Calendar.Moment) (r : Request) (f : Files) : Except Error Sink × Files :=
  match level r.level with
  | .error e => (.error e, f)
  | .ok level =>
      match openFile now r f with
      | (.error e, f) => (.error e, f)
      | (.ok file, f) => (.ok { level := level, file := file }, f)

/-- The text that a record puts on the console; without a log there is but that of warnings. -/
def consoleText (now : Calendar.Moment) (sink : Option Sink) (r : Record) : Text.Wide :=
  match sink with
  | none => if warningLevel ≤ r.level then r.text ++ "\n" else []
  | some s => if s.takes r && decide (s.level ≤ r.level) then r.line now else []

/-- Write a line at the end of a file, unless it cannot be encoded. -/
def appendLine (path : Path) (line : Text.Wide) (f : Files) : Files :=
  match line.encode with
  | .error _ => f
  | .ok bytes =>
      match f.append path bytes with
      | .ok f => f
      | .error _ => f

/--
The files after a record; a log file that is gone is not missed.

A line that cannot be encoded is lost.  What the interpreter says of that on its own account is no
record and is left out here.
-/
def filed (now : Calendar.Moment) (sink : Option Sink) (r : Record) (f : Files) : Files :=
  match sink.bind Sink.file, sink with
  | some path, some s =>
      if s.takes r then appendLine (path.straight f.base) (r.line now) f else f
  | _, _ => f

/-- The text on the console and the files after some records. -/
def write (now : Calendar.Moment) (sink : Option Sink) (records : List Record) (f : Files) :
    Text.Wide × Files :=
  (records.flatMap (consoleText now sink),
    records.foldl (fun f r => filed now sink r f) f)

end IndexedMail.Log
