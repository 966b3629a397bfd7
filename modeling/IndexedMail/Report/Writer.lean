import IndexedMail.Archive.Entry
import IndexedMail.Files.Basic
import IndexedMail.Report.Text

/-!
# Writing reports

Reports go to the log, or are gathered and saved in one file in the end.
-/

namespace IndexedMail.Report

/-- A writer: of records, or of a file in a directory that gathers entries until it is saved. -/
inductive Writer where
  | console
  | file (dir : Path) (entries : List Archive.Entry)
  deriving Repr

namespace Writer

def saveDir (baseDir : String) : Path :=
  (Path.ofString baseDir).child "json"

/-- The writers for output formats, each once, the log first. -/
def ofFormats (formats : List String) (baseDir : String) : List Writer :=
  (if formats.contains "console" then [console] else []) ++
    (if formats.contains "json" then [file (saveDir baseDir) []] else [])

/-- What is said when no format has a writer. -/
def noWriters : String := "No output writers configured"

/-- Take a report. -/
def take (query : Text.Wide) (report : Report) : Writer → Writer
  | console => console
  | file dir entries => file dir (entries ++ [{ query := query, report := report }])

/-- The records by which a writer shows a report at once. -/
def shown (query : Text.Wide) (report : Report) : Writer → List Log.Record
  | console => records query report.items
  | file _ _ => []

/-- Give a report to all writers. -/
def takeAll (query : Text.Wide) (report : Report) (writers : List Writer) :
    List Writer × List Log.Record :=
  (writers.map (take query report), writers.flatMap (shown query report))

/-- The time as it appears in the names of files. -/
def fileStamp (now : Calendar.Moment) : String :=
  Calendar.padded 4 now.date.year ++ Calendar.padded 2 now.date.month ++
    Calendar.padded 2 now.date.day ++ "_" ++ Calendar.padded 2 now.hour ++
    Calendar.padded 2 now.minute ++ Calendar.padded 2 now.second

/-- The file in which an action saves. -/
def savePath (now : Calendar.Moment) (dir : Path) (action : String) : Path :=
  dir.child (action ++ "_" ++ fileStamp now ++ ".json")

/-- Why entries are not saved. -/
inductive SaveError where
  | numeral (e : Text.Numeral.Error)
  | encoding (e : Text.Wide.EncodeError)
  | files (e : Files.Error)
  deriving DecidableEq, Repr

namespace SaveError

def message : SaveError → String
  | numeral e => e.message
  | encoding e => e.message
  | files e => e.message

end SaveError

/--
Save entries in a file.

Nothing is touched if their numbers cannot be written.  The file is opened before their text is
encoded, so that it is left empty by a text that cannot be.
-/
def save (now : Calendar.Moment) (action : String) (dir : Path) (entries : List Archive.Entry)
    (f : Files) : Except SaveError Unit × Files :=
  match Archive.text entries with
  | .error e => (.error (.numeral e), f)
  | .ok text =>
      let path := savePath now dir action
      match text.encode with
      | .error e =>
          match f.store dir path [] with
          | (.error e, f) => (.error (.files e), f)
          | (.ok (), f) => (.error (.encoding e), f)
      | .ok bytes =>
          match f.store dir path bytes with
          | (.error e, f) => (.error (.files e), f)
          | (.ok (), f) => (.ok (), f)

/-- Finish writers in order, until one of them fails. -/
def finish (now : Calendar.Moment) (action : String) :
    List Writer → Files → Option SaveError × List Log.Record × Files
  | [], f => (none, [], f)
  | console :: rest, f => finish now action rest f
  | file dir entries :: rest, f =>
      match save now action dir entries f with
      | (.error e, f) => (some e, [], f)
      | (.ok (), f) =>
          let (failure, records, f) := finish now action rest f
          (failure, .info ("JSON saved to " ++ (savePath now dir action).text) :: records, f)

end Writer

end IndexedMail.Report
