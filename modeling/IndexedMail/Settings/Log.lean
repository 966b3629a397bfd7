import IndexedMail.Settings.Field
import IndexedMail.Text.Case

/-!
# Settings of the log

The level that the console shows, and whether and where records also go to a file.
-/

namespace IndexedMail.Settings

/-- The settings of the log. -/
structure Log where
  level : String
  toFile : Bool
  dir : String
  deriving DecidableEq, Repr

namespace Log

/-- The settings of a log that nothing is said about. -/
def default : Log :=
  { level := "INFO", toFile := false, dir := "log" }

/-- The levels that settings may ask for, by name. -/
def levels : List String :=
  ["CRITICAL", "DEBUG", "ERROR", "INFO", "WARNING"]

/-- The name of a level in capitals. -/
def capitals (s : String) : String :=
  String.ofList (s.toList.map Text.asciiCapital)

/-- Read the section on the log. -/
def read (root : Section) : Except FieldError Log := do
  let fields ← section? root "log" false
  let level ← expectString (optional fields "level" (.string default.level)) "log.level"
  let toFile ← expectBool (optional fields "to_file" (.bool default.toFile)) "log.to_file"
  let dir ← expectString (optional fields "dir" (.string default.dir)) "log.dir"
  pure { level := capitals level, toFile := toFile, dir := dir }

end Log

end IndexedMail.Settings
