import IndexedMail.Limits
import IndexedMail.Settings.Basic
import IndexedMail.Settings.Merge
import IndexedMail.Text.Lines
import IndexedMail.Text.Utf8
import IndexedMail.Yaml.Document

/-!
# Settings files

From the bytes of a settings file to settings, alone or laid over a file of defaults.
-/

namespace IndexedMail

namespace Settings

/-- Why a settings file gives no settings. -/
inductive FileError where
  | encoding (e : Text.Utf8.DecodeError)
  | yaml (e : Yaml.Error)
  | settings (e : Error)
  | overlap (e : OverlapError)
  deriving DecidableEq, Repr

namespace FileError

def message : FileError → String
  | encoding e => e.message
  | yaml e => e.message
  | settings e => e.message
  | overlap e => e.message

end FileError

/-- The root of settings given as text; a text that holds nothing has an empty root. -/
def rootOfText (levels : Nat) (text : String) : Except FileError Section :=
  match Yaml.read levels text with
  | .error e => .error (.yaml e)
  | .ok (.mapping entries) => .ok entries
  | .ok value => if value.isVoid then .ok [] else .error (.settings .rootShape)

/-- The root of a settings file, whose line breaks all count alike. -/
def rootOfBytes (levels : Nat) (bytes : List UInt8) : Except FileError Section :=
  match Text.Utf8.decode bytes with
  | .error e => .error (.encoding e)
  | .ok cs => rootOfText levels (String.ofList (Text.foldLineBreaks cs))

/-- Settings of a root. -/
def ofRoot (e : Environment) (root : Section) : Except FileError Settings :=
  match read e root with
  | .error err => .error (.settings err)
  | .ok settings => .ok settings

/-- Settings of one file. -/
def ofBytes (limits : Limits) (e : Environment) (bytes : List UInt8) : Except FileError Settings :=
  (rootOfBytes limits.yaml bytes).bind (ofRoot e)

/-- Settings of a file laid over defaults. -/
def ofBytesOver (limits : Limits) (e : Environment) (defaults : Section) (bytes : List UInt8) :
    Except FileError Settings :=
  (rootOfBytes limits.yaml bytes).bind fun root =>
    match merge limits.overlap defaults root with
    | .error err => .error (.overlap err)
    | .ok merged => ofRoot e merged

end Settings

end IndexedMail
