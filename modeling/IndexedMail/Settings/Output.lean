import IndexedMail.Settings.Field
import IndexedMail.Text.Case

/-!
# Settings of the output

The forms in which results are put out, and the directory for those that are files.
-/

namespace IndexedMail.Settings

/-- The settings of the output. -/
structure Output where
  baseDir : String
  formats : List String
  deriving DecidableEq, Repr

namespace Output

/-- The settings of an output that nothing is said about. -/
def default : Output :=
  { baseDir := "output", formats := ["console"] }

/-- The forms that there are writers for. -/
def knownFormats : List String :=
  ["console", "json"]

/-- Read the section on the output. -/
def read (root : Section) : Except FieldError Output := do
  let fields ← section? root "output" false
  let formats ← expectStrings
    (optional fields "formats" (.sequence (default.formats.map .string))) "output.formats"
  let baseDir ← expectString (optional fields "base_dir" (.string default.baseDir))
    "output.base_dir"
  pure
    { baseDir := baseDir
      formats := formats.map fun f => Text.lowercase (Text.stripped f) }

/-- The formats that nobody can write, each once and in order. -/
def unknownFormats (o : Output) : List String :=
  ((o.formats.filter fun f => !knownFormats.contains f).eraseDups).mergeSort
    fun a b => decide (a ≤ b)

end Output

end IndexedMail.Settings
