import IndexedMail.Json.Writer
import IndexedMail.Report.Basic

/-!
# Saved searches

What a file of saved searches holds: queries with the errors and the items of their reports.
-/

namespace IndexedMail.Archive

def itemJson (i : Item) : Json :=
  .object [("server", i.server), ("group", i.group), ("article", i.article), ("score", i.score)]

/-- A query with its report. -/
structure Entry where
  query : Text.Wide
  report : Report
  deriving Repr

namespace Entry

/-- The query with its report as JSON. -/
def json (e : Entry) : Json :=
  .object
    [("query", .string e.query),
      ("errors", .array (e.report.errors.map fun error : String => .string error)),
      ("results", .array (e.report.items.map itemJson))]

end Entry

/-- The text of a file of saved searches. -/
def text (entries : List Entry) : Except Text.Numeral.Error Text.Wide :=
  Json.write (.array (entries.map Entry.json))

end IndexedMail.Archive
