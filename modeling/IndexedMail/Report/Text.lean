import IndexedMail.Log.Record
import IndexedMail.Report.Basic
import IndexedMail.Text.Lines

/-!
# Reports as text

One numbered line for every item.  In a log the query comes first, and every line is a record.
-/

namespace IndexedMail.Report

/-- The line of an item with its number. -/
def itemLine (number : Nat) (i : Item) : Text.Wide :=
  s!"{number}. [" ++ i.score.text ++ "] " ++ i.server.text ++ ":" ++ i.group.text ++ " " ++
    i.article.text

/-- The lines of items, numbered from the given number on. -/
def itemLines : Nat → List Item → List Text.Wide
  | _, [] => []
  | number, i :: rest => itemLine number i :: itemLines (number + 1) rest

/-- The items as text. -/
def listing (items : List Item) : Text.Wide :=
  if items.isEmpty then "No matches.\n"
  else (Text.wide "\n").intercalate (itemLines 1 items) ++ "\n"

def queryRecord (query : Text.Wide) : Log.Record :=
  .info ("query=" ++ query)

def itemRecords (items : List Item) : List Log.Record :=
  (Text.Wide.lines (listing items)).map .info

/-- The records that show the items of a query. -/
def records (query : Text.Wide) (items : List Item) : List Log.Record :=
  queryRecord query :: itemRecords items

/-- Whether no field of an item has too many levels to stand in a line. -/
def isListable (levels : Nat) (i : Item) : Bool :=
  [i.score, i.server, i.group, i.article].all fun field => (field.textWithin levels).isOk

end IndexedMail.Report
