/-!
# Limits on nesting

Values that are nested are read, merged and turned into text level by level, and every level takes
room on the stack.  How much room a caller leaves is not for a value to say, so that the levels
which each of these tasks can go are parameters of the program.
-/

namespace IndexedMail

/-- The levels that nested values may have where something is done with them level by level. -/
structure Limits where
  /-- Arrays and objects in a text that is read. -/
  json : Nat
  /-- A score that becomes text when it is loaded. -/
  scores : Nat
  /-- A query that becomes text where it is shown. -/
  queries : Nat
  /-- The fields of an item that become text where it is listed. -/
  items : Nat
  /-- Collections in a settings file. -/
  yaml : Nat
  /-- Mappings that lie over each other. -/
  overlap : Nat
  /-- Saved searches, with their items and errors, can be read. -/
  savedSearches : 4 ≤ json
  deriving Repr

namespace Limits

/-- What a stack of a thousand calls leaves to a program that is called from the command line. -/
def ofThousand : Limits :=
  { json := 980
    scores := 980
    queries := 976
    items := 980
    yaml := 487
    overlap := 950
    savedSearches := by decide }

end Limits

end IndexedMail
