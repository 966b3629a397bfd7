import IndexedMail.Hit

/-!
# Reports

The outcome of one query over several servers.
-/

namespace IndexedMail

/-- The items of all servers, ranked, and the errors that servers reported, in order. -/
structure Report where
  items : List Item
  errors : List String
  deriving Repr, Inhabited

namespace Report

/-- Whether no server reported an error. -/
def ok (r : Report) : Bool :=
  r.errors.isEmpty

end Report

end IndexedMail
