import IndexedMail.Hit
import IndexedMail.Log.Record

/-!
# Sources

A source is a searchable index of mail.  Searching it yields events in their order and in the end
either items or an error; it acts on a state of the world.
-/

namespace IndexedMail

/-- What a source does while it searches. -/
inductive Event where
  | record (r : Log.Record)
  | report (message : String)
  deriving DecidableEq, Repr

namespace Event

/-- The messages that are reported, in order. -/
def reports (events : List Event) : List String :=
  events.filterMap fun
    | report message => some message
    | record _ => none

theorem reports_append (a b : List Event) : reports (a ++ b) = reports a ++ reports b := by
  simp [reports]

end Event

/-- The events of a search, and its items or the text of the error that ended it. -/
structure Response where
  events : List Event
  result : Except String (List Item)

/--
A searchable index over a world of some type.

A source may have no name.  Closing gives the text of an error if it fails, and a source may have
nothing to close.
-/
structure Source (σ : Type) where
  name? : Option String
  search : String → Option String → σ → Response × σ
  close? : Option (σ → Option String × σ)

namespace Source

/-- The name under which a source is listed. -/
def displayName {σ : Type} (s : Source σ) : String :=
  s.name?.getD "unknown"

/-- The name by which a source is selected. -/
def selector {σ : Type} (s : Source σ) : String :=
  s.name?.getD ""

end Source

end IndexedMail
