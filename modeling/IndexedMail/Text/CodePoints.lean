/-!
# Sets of code points

A set of characters is written down as the increasing list of code points at which membership
changes: the first one enters the set, the next one leaves it, and so on.
-/

namespace IndexedMail.Text

/-- Whether a number lies in the set with the given points of change. -/
def within : List Nat → Nat → Bool
  | [], _ => false
  | p :: ps, n => if n < p then false else !within ps n

end IndexedMail.Text
