/-!
# Similar words

How much two words have in common: the longest block that stands in both, and the same for what
is left of it and for what is right of it.

This stands in for the library that finds the known options a mistyped one may have been meant for.
No more is relied on than that there are some.
-/

namespace IndexedMail.Text.Similarity

/-- The length of what two words begin with alike. -/
def commonLength : List Char → List Char → Nat
  | a :: as, b :: bs => if a == b then commonLength as bs + 1 else 0
  | _, _ => 0

/-- A block that stands in two words: where it begins in each, and how long it is. -/
structure Block where
  left : Nat
  right : Nat
  size : Nat

/-- The larger block, or the first one of two equals. -/
def Block.larger (a b : Block) : Block :=
  if a.size < b.size then b else a

/-- The longest block that begins at a given place of the first word. -/
def longestAt (left : Nat) (as : List Char) : Nat → List Char → Block
  | right, [] => ⟨left, right, 0⟩
  | right, b :: bs =>
      Block.larger ⟨left, right, commonLength as (b :: bs)⟩ (longestAt left as (right + 1) bs)

/-- The longest block of two words; of several the first in the first word. -/
def longest (bs : List Char) : Nat → List Char → Block
  | left, [] => ⟨left, 0, 0⟩
  | left, a :: as => Block.larger (longestAt left (a :: as) 0 bs) (longest bs (left + 1) as)

/-- The number of characters that two words have in common, with a bound on the blocks. -/
def matchesFuel : Nat → List Char → List Char → Nat
  | 0, _, _ => 0
  | fuel + 1, as, bs =>
      let block := longest bs 0 as
      if block.size = 0 then 0
      else
        matchesFuel fuel (as.take block.left) (bs.take block.right) + block.size +
          matchesFuel fuel (as.drop (block.left + block.size))
            (bs.drop (block.right + block.size))

/-- The number of characters that two words have in common. -/
def matching (as bs : List Char) : Nat :=
  matchesFuel (as.length + 1) as bs

/-- Whether three fifths of the characters of two words are common to both. -/
def isClose (as bs : List Char) : Bool :=
  decide (3 * (as.length + bs.length) ≤ 10 * matching as bs)

end IndexedMail.Text.Similarity
