/-!
# Blanks

The white space of Unicode 14 together with the four information separators, and the removal of
blanks at both ends of a text.
-/

namespace IndexedMail.Text

/-- The code points of the blanks that are not controls. -/
def blankCodes : List Nat :=
  [0x20, 0x85, 0xa0, 0x1680, 0x2000, 0x2001, 0x2002, 0x2003, 0x2004, 0x2005, 0x2006, 0x2007,
   0x2008, 0x2009, 0x200a, 0x2028, 0x2029, 0x202f, 0x205f, 0x3000]

/-- Whether the character is a blank. -/
def isBlank (c : Char) : Bool :=
  let n := c.toNat
  (decide (0x09 ≤ n) && decide (n ≤ 0x0d)) || (decide (0x1c ≤ n) && decide (n ≤ 0x1f)) ||
    blankCodes.contains n

/-- Drop from both ends of a list what satisfies the test. -/
def trimBy (p : Char → Bool) (cs : List Char) : List Char :=
  ((cs.dropWhile p).reverse.dropWhile p).reverse

/-- Drop from the end of a list what satisfies the test. -/
def trimEndBy (p : Char → Bool) (cs : List Char) : List Char :=
  (cs.reverse.dropWhile p).reverse

/-- The text without the blanks at its ends. -/
def stripped (s : String) : String :=
  String.ofList (trimBy isBlank s.toList)

/-- Whether the text is empty or holds blanks only. -/
def isAllBlank (s : String) : Bool :=
  s.toList.all isBlank

theorem trimEndBy_append_singleton (p : Char → Bool) (cs : List Char) (c : Char) :
    trimEndBy p (cs ++ [c]) = if p c then trimEndBy p cs else cs ++ [c] := by
  by_cases h : p c <;> simp [trimEndBy, h]

end IndexedMail.Text
