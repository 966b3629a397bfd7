/-!
# Lines

A text is cut at every line end of Unicode, and at the separators of files, groups and records.
A carriage return followed by a line feed is one line end, and a line end at the very end of the
text opens no further line.
-/

namespace IndexedMail.Text

/-- Whether the character ends a line. -/
def isLineEnd (c : Char) : Bool :=
  let n := c.toNat
  (decide (0x0a ≤ n) && decide (n ≤ 0x0d)) || (decide (0x1c ≤ n) && decide (n ≤ 0x1e)) ||
    n == 0x85 || n == 0x2028 || n == 0x2029

/-- The lines of a text, without their ends. -/
def lines : List Char → List (List Char)
  | [] => []
  | '\r' :: '\n' :: rest => [] :: lines rest
  | c :: rest =>
      if isLineEnd c then [] :: lines rest
      else
        match lines rest with
        | [] => [[c]]
        | line :: more => (c :: line) :: more

theorem lines_nil : lines [] = [] := rfl

theorem lines_lf (rest : List Char) : lines ('\n' :: rest) = [] :: lines rest := by
  simp [lines, isLineEnd]

theorem lines_crlf (rest : List Char) : lines ('\r' :: '\n' :: rest) = [] :: lines rest := by
  simp [lines]

/-- A text as an editor would store it: every line break is a single line feed. -/
def foldLineBreaks : List Char → List Char
  | [] => []
  | '\r' :: '\n' :: rest => '\n' :: foldLineBreaks rest
  | c :: rest => (if c == '\r' then '\n' else c) :: foldLineBreaks rest

end IndexedMail.Text
