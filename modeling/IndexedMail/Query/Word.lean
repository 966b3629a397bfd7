/-!
# Words of a query

A query line is cut at spaces, tabs, carriage returns and line feeds.  Quotation marks and the
backslash take these characters into a word; a pair of quotation marks with nothing between them
is an empty word.  Inside double quotes a backslash counts only before a double quote or another
backslash.
-/

namespace IndexedMail.Query

/-- What a query line lacks at its end. -/
inductive QuoteError where
  | unclosedQuote
  | nothingEscaped
  deriving DecidableEq, Repr

namespace QuoteError

def message : QuoteError → String
  | unclosedQuote => "No closing quotation"
  | nothingEscaped => "No escaped character"

end QuoteError

/-- Where in a query line a character stands. -/
inductive Position where
  | between
  | bare
  | escaped
  | single
  | double
  | doubleEscaped
  deriving DecidableEq, Repr

/-- Whether the character separates words. -/
def isSeparator (c : Char) : Bool :=
  c == ' ' || c == '\t' || c == '\r' || c == '\n'

/-- Put a character in front of the first word. -/
def prepend (c : Char) : List (List Char) → List (List Char)
  | [] => [[c]]
  | word :: more => (c :: word) :: more

/--
The words of the rest of a line.

Unless the position is between words, the first word of the answer is what remains of the word
that has begun.
-/
def wordsFrom : Position → List Char → Except QuoteError (List (List Char))
  | .between, [] => .ok []
  | .bare, [] => .ok [[]]
  | .escaped, [] => .error .nothingEscaped
  | .single, [] => .error .unclosedQuote
  | .double, [] => .error .unclosedQuote
  | .doubleEscaped, [] => .error .nothingEscaped
  | .between, c :: rest =>
      if isSeparator c then wordsFrom .between rest
      else if c == '\x27' then wordsFrom .single rest
      else if c == '"' then wordsFrom .double rest
      else if c == '\\' then wordsFrom .escaped rest
      else (wordsFrom .bare rest).map (prepend c)
  | .bare, c :: rest =>
      if isSeparator c then (wordsFrom .between rest).map ([] :: ·)
      else if c == '\x27' then wordsFrom .single rest
      else if c == '"' then wordsFrom .double rest
      else if c == '\\' then wordsFrom .escaped rest
      else (wordsFrom .bare rest).map (prepend c)
  | .escaped, c :: rest => (wordsFrom .bare rest).map (prepend c)
  | .single, c :: rest =>
      if c == '\x27' then wordsFrom .bare rest else (wordsFrom .single rest).map (prepend c)
  | .double, c :: rest =>
      if c == '"' then wordsFrom .bare rest
      else if c == '\\' then wordsFrom .doubleEscaped rest
      else (wordsFrom .double rest).map (prepend c)
  | .doubleEscaped, c :: rest =>
      if c == '"' || c == '\\' then (wordsFrom .double rest).map (prepend c)
      else (wordsFrom .double rest).map fun words => prepend '\\' (prepend c words)

/-- The words of a query line. -/
def words (line : List Char) : Except QuoteError (List (List Char)) :=
  wordsFrom .between line

theorem wordsFrom_between_separator {c : Char} (h : isSeparator c = true) (rest : List Char) :
    wordsFrom .between (c :: rest) = wordsFrom .between rest := by
  simp [wordsFrom, h]

theorem wordsFrom_bare_separator {c : Char} (h : isSeparator c = true) (rest : List Char) :
    wordsFrom .bare (c :: rest) = (wordsFrom .between rest).map ([] :: ·) := by
  simp [wordsFrom, h]

end IndexedMail.Query
