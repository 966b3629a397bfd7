/-!
# Paths

A path is a root and the names below it.  Empty names and single dots say nothing and are left
out; names that lead upwards are kept.
-/

namespace IndexedMail

/-- A path; the root of a relative path is empty. -/
structure Path where
  root : String
  names : List String
  deriving DecidableEq, Repr

namespace Path

/-- The pieces between slashes. -/
def pieces : List Char → List (List Char)
  | [] => [[]]
  | c :: rest =>
      if c == '/' then [] :: pieces rest
      else
        match pieces rest with
        | [] => [[c]]
        | piece :: more => (c :: piece) :: more

/-- The root that a text begins with; exactly two slashes are a root of their own. -/
def rootOf : List Char → String
  | '/' :: '/' :: '/' :: _ => "/"
  | '/' :: '/' :: _ => "//"
  | '/' :: _ => "/"
  | _ => ""

/-- Whether a piece is a name. -/
def isName (piece : List Char) : Bool :=
  !piece.isEmpty && piece != ['.']

/-- The path that a text spells. -/
def ofString (s : String) : Path :=
  { root := rootOf s.toList
    names := ((pieces s.toList).filter isName).map String.ofList }

/-- The text of a path. -/
def text (p : Path) : String :=
  if p.root.isEmpty && p.names.isEmpty then "."
  else p.root ++ String.intercalate "/" p.names

/-- The path that leads from one path along another; a path with a root stands for itself. -/
def join (p q : Path) : Path :=
  if q.root.isEmpty then { p with names := p.names ++ q.names } else q

/-- The path with a further piece. -/
def child (p : Path) (piece : String) : Path :=
  p.join (ofString piece)

/-- The path without its last name. -/
def parent (p : Path) : Path :=
  { p with names := p.names.dropLast }

/-- The names that have been gone by after one more; two dots take the last one back. -/
def goneBy (names : List String) (name : String) : List String :=
  if name == ".." then names.dropLast else names ++ [name]

/--
The path from the top, without detours, for a path that begins in the directory of the given names.

It is not asked whether what the detours go through is there.
-/
def straight (base : List String) (p : Path) : Path :=
  if p.root.isEmpty then ⟨"/", (base ++ p.names).foldl goneBy []⟩
  else { p with names := p.names.foldl goneBy [] }

end Path

end IndexedMail
