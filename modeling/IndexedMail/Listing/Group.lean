import IndexedMail.Text.Blank

/-!
# Group names

A group is named by the directory of its messages, less the directory that all mail lies in.
-/

namespace IndexedMail.Listing

/-- The text without the slashes at its end. -/
def trimSlashes (cs : List Char) : List Char :=
  Text.trimEndBy (· == '/') cs

/-- A directory ends in a slash. -/
def withSlash (cs : List Char) : List Char :=
  if cs.getLast? == some '/' then cs else cs ++ ['/']

/-- What follows a given beginning. -/
def after? : List Char → List Char → Option (List Char)
  | [], rest => some rest
  | _ :: _, [] => none
  | x :: xs, c :: rest => if x == c then after? xs rest else none

theorem after?_eq_some_iff {start cs rest : List Char} :
    after? start cs = some rest ↔ cs = start ++ rest := by
  induction start generalizing cs with
  | nil => simp [after?, eq_comm]
  | cons x xs ih =>
      cases cs with
      | nil => simp [after?]
      | cons c more =>
          by_cases h : x = c
          · subst h
            simp [after?, ih]
          · have h' : c ≠ x := fun e => h e.symm
            simp [after?, h, h']

/-- Directory and file name of a path; the directory loses final slashes unless it has no other. -/
def splitPath (cs : List Char) : List Char × List Char :=
  let reversed := cs.reverse
  let name := (reversed.takeWhile (· != '/')).reverse
  let head := (reversed.dropWhile (· != '/')).reverse
  (if head.all (· == '/') then head else trimSlashes head, name)

/-- The group of a message directory, with the directory of all mail taken off if it is inside. -/
def groupName (directory removePrefix : List Char) : List Char :=
  let path := trimSlashes directory ++ ['/']
  if removePrefix.isEmpty then trimSlashes path
  else
    match after? (withSlash removePrefix) path with
    | some rest => trimSlashes rest
    | none => trimSlashes path

end IndexedMail.Listing
