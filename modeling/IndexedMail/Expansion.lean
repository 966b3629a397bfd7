import IndexedMail.Text.Wide

/-!
# Expanding paths

A leading tilde stands for a home directory and a dollar sign with a name for the value of a
variable.  What is put in is not expanded again, and references to what there is not stay.  Names
are handed to the system to be looked up, which not every text can be.
-/

namespace IndexedMail

/-- Why a name cannot be looked up. -/
inductive LookupError where
  | nought
  | encoding (e : Text.Wide.EncodeError)
  deriving DecidableEq, Repr

namespace LookupError

def message : LookupError → String
  | nought => "embedded null byte"
  | encoding e => e.message

end LookupError

/-- What the system knows: variables, the home directories of accounts, and the one of its user. -/
structure Lookups where
  value? : Text.Wide → Option Text.Wide
  home? : Text.Wide → Option Text.Wide
  ownHome? : Option Text.Wide

namespace Lookups

open Text (Point Wide)

/-- What keeps a text from being the name of a variable. -/
def variableFault (name : Wide) : Option LookupError :=
  name.systemFault.map .encoding

/-- What keeps a text from being the name of an account. -/
def accountFault (name : Wide) : Option LookupError :=
  match name.systemFault with
  | some e => some (.encoding e)
  | none => if name.contains (.char (Char.ofNat 0)) then some .nought else none

/-! ## Home directories -/

/-- Put a home directory without its last slashes before the rest of a path. -/
def homeBefore (home rest : Wide) : Wide :=
  let path := (home.reverse.dropWhile (· == .char '/')).reverse ++ rest
  if path.isEmpty then "/" else path

/-- Replace a leading tilde, with the name of an account behind it or none, by a home directory. -/
def expandHome (l : Lookups) (path : Wide) : Except LookupError Wide :=
  match path with
  | .char '~' :: behind =>
      let name := behind.takeWhile (· != .char '/')
      let rest := behind.dropWhile (· != .char '/')
      if name.isEmpty then
        .ok (((l.value? "HOME").or l.ownHome?).elim path (homeBefore · rest))
      else
        match accountFault name with
        | some e => .error e
        | none => .ok ((l.home? name).elim path (homeBefore · rest))
  | _ => .ok path

/-! ## Variables -/

/-- Whether it may be part of the name of a variable that stands without braces. -/
def isNamePoint : Point → Bool
  | .char c => c.isAlphanum || c == '_'
  | .half _ => false

/-- The name that a dollar sign refers to, and the number of points it takes. -/
def reference? (path : Wide) : Option (Wide × Nat) :=
  match path with
  | .char '\x7b' :: rest =>
      let name := rest.takeWhile (· != .char '\x7d')
      if name.length < rest.length then some (name, name.length + 2) else none
  | _ =>
      let name := path.takeWhile isNamePoint
      if name.isEmpty then none else some (name, name.length)

/-- Replace references after passing over some points. -/
def expandFrom (l : Lookups) : Nat → Wide → Except LookupError Wide
  | _, [] => .ok []
  | skip + 1, _ :: rest => expandFrom l skip rest
  | 0, p :: rest =>
      if p == .char '$' then
        match reference? rest with
        | none => (expandFrom l 0 rest).map (p :: ·)
        | some (name, length) =>
            match variableFault name with
            | some e => .error e
            | none =>
                (expandFrom l length rest).map fun expanded =>
                  (l.value? name).getD (p :: rest.take length) ++ expanded
      else (expandFrom l 0 rest).map (p :: ·)

/-- Replace every reference to a variable that is set by its value. -/
def expandVariables (l : Lookups) (path : Wide) : Except LookupError Wide :=
  expandFrom l 0 path

/-- Expand a path: first the home directory, then the variables. -/
def expand (l : Lookups) (path : Wide) : Except LookupError Wide :=
  (l.expandHome path).bind l.expandVariables

end Lookups

end IndexedMail
