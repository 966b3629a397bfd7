import IndexedMail.Text.Numeral

/-!
# Article numbers

A message is stored under a file name that carries its article number: the whole name in one kind
of mailbox, what follows the last colon in the other.
-/

namespace IndexedMail.Listing

/-- The kinds of mailbox. -/
inductive Backend where
  | nnml
  | nnmaildir
  deriving DecidableEq, Repr

namespace Backend

/-- All kinds, in the order in which messages name them. -/
def all : List Backend :=
  [nnml, nnmaildir]

def name : Backend → String
  | nnml => "nnml"
  | nnmaildir => "nnmaildir"

/-- The kind with a given name. -/
def ofName? (s : String) : Option Backend :=
  all.find? fun b => b.name == s

theorem ofName?_name (b : Backend) : ofName? b.name = some b := by
  cases b <;> decide

end Backend

/-- Why a listing cannot be read. -/
inductive Error where
  | unsupportedBackend (name : String)
  | numeral (e : Text.Numeral.Error)
  deriving DecidableEq, Repr

namespace Error

def message : Error → String
  | unsupportedBackend name => s!"Unsupported mailbox backend: {name}"
  | numeral e => e.message

end Error

/-- The text without one line feed at its end. -/
def dropFinalNewline (cs : List Char) : List Char :=
  match cs.reverse with
  | '\n' :: rest => rest.reverse
  | _ => cs

/-- A text that is nothing but digits, and not empty. -/
def asDigits? (cs : List Char) : Option (List Char) :=
  if !cs.isEmpty && cs.all Text.isDigit then some cs else none

/-- Cut at the last occurrence of a character: what is before it and what is after it. -/
def splitLast? (mark : Char) (cs : List Char) : Option (List Char × List Char) :=
  let reversed := cs.reverse
  match reversed.dropWhile (· != mark) with
  | [] => none
  | _ :: before => some (before.reverse, (reversed.takeWhile (· != mark)).reverse)

/-- The digits of the article number in a file name, if it has the shape of the mailbox. -/
def articleDigits? (backend : Backend) (basename : List Char) : Option (List Char) :=
  let body := dropFinalNewline basename
  match backend with
  | .nnml => asDigits? body
  | .nnmaildir =>
      match splitLast? ':' body with
      | none => none
      | some (before, after) => if before.contains '\n' then none else asDigits? after

/-- The article number in a file name. -/
def articleNumber (basename : List Char) (backend : String) : Except Error (Option Nat) :=
  match Backend.ofName? backend with
  | none => .error (.unsupportedBackend backend)
  | some b =>
      match articleDigits? b basename with
      | none => .ok none
      | some ds =>
          match Text.Numeral.readDigits ds with
          | .ok n => .ok (some n)
          | .error e => .error (.numeral e)

end IndexedMail.Listing
