import IndexedMail.Files.Basic
import IndexedMail.Hit
import IndexedMail.Json.Reader
import IndexedMail.Limits
import IndexedMail.Log.Record
import IndexedMail.Text.Lines

/-!
# Reading saved searches

A file of saved searches may hold any JSON.  Entries that are no objects or have no results are
passed over; in all others every item has to be complete, with an article that can be read as a
whole number and a score that is not nested too deep to become text.  Names are taken as they are,
and so is the query.
-/

namespace IndexedMail

namespace Archive

/-- Why a value is no saved item, or no list of such. -/
inductive Defect where
  | missing (field : String)
  | textNotObject
  | listNotObject
  | notObject (kind : String)
  | notList (kind : String)
  | notWhole (e : Json.NotWhole)
  | tooDeep (e : Json.DepthError)
  deriving DecidableEq, Repr

namespace Defect

def message : Defect → String
  | missing field => Text.quoted field
  | textNotObject => "string indices must be integers, not 'str'"
  | listNotObject => "list indices must be integers or slices, not str"
  | notObject kind => s!"'{kind}' object is not subscriptable"
  | notList kind => s!"'{kind}' object is not iterable"
  | notWhole e => e.message
  | tooDeep e => e.message

end Defect

/-- A field of a value that should be an object. -/
def field (value : Json) (name : String) : Except Defect Json :=
  match value with
  | .object members =>
      match Json.member? members name with
      | some v => .ok v
      | none => .error (.missing name)
  | .string _ => .error .textNotObject
  | .array _ => .error .listNotObject
  | other => .error (.notObject other.kindName)

def article (value : Json) : Except Defect Int :=
  match value.whole with
  | .error e => .error (.notWhole e)
  | .ok n => .ok n

/-- The text of a score with at most the given number of levels. -/
def score (levels : Nat) (value : Json) : Except Defect Text.Wide :=
  match value.textWithin levels with
  | .error e => .error (.tooDeep e)
  | .ok text => .ok text

/-- A saved item, whose score has at most the given number of levels. -/
def item (levels : Nat) (value : Json) : Except Defect Item := do
  let server ← field value "server"
  let group ← field value "group"
  let number ← (field value "article").bind article
  let text ← (field value "score").bind (score levels)
  pure { server := server, group := group, article := .int number, score := .string text }

/-- The members of a value: those of a list, the names of an object, the letters of a text. -/
def members (value : Json) : Except Defect (List Json) :=
  match value with
  | .array values => .ok values
  | .object entries => .ok (entries.map fun m => .string m.1)
  | .string s => .ok (s.map fun p => .string [p])
  | other => .error (.notList other.kindName)

def items (levels : Nat) : List Json → Except Defect (List Item)
  | [] => .ok []
  | value :: rest =>
      match item levels value with
      | .error e => .error e
      | .ok i => (items levels rest).map (i :: ·)

/-- A saved query with its items. -/
structure Saved where
  query : Json
  items : List Item
  deriving Repr

/-- The saved query that a value stands for; one without results stands for none. -/
def saved? (levels : Nat) (value : Json) : Except Defect (Option Saved) :=
  match value with
  | .object entries =>
      match Json.member? entries "results" with
      | none => .ok none
      | some results => do
          let found ← (members results).bind (items levels)
          let query := (Json.member? entries "query").getD (.string [])
          pure (some { query := query, items := found })
  | _ => .ok none

/-- The saved queries of a list, in order. -/
def savedItems (levels : Nat) : List Json → Except Defect (List Saved)
  | [] => .ok []
  | value :: rest =>
      match saved? levels value with
      | .error e => .error e
      | .ok none => savedItems levels rest
      | .ok (some s) => (savedItems levels rest).map (s :: ·)

/-- The saved queries of a value; only lists hold any. -/
def savedQueries (levels : Nat) (value : Json) : Except Defect (List Saved) :=
  match value with
  | .array values => savedItems levels values
  | _ => .ok []

/-- Why a file of saved searches cannot be read. -/
inductive Error where
  | files (e : Files.Error)
  | encoding (e : Text.Utf8.DecodeError)
  | json (e : Json.ReadError)
  | defect (d : Defect)
  deriving DecidableEq, Repr

namespace Error

def message : Error → String
  | files e => e.message
  | encoding e => e.message
  | json e => e.message
  | defect d => d.message

end Error

/-- The saved queries of a text. -/
def ofText (limits : Limits) (cs : List Char) : Except Error (List Saved) :=
  match Json.read limits.json cs with
  | .error e => .error (.json e)
  | .ok value =>
      match savedQueries limits.scores value with
      | .error d => .error (.defect d)
      | .ok saved => .ok saved

/-- The saved queries of a file, whose line breaks all count alike. -/
def ofBytes (limits : Limits) (bytes : List UInt8) : Except Error (List Saved) :=
  match Text.Utf8.decode bytes with
  | .error e => .error (.encoding e)
  | .ok cs => ofText limits (Text.foldLineBreaks cs)

/-- The saved queries of a file among others. -/
def load (limits : Limits) (f : Files) (p : Path) : Except Error (List Saved) :=
  match f.read p with
  | .error e => .error (.files e)
  | .ok bytes => ofBytes limits bytes

/-- The note on saved queries that were loaded. -/
def loadRecord (p : Path) (saved : List Saved) : Log.Record :=
  .info s!"Loaded {saved.length} queries from {p.text}"

end Archive

end IndexedMail
