import IndexedMail.Environment
import IndexedMail.Listing.Article
import IndexedMail.Settings.Field
import IndexedMail.Text.Case

/-!
# Settings of a search server

One entry of the list of servers: which program searches which index, and how the files found
map to groups.
-/

namespace IndexedMail.Settings

/-- The search engines that there are sources for. -/
def engines : List String :=
  ["estraier"]

/-- The settings of one server. -/
structure Server where
  name : String
  engine : String
  program : String
  indexDir : String
  removePrefix : String
  switches : List String
  maxResults : Int
  backend : String
  pinned : List (String × String)
  deriving DecidableEq, Repr

namespace Server

/-- The program of the index tool. -/
def defaultProgram : String := "estcmd"

/-- The index below the home directory. -/
def defaultIndexDir : String := "~/Mail/casket"

/-- The directory of all mail below the home directory. -/
def defaultRemovePrefix : String := "~/Mail/"

/-- The number of hits that a server is asked for. -/
def defaultMaxResults : Int := 300

/-- The variables that a child process always has: messages are not translated. -/
def defaultPinned : List (String × String) :=
  [("LC_MESSAGES", "C")]

/-- A server of which only the name is given, with its paths expanded. -/
def ofName (e : Environment) (name : String) : Server :=
  { name := name
    engine := "estraier"
    program := defaultProgram
    indexDir := e.expandPath defaultIndexDir
    removePrefix := e.expandPath defaultRemovePrefix
    switches := []
    maxResults := defaultMaxResults
    backend := "nnml"
    pinned := defaultPinned }

/-- The variables of a server: the standing ones, overridden by the configured ones. -/
def readPinned (fields : Section) (key : String) : Except FieldError (List (String × String)) := do
  let configured ← expectScalars (optional fields "env" (.mapping [])) s!"{key}.env"
  pure (Entries.update defaultPinned configured)

/-- A text field of a server with a default. -/
def readText (fields : Section) (key name default : String) : Except FieldError String :=
  expectString (optional fields name (.string default)) s!"{key}.{name}"

/-- A path of a server with a default, expanded. -/
def readPath (e : Environment) (fields : Section) (key name default : String) :
    Except FieldError String :=
  match readText fields key name default with
  | .error err => .error err
  | .ok path =>
      match e.expand path with
      | .error err => .error (.lookup err)
      | .ok expanded => .ok expanded

/-- Read one entry of the list of servers; its variables are read before its other fields. -/
def read (e : Environment) (value : Yaml) (key : String) : Except FieldError Server :=
  match value with
  | .mapping fields => do
      let pinned ← readPinned fields key
      let nameValue ← required fields "name" s!"{key}.name"
      let name ← expectString nameValue s!"{key}.name"
      let engine ← readText fields key "engine" "estraier"
      let program ← readPath e fields key "program" defaultProgram
      let indexDir ← readPath e fields key "index_dir" defaultIndexDir
      let removePrefix ← readPath e fields key "remove_prefix" defaultRemovePrefix
      let switches ← expectStrings (optional fields "additional_switches" (.sequence []))
        s!"{key}.additional_switches"
      let maxResults ← expectInt (optional fields "max_results" (.int defaultMaxResults))
        s!"{key}.max_results"
      let backend ← readText fields key "backend" "nnml"
      pure
        { name := Text.stripped name
          engine := Text.lowercase (Text.stripped engine)
          program := program
          indexDir := indexDir
          removePrefix := removePrefix
          switches := switches
          maxResults := maxResults
          backend := Text.lowercase (Text.stripped backend)
          pinned := pinned }
  | _ => .error (.wrongShape key .object)

/-- The servers of a list from the given index on. -/
def readItems (e : Environment) : Nat → List Yaml → Except FieldError (List Server)
  | _, [] => .ok []
  | index, item :: rest =>
      match read e item s!"servers[{index}]" with
      | .error err => .error err
      | .ok server => (readItems e (index + 1) rest).map (server :: ·)

/-- The list of servers of a settings file. -/
def readAll (e : Environment) (root : Section) : Except FieldError (List Server) :=
  match (Yaml.field? root "servers").getD .null with
  | .null => .error (.missing "servers")
  | .sequence items => readItems e 0 items
  | _ => .error (.wrongShape "servers" .list)

/-- What can be wrong with one server of a list. -/
inductive Fault where
  | emptyName
  | duplicateName (name : String)
  | unknownEngine (name : String)
  | emptyProgram
  | emptyIndexDir
  | zeroLimit
  | unknownBackend
  deriving DecidableEq, Repr

namespace Fault

/-- The fault in words, behind the path of the server. -/
def description : Fault → String
  | emptyName => ".name must not be empty"
  | duplicateName name => s!".name is duplicated: {name}"
  | unknownEngine name => s!".engine has unknown engine: {name}"
  | emptyProgram => ".program must not be empty"
  | emptyIndexDir => ".index_dir must not be empty"
  | zeroLimit => ".max_results must be negative (unlimited) or positive"
  | unknownBackend =>
      s!".backend must be one of {Text.quotedList (Listing.Backend.all.map Listing.Backend.name)}"

end Fault

/-- The first fault of a server, given the names of the servers before it. -/
def fault? (before : List String) (s : Server) : Option Fault :=
  if s.name.isEmpty then some .emptyName
  else if before.contains s.name then some (.duplicateName s.name)
  else if !engines.contains s.engine then some (.unknownEngine s.engine)
  else if Text.isAllBlank s.program then some .emptyProgram
  else if Text.isAllBlank s.indexDir then some .emptyIndexDir
  else if s.maxResults == 0 then some .zeroLimit
  else if (Listing.Backend.ofName? s.backend).isNone then some .unknownBackend
  else none

/-- The first faulty server of a list, with its index, given the names before it. -/
def firstFault? (before : List String) (index : Nat) : List Server → Option (Nat × Fault)
  | [] => none
  | s :: rest =>
      match fault? before s with
      | some f => some (index, f)
      | none => firstFault? (s.name :: before) (index + 1) rest

end Server

end IndexedMail.Settings
