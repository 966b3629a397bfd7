import IndexedMail.Settings.Log
import IndexedMail.Settings.Output
import IndexedMail.Settings.Server

/-!
# Settings

The whole of the settings: all sections are read, in the order log, servers and output, before
any of them is checked, in the same order.
-/

namespace IndexedMail

/-- The settings of the program. -/
structure Settings where
  log : Settings.Log
  servers : List Settings.Server
  output : Settings.Output
  deriving DecidableEq, Repr

namespace Settings

/-- Why settings are not accepted. -/
inductive Error where
  | field (e : FieldError)
  | rootShape
  | badLevel
  | emptyLogDir
  | noServers
  | server (index : Nat) (fault : Server.Fault)
  | emptyBaseDir
  | noFormats
  | unknownFormats (names : List String)
  deriving DecidableEq, Repr

namespace Error

def message : Error → String
  | field e => e.message
  | rootShape => "Config root must be a mapping/object"
  | badLevel => s!"log.level must be one of {Text.quotedList Log.levels}"
  | emptyLogDir => "log.dir must not be empty"
  | noServers => "servers must include at least one server"
  | server index fault => s!"servers[{index}]{fault.description}"
  | emptyBaseDir => "output.base_dir must not be empty"
  | noFormats => "output.formats must include at least one format"
  | unknownFormats names => s!"output.formats has unknown formats: {Text.quotedList names}"

end Error

/-- Accept or refuse the settings of the log. -/
def checkLog (l : Log) : Except Error Unit :=
  if !Log.levels.contains l.level then .error .badLevel
  else if Text.isAllBlank l.dir then .error .emptyLogDir
  else .ok ()

/-- Accept or refuse a list of servers. -/
def checkServers (servers : List Server) : Except Error Unit :=
  if servers.isEmpty then .error .noServers
  else
    match Server.firstFault? [] 0 servers with
    | some (index, fault) => .error (.server index fault)
    | none => .ok ()

/-- Accept or refuse the settings of the output. -/
def checkOutput (o : Output) : Except Error Unit :=
  if Text.isAllBlank o.baseDir then .error .emptyBaseDir
  else if o.formats.isEmpty then .error .noFormats
  else
    match o.unknownFormats with
    | [] => .ok ()
    | names => .error (.unknownFormats names)

/-- Accept or refuse whole settings. -/
def check (s : Settings) : Except Error Unit := do
  checkLog s.log
  checkServers s.servers
  checkOutput s.output

/-- Read all sections, without checks. -/
def readSections (e : Environment) (root : Section) : Except FieldError Settings := do
  let log ← Log.read root
  let servers ← Server.readAll e root
  let output ← Output.read root
  pure { log := log, servers := servers, output := output }

/-- Read and check settings. -/
def read (e : Environment) (root : Section) : Except Error Settings :=
  match readSections e root with
  | .error err => .error (.field err)
  | .ok settings =>
      match settings.check with
      | .error err => .error err
      | .ok () => .ok settings

/-- The server with a given name. -/
def server? (s : Settings) (name : String) : Option Server :=
  s.servers.find? fun server => server.name == name

theorem server?_name {s : Settings} {name : String} {server : Server}
    (h : s.server? name = some server) : server.name = name := by
  have := List.find?_some h
  simpa using this

theorem check_of_read {e : Environment} {root : Section} {s : Settings}
    (h : read e root = .ok s) : s.check = .ok () := by
  unfold read at h
  split at h
  · cases h
  · split at h
    · cases h
    · cases h
      assumption

end Settings

end IndexedMail
