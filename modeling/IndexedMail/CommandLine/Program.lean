import IndexedMail.CommandLine.Action
import IndexedMail.CommandLine.Options
import IndexedMail.Log.Logger
import IndexedMail.Settings.File
import IndexedMail.Text.Alphanumeric

/-!
# The program

From a command line to an exit code: the options of the program, the settings, the options of the
command, the log, and then the action itself.  Settings that cannot be used and logs that cannot
be opened end the program by an error of their own.

The environment is the one that the program works with: variables which a file adds before that
are taken to be in it.  The arguments are texts; what becomes of bytes that are no text is not
modelled here.
-/

namespace IndexedMail.CommandLine

/-- Why the program ends without an exit code. -/
inductive Failure where
  | files (e : Files.Error)
  | settings (e : Settings.FileError)
  | log (e : Log.Error)
  deriving DecidableEq, Repr

namespace Failure

def message : Failure → String
  | files e => e.message
  | settings e => e.message
  | log e => e.message

end Failure

/-- How the program ends. -/
inductive Ending where
  | exit (code : Nat)
  | failed (e : Failure)
  deriving DecidableEq, Repr

/-- What the program leaves behind. -/
structure Result (σ : Type) where
  ending : Ending
  output : String
  errors : String
  files : Files
  world : σ

/-- Which of the streams of the program end at a terminal. -/
structure Terminals where
  output : Bool
  errors : Bool
  deriving DecidableEq, Repr

/-- What the program finds when it begins. -/
structure Setting (σ : Type) where
  run : Engine.Invocation → σ → Engine.Outcome × σ
  environment : Environment
  now : Calendar.Moment
  limits : Limits
  terminals : Terminals

/-- The defaults of the settings, which also are the settings if no others are named. -/
def defaultConfig : Path := Path.ofString "config/default.yml"

/-- Why the program stops before an action begins. -/
inductive Stop where
  | help (scope : Scope)
  | usage (e : UsageError)
  | failed (e : Failure)
  deriving DecidableEq, Repr

/-- Whether a text names a place that can only be a directory. -/
def endsAsDirectory (s : String) : Bool :=
  match s.toList.reverse with
  | '/' :: _ => true
  | '.' :: '/' :: _ => true
  | _ => false

/-- Accept a text as the path of a file that is there. -/
def existingFile (scope : Scope) (hint text : String) (f : Files) : Except Stop Path :=
  let path := Path.ofString text
  let missing : Except Stop Path := .error (.usage (.missingFile scope hint text))
  if text.isEmpty then missing
  else
    match f.resolve path with
    | .error .nulInPath => .error (.failed (.files .nulInPath))
    | .error _ => missing
    | .ok place =>
        if Files.isTooLong text then missing
        else
          match f.at? place with
          | none => missing
          | some .directory => .error (.usage (.directoryGiven scope hint text))
          | some (.file _) => if endsAsDirectory text then missing else .ok path

/-- A failure of settings stops the program. -/
def orStop {α : Type} : Except Settings.FileError α → Except Stop α
  | .error e => .error (.failed (.settings e))
  | .ok a => .ok a

/-- The content of a file; a failure stops the program. -/
def contentOrStop (path : Path) (f : Files) : Except Stop (List UInt8) :=
  match f.read path with
  | .error e => .error (.failed (.files e))
  | .ok content => .ok content

/-- The settings of a file, laid over the defaults if there are such. -/
def settingsOf (limits : Limits) (environment : Environment) (config : Path) (f : Files) :
    Except Stop Settings :=
  if config != defaultConfig && (f.find? defaultConfig).isSome then do
    let defaultContent ← contentOrStop defaultConfig f
    let defaults ← orStop (Settings.rootOfBytes limits.yaml defaultContent)
    let content ← contentOrStop config f
    orStop (Settings.ofBytesOver limits environment defaults content)
  else do
    let content ← contentOrStop config f
    orStop (Settings.ofBytes limits environment content)

/-- An action that is asked for. -/
inductive Task where
  | search (query : String) (servers : List String)
  | «show» (path : Path)
  | translate (query : String) (server : Option String)
  deriving DecidableEq, Repr

/-- The command whose action a task is. -/
def Task.command : Task → Command
  | search _ _ => .search
  | «show» _ => .show
  | translate _ _ => .translate

/-- Refuse arguments that are left over. -/
def noMore (scope : Scope) (extra : List String) : Except Stop Unit :=
  if extra.isEmpty then .ok () else .error (.usage (.extraArguments scope extra))

/-- The task that the arguments of a command ask for. -/
def task (c : Command) (args : List String) (f : Files) : Except Stop Task :=
  let scope := Scope.command c
  match arguments scope args with
  | .error e => .error (.usage e)
  | .ok a =>
      if a.asksForHelp then .error (.help scope)
      else
        match a.others with
        | [] => .error (.usage (.missingArgument scope c.argument))
        | first :: extra =>
            match c with
            | .search => (noMore scope extra).map fun _ => .search first (a.values serverOption)
            | .translate =>
                (noMore scope extra).map fun _ =>
                  .translate first (a.values serverOption).getLast?
            | .show => do
                let path ← existingFile scope c.argument first f
                noMore scope extra
                pure (.show path)

/-- The command of a name; a name that begins like an option asks for help instead. -/
def command (name : String) : Except Stop Command :=
  match Command.ofName? name with
  | some c => .ok c
  | none =>
      match name.toList with
      | [] => .error (.usage (.unknownCommand name))
      | c :: _ =>
          if Text.isAlphanumeric c then .error (.usage (.unknownCommand name))
          else .error (.help .program)

/-- The settings and the task that a command line asks for. -/
def plan (limits : Limits) (environment : Environment) (args : List String) (f : Files) :
    Except Stop (Settings × Task) :=
  if args.isEmpty then .error (.help .program)
  else
    match arguments .program args with
    | .error e => .error (.usage e)
    | .ok a =>
        if a.asksForHelp then .error (.help .program)
        else do
          let config ← existingFile .program configOption.name
            ((a.values configOption).getLast?.getD defaultConfig.text) f
          match a.others with
          | [] => .error (.usage .missingCommand)
          | name :: rest => do
              let c ← command name
              let settings ← settingsOf limits environment config f
              let t ← task c rest f
              pure (settings, t)

variable {σ : Type}

/-- Whether a log takes notes on progress. -/
def takesNotes (sink : Log.Sink) : Bool :=
  sink.takes (.info "")

/-- What a task does with its log. -/
def perform (s : Setting σ) (settings : Settings) (sink : Log.Sink) (t : Task) (f : Files)
    (world : σ) : Deed σ :=
  match t with
  | .search query servers =>
      search s.run s.environment s.now settings
        { action := t.command.name, query := query, servers := servers } f world
  | .show path => showSaved s.limits (takesNotes sink) path f world
  | .translate query server => translate s.terminals.output settings query server f world

/-- How a log is configured for a task. -/
def logRequest (settings : Settings) (t : Task) : Log.Request :=
  { level := settings.log.level
    action := some t.command.name
    toFile := settings.log.toFile
    dir := settings.log.dir }

/-- The code of a program that did what it was asked for. -/
def success : Nat := 0

def abortCode : Nat := 1

/-- The code of a program whose command line was not understood. -/
def usageCode : Nat := 2

/-- What the program leaves behind when it stops before an action. -/
def stopped (s : Setting σ) (stop : Stop) (f : Files) (world : σ) : Result σ :=
  match stop with
  | .help scope =>
      { ending := .exit success, output := scope.help, errors := "", files := f, world := world }
  | .usage e =>
      { ending := .exit usageCode
        output := ""
        errors := e.text s.terminals.errors
        files := f
        world := world }
  | .failed e =>
      { ending := .failed e, output := "", errors := "", files := f, world := world }

/-- Run a task with its log. -/
def runTask (s : Setting σ) (settings : Settings) (t : Task) (f : Files) (world : σ) : Result σ :=
  match Log.configure s.now (logRequest settings t) f with
  | (.error e, f) => stopped s (.failed (.log e)) f world
  | (.ok sink, f) =>
      let deed := perform s settings sink t f world
      let (text, f) := Log.write s.now (some sink) deed.records deed.files
      let console := Text.Wide.shown text
      { ending := .exit (if deed.aborted then abortCode else success)
        output := deed.output
        errors := if deed.aborted then console ++ "Aborted!\n" else console
        files := f
        world := deed.world }

/-- Run the program. -/
def program (s : Setting σ) (args : List String) (f : Files) (world : σ) : Result σ :=
  match plan s.limits s.environment args f with
  | .error stop => stopped s stop f world
  | .ok (settings, t) => runTask s settings t f world

end IndexedMail.CommandLine
