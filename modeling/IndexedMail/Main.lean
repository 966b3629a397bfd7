import IndexedMail.CommandLine.Program

/-!
# The executable

Reads the environment, the time and the files that the arguments name, runs the program, writes
the files that it made, and prints what it says.  No child processes are started from here: every
server reports that its index tool could not be started.
-/

namespace IndexedMail

/-- What is said of every child. -/
def noChildren : String := "child processes are not available"

/-- The bytes of a file, if it can be read. -/
def bytesOf (path : String) : IO (Option (List UInt8)) := do
  try
    let bytes ← IO.FS.readBinFile path
    pure (some bytes.data.toList)
  catch _ => pure none

/-- The text of a file; one that cannot be read counts as empty. -/
def textOf (path : String) : IO String := do
  pure (String.ofList (Text.Utf8.decodeLossy ((← bytesOf path).getD [])))

/-- A variable with its value as the system lists it. -/
def binding? (definition : List Char) : Option (String × String) :=
  let name := definition.takeWhile (· != '=')
  match definition.drop name.length with
  | [] => none
  | _ :: value => some (String.ofList name, String.ofList value)

/-- The variables of this process. -/
def currentEnvironment : IO Environment := do
  let listing ← textOf "/proc/self/environ"
  let definitions := listing.splitOn (String.singleton (Char.ofNat 0))
  pure ⟨definitions.filterMap fun d => binding? d.toList⟩

/-- The number that a word spells. -/
def secondsOf (word : String) : Nat :=
  Text.Numeral.ofDigits (word.toList.takeWhile Char.isDigit)

/-- The present time: that of the start of the system, and the time since then. -/
def currentMoment : IO Calendar.Moment := do
  let uptime ← textOf "/proc/uptime"
  let statistics ← textOf "/proc/stat"
  let words := (statistics.splitOn "\n").map fun line => line.splitOn " "
  let started := words.findSome? fun
    | ["btime", n] => some (secondsOf n)
    | _ => none
  pure (Calendar.Moment.ofSeconds (started.getD 0 + secondsOf uptime))

/-- The files that a command line can name. -/
def namedPaths (args : List String) : List String :=
  CommandLine.defaultConfig.text ::
    args.flatMap fun argument =>
      match (CommandLine.splitOption argument).2 with
      | some value => [argument, value]
      | none => [argument]

/-- The named files that can be read, as seen from a working directory. -/
def namedFiles (base : Files.Place) (paths : List String) : IO Files := do
  let found ← paths.eraseDups.filterMapM fun path => do
    pure ((← bytesOf path).map fun content => (path, content))
  pure (Files.ofContents base found)

/-- The names of the working directory, as the environment tells it. -/
def workingDirectory (environment : Environment) : Files.Place :=
  ((environment.get? "PWD").map fun text => (Path.ofString text).names).getD []

def writeFile (entry : String × List UInt8) : IO Unit := do
  IO.FS.createDirAll (Path.ofString entry.1).parent.text
  IO.FS.writeBinFile entry.1 ⟨entry.2.toArray⟩

/-- Run the program on the given arguments, and end with its code. -/
def runMain (args : List String) : IO UInt32 := do
  let environment ← currentEnvironment
  let now ← currentMoment
  let before ← namedFiles (workingDirectory environment) (namedPaths args)
  let outputTerminal ← (← IO.getStdout).isTty
  let errorsTerminal ← (← IO.getStderr).isTty
  let setting : CommandLine.Setting Unit :=
    { run := fun _ world => (.notStarted noChildren, world)
      environment := environment
      now := now
      limits := Limits.ofThousand
      terminals := { output := outputTerminal, errors := errorsTerminal } }
  let result := CommandLine.program setting args before ()
  let made := result.files.contents.filter fun entry => !before.contents.contains entry
  made.forM writeFile
  IO.print result.output
  IO.eprint result.errors
  match result.ending with
  | .exit code => pure (UInt32.ofNat code)
  | .failed e => do
      IO.eprintln e.message
      pure 1

end IndexedMail

/-- Run the program. -/
def main (args : List String) : IO UInt32 :=
  IndexedMail.runMain args
