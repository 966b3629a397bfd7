import IndexedMail.CommandLine.Usage
import IndexedMail.Text.Similarity

/-!
# Options

Splitting a command line into options and other arguments.  An option has its value behind an
equals sign or in the next argument; two dashes end the options.

This stands in for a library that the program calls.  What is relied on are its conventions for
options and the words of its errors; which options there are is the program's own.
-/

namespace IndexedMail.CommandLine

/-- An option that is known: its name, and whether it takes a value. -/
structure OptionForm where
  name : String
  takesValue : Bool
  deriving DecidableEq, Repr

def helpOption : OptionForm := ⟨"--help", false⟩

/-- The option that names the settings file. -/
def configOption : OptionForm := ⟨"--config", true⟩

def serverOption : OptionForm := ⟨"--server", true⟩

/-- The options that are known in a scope. -/
def Scope.options : Scope → List OptionForm
  | .program => [configOption, helpOption]
  | .command c => if c.takesServer then [serverOption, helpOption] else [helpOption]

/-- Whether options may follow other arguments. -/
def Scope.isMixed : Scope → Bool
  | .program => false
  | .command _ => true

/-- The options with their values, and the other arguments. -/
structure Arguments where
  options : List (String × Option String)
  others : List String
  deriving DecidableEq, Repr

namespace Arguments

/-- No arguments. -/
def none : Arguments := ⟨[], []⟩

/-- The arguments with one more option in front. -/
def withOption (name : String) (value : Option String) (a : Arguments) : Arguments :=
  { a with options := (name, value) :: a.options }

/-- The arguments with one more other argument in front. -/
def withOther (argument : String) (a : Arguments) : Arguments :=
  { a with others := argument :: a.others }

/-- The values of an option, in order. -/
def values (a : Arguments) (o : OptionForm) : List String :=
  a.options.filterMap fun entry => if entry.1 == o.name then entry.2 else Option.none

def asksForHelp (a : Arguments) : Bool :=
  a.options.any fun entry => entry.1 == helpOption.name

end Arguments

/-- Whether an argument is meant as an option. -/
def isOption (argument : String) : Bool :=
  match argument.toList with
  | '-' :: _ :: _ => true
  | _ => false

/-- The name of an option, and the value behind its equals sign. -/
def splitOption (argument : String) : String × Option String :=
  let cs := argument.toList
  let name := cs.takeWhile (· != '=')
  match cs.drop name.length with
  | [] => (argument, none)
  | _ :: value => (String.ofList name, some (String.ofList value))

/-- The options of a scope that resemble a name. -/
def similarOptions (scope : Scope) (name : String) : List String :=
  ((scope.options.map OptionForm.name).filter fun known =>
    Text.Similarity.isClose known.toList name.toList).mergeSort fun a b => decide (a ≤ b)

/-- The refusal of an option; one with a single dash is known by its first letter. -/
def unknown (scope : Scope) (argument : String) : UsageError :=
  let name := (splitOption argument).1
  match argument.toList with
  | '-' :: '-' :: _ => .unknownOption scope name (similarOptions scope name)
  | '-' :: c :: _ => .unknownOption scope (String.ofList ['-', c]) []
  | _ => .unknownOption scope name []

/-- Split a command line. -/
def arguments (scope : Scope) : List String → Except UsageError Arguments
  | [] => .ok .none
  | argument :: rest =>
      if argument == "--" then .ok ⟨[], rest⟩
      else if !isOption argument then
        if scope.isMixed then (arguments scope rest).map (·.withOther argument)
        else .ok ⟨[], argument :: rest⟩
      else
        let (name, value) := splitOption argument
        match scope.options.find? fun o => o.name == name with
        | none => .error (unknown scope argument)
        | some o =>
            match o.takesValue, value with
            | false, none => (arguments scope rest).map (·.withOption name none)
            | false, some _ => .error (.unwantedValue name)
            | true, some v => (arguments scope rest).map (·.withOption name (some v))
            | true, none =>
                match rest with
                | [] => .error (.missingValue name)
                | v :: more => (arguments scope more).map (·.withOption name (some v))

end IndexedMail.CommandLine
