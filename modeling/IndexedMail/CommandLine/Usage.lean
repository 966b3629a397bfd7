import IndexedMail.Text.Quoted
import IndexedMail.Text.Terminal

/-!
# Usage

The commands of the program, how they are called, and their help.

The commands, their arguments and the help on them are the program's own.  How help and errors are
laid out is left to a library, for which the functions that join them to text stand in; no more is
relied on than that they give some text.
-/

namespace IndexedMail.CommandLine

def programName : String := "mail-search"

/-- The commands of the program. -/
inductive Command where
  | search
  | «show»
  | translate
  deriving DecidableEq, Repr

namespace Command

def all : List Command := [search, «show», translate]

/-- The name by which a command is called. -/
def name : Command → String
  | search => "search"
  | «show» => "show"
  | translate => "translate"

/-- The command of a name. -/
def ofName? (s : String) : Option Command :=
  all.find? fun c => c.name == s

/-- The name of the argument that a command takes. -/
def argument : Command → String
  | search => "QUERY"
  | «show» => "PATH"
  | translate => "QUERY"

/-- Whether a command can be limited to servers. -/
def takesServer : Command → Bool
  | search => true
  | «show» => false
  | translate => true

end Command

/-- What is called: the program as a whole, or one of its commands. -/
inductive Scope where
  | program
  | command (c : Command)
  deriving DecidableEq, Repr

namespace Scope

/-- The words by which it is called. -/
def path : Scope → String
  | program => programName
  | command c => programName ++ " " ++ c.name

/-- The line that says how it is called. -/
def usage (s : Scope) : String :=
  match s with
  | program => s!"Usage: {s.path} [OPTIONS] COMMAND [ARGS]..."
  | command c => s!"Usage: {s.path} [OPTIONS] {c.argument}"

/-- The lines of the help behind the usage. -/
def helpLines : Scope → List String
  | program =>
      ["  MailSearch: search mail indexed by Hyper Estraier.",
        "",
        "Options:",
        "  --config FILE  Path to YAML config file (merged over the defaults when they",
        "                 exist).  [default: config/default.yml]",
        "  --help         Show this message and exit.",
        "",
        "Commands:",
        "  search     Search mail and print matches through the logger.",
        "  show       Print results saved by a search with JSON output.",
        "  translate  Show the estcmd command line for QUERY without running it."]
  | command .search =>
      ["  Search mail and print matches through the logger.",
        "",
        "  QUERY may mix free text with @cdate, @author, @size, @title and @uri field",
        "  markers, e.g. '@title=report @cdate>2013/01/01 budget'.",
        "",
        "Options:",
        "  --server TEXT  Search only this server (repeatable). Defaults to all",
        "                 servers.",
        "  --help         Show this message and exit."]
  | command .translate =>
      ["  Show the estcmd command line for QUERY without running it.",
        "",
        "Options:",
        "  --server TEXT  Server whose settings build the command line.",
        "  --help         Show this message and exit."]
  | command .show =>
      ["  Print results saved by a search with JSON output.",
        "",
        "Options:",
        "  --help  Show this message and exit."]

def help (s : Scope) : String :=
  String.intercalate "\n" (s.usage :: "" :: s.helpLines) ++ "\n"

end Scope

/-- Why a command line is not understood. -/
inductive UsageError where
  | unknownOption (scope : Scope) (name : String) (similar : List String)
  | missingValue (name : String)
  | unwantedValue (name : String)
  | missingArgument (scope : Scope) (name : String)
  | extraArguments (scope : Scope) (arguments : List String)
  | missingCommand
  | unknownCommand (name : String)
  | missingFile (scope : Scope) (hint path : String)
  | directoryGiven (scope : Scope) (hint path : String)
  deriving DecidableEq, Repr

namespace UsageError

/-- What is to blame for the error; where only an option is at fault, nothing is. -/
def scope? : UsageError → Option Scope
  | unknownOption scope _ _ => some scope
  | missingValue _ => none
  | unwantedValue _ => none
  | missingArgument scope _ => some scope
  | extraArguments scope _ => some scope
  | missingCommand => some .program
  | unknownCommand _ => some .program
  | missingFile scope _ _ => some scope
  | directoryGiven scope _ _ => some scope

/-- The options that were perhaps meant. -/
def similarText : List String → String
  | [] => ""
  | [only] => s!" Did you mean {only}?"
  | all => s!" (Possible options: {Text.commaSeparated all})"

/-- The error in words. -/
def message : UsageError → String
  | unknownOption _ name similar => s!"No such option: {name}" ++ similarText similar
  | missingValue name => s!"Option {Text.quoted name} requires an argument."
  | unwantedValue name => s!"Option {Text.quoted name} does not take a value."
  | missingArgument _ name => s!"Missing argument '{name}'."
  | extraArguments _ arguments =>
      let word := if arguments.length = 1 then "argument" else "arguments"
      let list := String.intercalate " " arguments
      s!"Got unexpected extra {word} ({list})"
  | missingCommand => "Missing command."
  | unknownCommand name => s!"No such command {Text.quoted name}."
  | missingFile _ hint path =>
      s!"Invalid value for '{hint}': File {Text.quoted path} does not exist."
  | directoryGiven _ hint path =>
      s!"Invalid value for '{hint}': File {Text.quoted path} is a directory."

/-- The error as the program shows it, behind the usage of what is to blame. -/
def text (terminal : Bool) (e : UsageError) : String :=
  (match e.scope? with
    | none => ""
    | some scope => s!"{scope.usage}\nTry '{scope.path} --help' for help.\n\n") ++
    Text.Terminal.shown terminal s!"Error: {e.message}\n"

end UsageError

end IndexedMail.CommandLine
