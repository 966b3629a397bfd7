import IndexedMail.Environment
import IndexedMail.Log.Record
import IndexedMail.Text.Encoding

/-!
# Child processes

What is handed to a child process, and what comes back: an exit status with output, or the news
that the program could not be started.
-/

namespace IndexedMail.Engine

/-- The command line of a child and its environment; without one it has that of its parent. -/
structure Invocation where
  argv : List String
  environment : Option Environment
  deriving DecidableEq, Repr

/-- What comes of a child. -/
inductive Outcome where
  | exited (status : Int) (output : List UInt8)
  | notStarted (reason : String)
  deriving DecidableEq, Repr

namespace Outcome

/-- The exit status, if the program was started. -/
def status? : Outcome → Option Int
  | exited status _ => some status
  | notStarted _ => none

/-- The output as text; in its place the reason for which the program was not started. -/
def text (encoding : Text.Encoding) : Outcome → List Char
  | exited _ output => encoding.decode output
  | notStarted reason => reason.toList

/-- Whether the child did what it was asked for. -/
def succeeded (o : Outcome) : Bool :=
  o.status? == some 0

/-- The note that a log keeps of the end of a child. -/
def record : Outcome → Log.Record
  | exited status output =>
      .debug s!"estcmd exit status={Text.Numeral.text status} bytes={output.length}"
  | notStarted reason => .debug s!"estcmd could not be started: {reason}"

theorem succeeded_iff (o : Outcome) : o.succeeded = true ↔ o.status? = some 0 := by
  simp [succeeded]

end Outcome

namespace Invocation

/-- The note that a log keeps of the start of a child. -/
def record (i : Invocation) : Log.Record :=
  .debug ("estcmd run: " ++ String.intercalate " " i.argv)

end Invocation

/-- The records of one child from its start to its end. -/
def childRecords (i : Invocation) (o : Outcome) : List Log.Record :=
  [i.record, o.record]

/-- The failure of a child, as it is reported. -/
structure ProcessError where
  argv : List String
  status : Option Int
  deriving DecidableEq, Repr

namespace ProcessError

/-- The program that failed. -/
def program (e : ProcessError) : String :=
  e.argv.headD "<none>"

def message (e : ProcessError) : String :=
  match e.status with
  | none => s!"Couldn't run {e.program}: program could not be started"
  | some status => s!"Couldn't run {e.program}: exit status {Text.Numeral.text status}"

end ProcessError

end IndexedMail.Engine
