import IndexedMail.Engine.Child

/-!
# Scripted children

A world in which the outcomes of child processes are known beforehand, one for each process, and
in which the processes that were started are remembered.
-/

namespace IndexedMail.Engine

/-- The outcomes to come, and the children that were started, in order. -/
structure Script where
  outcomes : List Outcome
  started : List Invocation
  deriving DecidableEq, Repr

namespace Script

/-- What becomes of children that the script says nothing about: they succeed in silence. -/
def silent : Outcome := .exited 0 []

/-- Start a child. -/
def run (i : Invocation) (s : Script) : Outcome × Script :=
  (s.outcomes.headD silent, ⟨s.outcomes.tail, s.started ++ [i]⟩)

theorem started_run (i : Invocation) (s : Script) : (s.run i).2.started = s.started ++ [i] := rfl

end Script

end IndexedMail.Engine
