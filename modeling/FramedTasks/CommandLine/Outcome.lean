import FramedTasks.CommandLine.Exit

/-! # Outcomes

What a program leaves behind: the text that it has printed, the line of an error if it failed, and
the number with which it exits.
-/

namespace FramedTasks.CommandLine

structure Outcome where
  number : Nat
  printed : String := ""
  error : Option String := none
deriving DecidableEq, Repr

namespace Outcome

/-- A program that has printed a text and succeeds. -/
def success (printed : String) : Outcome := { number := ExitCode.success.number, printed }

def failure (failure : Failure) (printed : String := "") : Outcome :=
  { number := failure.code.number, printed, error := some failure.message }

end Outcome

end FramedTasks.CommandLine
