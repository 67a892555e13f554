import FramedTasks.Record.Basic

/-! # What a processor may know about its task

A task can have a time limit, and the worker can be asked to shut down while the task runs. Both
are reasons to stop early.
-/

namespace FramedTasks

/-- The circumstances of a task: its time limit in milliseconds and whether the worker is shutting
down. -/
structure TaskContext where
  limit : Option Nat
  shuttingDown : Bool
deriving DecidableEq, Repr

namespace TaskContext

def hasDeadline (context : TaskContext) : Bool := context.limit.isSome

/-- The milliseconds before the deadline when the task has run for some time; zero once the
deadline has passed. -/
def remaining? (context : TaskContext) (elapsed : Nat) : Option Nat :=
  context.limit.map (· - elapsed)

def isCancelled (context : TaskContext) (elapsed : Nat) : Bool :=
  context.shuttingDown || context.remaining? elapsed == some 0

end TaskContext

end FramedTasks
