import FramedTasks.Worker.Context

/-! # Processors

A processor turns each task into a reply. It may keep a state from task to task, it may ask the
worker to shut down, and any of its calls may panic; the worker answers for a call that panics.
-/

namespace FramedTasks

/-- What a call of a processor comes to. -/
inductive Answer where
  | reply (reply : OutputTask)
  /-- The call panicked, with a text or with something else. -/
  | panic (text : Option String)
deriving DecidableEq

def panicText (text : Option String) : String := text.getD "processor panicked"

def Answer.toReply : Answer → OutputTask
  | .reply output => output
  | .panic text => { message := panicText text, status := .unknownError }

/-- A call of a processor: what it comes to, the state after it, whether it sets the shutdown flag
and how many milliseconds it takes. -/
structure Call (σ : Type) where
  answer : Answer
  state : σ
  triggers : Bool := false
  delay : Nat := 0

/-- A function of the state so far, the task and its circumstances. -/
abbrev Processor (σ : Type) := σ → InputTask → TaskContext → Call σ

end FramedTasks
