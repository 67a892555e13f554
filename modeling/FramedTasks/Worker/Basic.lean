import FramedTasks.Worker.Config
import FramedTasks.Worker.Processor

/-! # The worker

A worker receives requests one at a time, has each processed and sends the reply. What it is
linked to, a stream with a listener beside it, is a parameter; the flag, the stage and the journal
are the same for every worker.
-/

namespace FramedTasks

/-- An entry in the journal of a worker. -/
inductive Deed where
  | entered (stage : Stage)
  | processed (task : InputTask) (reply : OutputTask)
deriving DecidableEq

/-- A worker with its journal, newest entry first. -/
structure Worker (Link : Type) where
  link : Link
  config : WorkerConfig := {}
  flag : Flag := {}
  stage : Stage := .idle
  journal : List Deed := []

namespace Worker

variable {Link : Type}

/-- Set the shutdown flag, and tell whether this call set it. -/
def trigger (worker : Worker Link) : Bool × Worker Link :=
  let (first, flag) := worker.flag.trigger
  (first, { worker with flag })

/-- Set the shutdown flag under a condition. -/
def triggerIf (worker : Worker Link) (condition : Bool) : Worker Link :=
  if condition then worker.trigger.2 else worker

def enter (worker : Worker Link) (stage : Stage) : Worker Link :=
  { worker with stage, journal := .entered stage :: worker.journal }

def note (worker : Worker Link) (task : InputTask) (reply : OutputTask) : Worker Link :=
  { worker with journal := .processed task reply :: worker.journal }

/-- The result of a worker whose run has ended: a listener that broke down spoils an end in order,
and hides no error. -/
def concluded (ended : Except WorkerError Termination) (panic? : Option String) :
    Except WorkerError Termination :=
  match ended, panic? with
  | .ok _, some text => .error (.listenerPanicked text)
  | ended, _ => ended

@[simp] theorem concluded_none (ended : Except WorkerError Termination) :
    concluded ended none = ended := by
  cases ended <;> rfl

theorem eq_ok_of_concluded {ended : Except WorkerError Termination} {panic? : Option String}
    {termination : Termination} (ordered : concluded ended panic? = .ok termination) :
    ended = .ok termination := by
  cases ended with
  | error error => cases panic? <;> simp [concluded] at ordered
  | ok other =>
    cases panic? with
    | some text => simp [concluded] at ordered
    | none => rwa [concluded_none] at ordered

def context (worker : Worker Link) (task : InputTask) : TaskContext :=
  { limit := task.timeoutMillis?, shuttingDown := worker.flag.isSet }

def seen (worker : Worker Link) : List InputTask :=
  worker.journal.reverse.filterMap fun
    | .processed task _ => some task
    | .entered _ => none

@[simp] theorem link_trigger (worker : Worker Link) : worker.trigger.2.link = worker.link := rfl

@[simp] theorem link_triggerIf (worker : Worker Link) (condition : Bool) :
    (worker.triggerIf condition).link = worker.link := by
  cases condition <;> rfl

@[simp] theorem link_enter (worker : Worker Link) (stage : Stage) :
    (worker.enter stage).link = worker.link := rfl

@[simp] theorem link_note (worker : Worker Link) (task : InputTask) (reply : OutputTask) :
    (worker.note task reply).link = worker.link := rfl

end Worker

end FramedTasks
