import FramedTasks.Bytes
import FramedTasks.Stream.Fault
import FramedTasks.Total

/-! # Timelines

Where time matters, a stream is a timeline: what arrives on it and when, in milliseconds. Whoever
reads after that time gets it at once.
-/

namespace FramedTasks

/-- What arrives at a time. -/
inductive TimedEvent where
  | data (bytes : Bytes)
  | fault (fault : Fault)
  /-- The end of the stream, once. -/
  | closed
deriving DecidableEq, Repr

/-- The events to come, and whether the stream then stays silent for ever instead of at its end. -/
structure Timeline where
  events : List (Nat × TimedEvent)
  hangs : Bool := false
deriving DecidableEq, Repr

namespace Timeline

def eventWork : Nat × TimedEvent → Nat
  | (_, .data bytes) => bytes.length + 1
  | _ => 1

def work (events : List (Nat × TimedEvent)) : Nat := total eventWork events

@[simp] theorem work_nil : work [] = 0 := rfl

@[simp] theorem work_cons (event : Nat × TimedEvent) (events : List (Nat × TimedEvent)) :
    work (event :: events) = eventWork event + work events := rfl

def lastTime (timeline : Timeline) : Nat := (timeline.events.map (·.1)).foldl max 0

end Timeline

end FramedTasks
