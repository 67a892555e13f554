import FramedTasks.Stream.Fault

/-! # Polling a control source

A host talks to the listener of its worker over a control source. A poll waits for the next token
of the source for a bounded time.
-/

namespace FramedTasks

/-- The outcome of a poll. -/
inductive Poll where
  | token (text : String)
  /-- Nothing arrived in time. -/
  | idle
  /-- No token will arrive any more. -/
  | closed
  | fault (fault : Fault)
  /-- The source broke down in the middle of the poll. -/
  | panic (text : String)
deriving DecidableEq, Repr

/-- Whether a listener may poll again afterwards. -/
def Poll.goesOn : Poll → Bool
  | .token _ | .idle => true
  | _ => false

def Poll.isToken : Poll → Bool
  | .token _ => true
  | _ => false

end FramedTasks
