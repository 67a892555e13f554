/-! # Stages of a worker

A worker goes round a cycle, from idle over awaiting a request, processing it and sending the
reply, back to idle; it leaves the cycle for good.
-/

namespace FramedTasks

inductive Stage where
  | idle
  | awaitingRequest
  | processing
  | sendingReply
  | shuttingDown
  | terminated
deriving DecidableEq, Repr, Inhabited

def Stage.name : Stage → String
  | .idle => "idle"
  | .awaitingRequest => "awaiting_request"
  | .processing => "processing"
  | .sendingReply => "sending_reply"
  | .shuttingDown => "shutting_down"
  | .terminated => "terminated"

/-- Why a worker ended in order. -/
inductive Termination where
  /-- The shutdown flag was set. -/
  | shutdown
  /-- The host closed the stream between two frames. -/
  | peerClosed
deriving DecidableEq, Repr

end FramedTasks
