import FramedTasks.Frame.Basic
import FramedTasks.Stream.Sink

/-! # Sending frames

Header and payload go out as one run of bytes, and a flush follows. A payload above the limit is
refused before anything is written.
-/

namespace FramedTasks.Frame

/-- A stream that frames are written to. -/
structure Writer where
  sink : Sink := {}
  limit : Nat := defaultLimit
deriving DecidableEq, Repr

namespace Writer

def flush (writer : Writer) : Except FrameError Unit × Writer :=
  let (result, sink) := writer.sink.flush
  (result.mapError .io, { writer with sink })

def send (writer : Writer) (payload : Bytes) : Except FrameError Unit × Writer :=
  let limit := effectiveLimit writer.limit
  if limit < payload.length then (.error (.payloadTooLarge payload.length limit), writer)
  else
    match writer.sink.write (wire payload) with
    | (.error fault, sink) => (.error (.io fault), { writer with sink })
    | (.ok (), sink) => flush { writer with sink }

end Writer

end FramedTasks.Frame
