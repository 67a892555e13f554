import FramedTasks.Frame.Basic
import FramedTasks.Record.Codec
import FramedTasks.Socket.Error
import FramedTasks.Worker.Stage

/-! # Errors that end an exchange of tasks

An error tells which step of the exchange failed, and `stage?` the stage of the worker in which
that step is taken.
-/

namespace FramedTasks

inductive WorkerError where
  | receive (error : FrameError)
  | decode (error : CodecError)
  | encode (error : CodecError)
  | send (error : FrameError)
  | socket (error : SocketError)
  | setup (error : FrameError)
  | notInitialized
  | alreadyInitialized
  | terminated
  | listenerStart (fault : Fault)
  | listenerPanicked (text : String)
  | disconnected
deriving DecidableEq, Repr

namespace WorkerError

def message : WorkerError → String
  | .receive error => s!"receive failed: {error.message}"
  | .decode error => s!"decode failed: {error.message}"
  | .encode error => s!"encode failed: {error.message}"
  | .send error => s!"send failed: {error.message}"
  | .socket error => s!"transport error: {error.message}"
  | .setup error => s!"frame setup failed: {error.message}"
  | .notInitialized => "worker not initialized: call initial() before do_work()"
  | .alreadyInitialized => "worker already initialized"
  | .terminated => "worker already terminated"
  | .listenerStart fault => s!"failed to start shutdown listener: {fault.message}"
  | .listenerPanicked text => s!"shutdown listener panicked: {text}"
  | .disconnected => "peer closed the stream"

def stage? : WorkerError → Option Stage
  | .receive _ | .decode _ => some .awaitingRequest
  | .encode _ | .send _ => some .sendingReply
  | _ => none

end WorkerError

end FramedTasks
