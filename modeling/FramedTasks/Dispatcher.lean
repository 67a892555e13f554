import FramedTasks.Frame.Channel
import FramedTasks.Worker.Error

/-! # The host side of a stream of tasks

A dispatcher sends a task and waits for its reply. A stream that the peer closes in order is an
error here, since a reply is due.
-/

namespace FramedTasks

structure Dispatcher (ε : Type) where
  channel : Frame.Channel ε
  codec : Codec

namespace Dispatcher

variable {ε : Type}

def send (dispatcher : Dispatcher ε) (task : InputTask) :
    Except WorkerError Unit × Dispatcher ε :=
  let (result, channel) := dispatcher.channel.send (dispatcher.codec.encode task)
  (result.mapError .send, { dispatcher with channel })

def receiveError : FrameError → WorkerError
  | .endOfStream => .disconnected
  | error => .receive error

def replyOf (codec : Codec) : Except FrameError Bytes → Except WorkerError OutputTask
  | .error error => .error (receiveError error)
  | .ok payload => (codec.decode payload).mapError .decode

def receive (dispatcher : Dispatcher ε) : Except WorkerError OutputTask × Dispatcher ε :=
  let (result, channel) := dispatcher.channel.receive
  (replyOf dispatcher.codec result, { dispatcher with channel })

def dispatch (dispatcher : Dispatcher ε) (task : InputTask) :
    Except WorkerError OutputTask × Dispatcher ε :=
  match dispatcher.send task with
  | (.ok (), dispatcher) => dispatcher.receive
  | (.error error, dispatcher) => (.error error, dispatcher)

end Dispatcher

end FramedTasks
