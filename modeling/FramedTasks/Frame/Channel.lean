import FramedTasks.Frame.Reader
import FramedTasks.Frame.Writer

/-! # Framed channels

A channel is the two directions of one stream, each moving whole frames.
-/

namespace FramedTasks.Frame

structure Channel (ε : Type) where
  reader : Reader ε
  writer : Writer

namespace Channel

variable {ε : Type}

/-- A channel over the two directions of a stream, with one payload limit for both. -/
def between (source : Source ε) (sink : Sink) (limit : Nat := defaultLimit) : Channel ε :=
  { reader := { source, limit }, writer := { sink, limit } }

def send (channel : Channel ε) (payload : Bytes) : Except FrameError Unit × Channel ε :=
  let (result, writer) := channel.writer.send payload
  (result, { channel with writer })

def receive (channel : Channel ε) : Except FrameError Bytes × Channel ε :=
  let (result, reader) := channel.reader.receive
  (result, { channel with reader })

end Channel

end FramedTasks.Frame
