import FramedTasks.Frame.Channel
import FramedTasks.Socket.Connection

/-! # Frames over a connection

Both ends of a connection move whole frames. An end takes from the connection no more than it needs
for the frame it is receiving, and keeps the bytes of an unfinished one.
-/

namespace FramedTasks.Frame

/-- What an end of a connection keeps between calls. -/
structure Station where
  limit : Nat := defaultLimit
  buffer : Bytes := []
deriving DecidableEq, Repr

structure Duplex where
  connection : Connection := {}
  left : Station := {}
  right : Station := {}
deriving DecidableEq, Repr

namespace Duplex

def station (duplex : Duplex) : Side → Station
  | .left => duplex.left
  | .right => duplex.right

def withBuffer (duplex : Duplex) (side : Side) (buffer : Bytes) : Duplex :=
  match side with
  | .left => { duplex with left := { duplex.left with buffer } }
  | .right => { duplex with right := { duplex.right with buffer } }

def source {ε : Type} (inflow : Inflow) : Source ε :=
  { events := .data inflow.bytes none ::
      (if inflow.reset then [.fault Connection.resetByPeer] else []) ++
      (if inflow.shut then [] else [.fault Connection.nothingYet]) }

/-- What is on the way after reads that left a source behind. -/
def remainder {ε : Type} [DecidableEq ε] (inflow : Inflow) (source : Source ε) : Inflow :=
  { inflow with
    bytes := source.left
    reset := source.events.any (· == .fault Connection.resetByPeer) }

def send (side : Side) (payload : Bytes) (duplex : Duplex) : Except FrameError Unit × Duplex :=
  let limit := effectiveLimit (duplex.station side).limit
  if limit < payload.length then (.error (.payloadTooLarge payload.length limit), duplex)
  else
    let (result, connection) := duplex.connection.write side (wire payload)
    (result.mapError .io, { duplex with connection })

def receive (side : Side) (duplex : Duplex) : Except FrameError Bytes × Duplex :=
  let station := duplex.station side
  let inflow := duplex.connection.inflow side
  let reader : Reader Unit := ⟨source inflow, station.buffer, station.limit⟩
  let (result, reader) := reader.receive
  let connection := duplex.connection.update side (remainder · reader.source)
  (result, { duplex with connection }.withBuffer side reader.buffer)

end Duplex

end FramedTasks.Frame
