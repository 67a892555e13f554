import FramedTasks.Bytes
import FramedTasks.Stream.Fault

/-! # Writing to a stream

What a stream does with writes and flushes is a list of events for each. When the events are used
up, a write takes everything and a flush succeeds.
-/

namespace FramedTasks

/-- What a stream does with a write. -/
inductive WriteEvent where
  /-- It takes at most so many bytes. -/
  | accept (count : Nat)
  | fault (fault : Fault)
deriving DecidableEq, Repr

/-- What a stream does with a flush. -/
inductive FlushEvent where
  | done
  | fault (fault : Fault)
deriving DecidableEq, Repr

/-- A stream to write to: what it will do, the bytes it has taken, and a record, newest first, of
how many bytes each write offered. -/
structure Sink where
  writes : List WriteEvent := []
  flushes : List FlushEvent := []
  taken : Bytes := []
  offered : List Nat := []
  flushCount : Nat := 0
deriving DecidableEq, Repr

namespace Sink

/-- How a writer deals with a stream that does not take everything at once: which faults of a write
or a flush it ignores, and the fault that it reports when a write takes nothing. -/
structure Manner where
  retries : Fault → Bool
  stuck : Fault

/-- What is interrupted is tried again. -/
def persistent : Manner := ⟨Fault.isInterrupted, ⟨.writeZero, none⟩⟩

/-- Every fault ends it. -/
def direct : Manner :=
  ⟨fun _ => false, ⟨.writeZero, some "failed to write frame to transport"⟩⟩

def writeAll (manner : Manner) (writes : List WriteEvent) (taken : Bytes) (offered : List Nat)
    (bytes : Bytes) : Except Fault Unit × List WriteEvent × Bytes × List Nat :=
  match bytes with
  | [] => (.ok (), writes, taken, offered)
  | _ :: _ =>
    match writes with
    | [] => (.ok (), [], taken ++ bytes, bytes.length :: offered)
    | .accept count :: rest =>
      match bytes.take count with
      | [] => (.error manner.stuck, rest, taken, bytes.length :: offered)
      | accepted =>
        writeAll manner rest (taken ++ accepted) (bytes.length :: offered) (bytes.drop count)
    | .fault fault :: rest =>
      if manner.retries fault then writeAll manner rest taken (bytes.length :: offered) bytes
      else (.error fault, rest, taken, bytes.length :: offered)

def write (sink : Sink) (bytes : Bytes) (manner : Manner := persistent) :
    Except Fault Unit × Sink :=
  let (result, writes, taken, offered) :=
    writeAll manner sink.writes sink.taken sink.offered bytes
  (result, { sink with writes, taken, offered })

def flushAll (manner : Manner) (count : Nat) :
    List FlushEvent → Except Fault Unit × List FlushEvent × Nat
  | [] => (.ok (), [], count + 1)
  | .done :: rest => (.ok (), rest, count + 1)
  | .fault fault :: rest =>
    if manner.retries fault then flushAll manner (count + 1) rest
    else (.error fault, rest, count + 1)

def flush (sink : Sink) (manner : Manner := persistent) : Except Fault Unit × Sink :=
  let (result, flushes, flushCount) := flushAll manner sink.flushCount sink.flushes
  (result, { sink with flushes, flushCount })

def deliver (sink : Sink) (bytes : Bytes) (manner : Manner := persistent) :
    Except Fault Unit × Sink :=
  match sink.write bytes manner with
  | (.ok (), written) => written.flush manner
  | (.error fault, written) => (.error fault, written)

end Sink

end FramedTasks
