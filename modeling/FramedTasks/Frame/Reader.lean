import FramedTasks.Frame.Basic
import FramedTasks.Stream.Source

/-! # Receiving frames

A reader asks its stream for exactly the bytes that the current header or frame still lacks, at
most a chunk at a time, so that it never holds a byte of the next frame. A read that times out or
fails leaves the bytes read so far in the buffer, and the next call resumes the frame.
-/

namespace FramedTasks.Frame

def chunkSize : Nat := 8192

/-- A stream with the bytes of an unfinished frame. -/
structure Reader (ε : Type) where
  source : Source ε
  buffer : Bytes := []
  limit : Nat := defaultLimit

namespace Reader

variable {ε : Type}

/-- The end of the stream: in order between two frames, otherwise inside one. -/
def closedError (buffer : Bytes) : FrameError :=
  if buffer.isEmpty then .endOfStream else .truncated (expectedLength buffer) buffer.length

/-- The bytes that the next read asks for. -/
def wanted (buffer : Bytes) : Nat := min (expectedLength buffer - buffer.length) chunkSize

/-- Read until the frame at the front of the buffer is complete: its payload or the reason why
there is none, with the bytes that stay buffered. -/
def receiveFrom (limit : Nat) (buffer : Bytes) (source : Source ε) :
    Except FrameError Bytes × Bytes × Source ε :=
  match take limit buffer with
  | .error error => (.error error, buffer, source)
  | .ok (some (payload, rest)) => (.ok payload, rest, source)
  | .ok none =>
    match _ : source.read (wanted buffer) with
    | (.bytes bytes, source') => receiveFrom limit (buffer ++ bytes) source'
    | (.fault fault, source') =>
      if fault.isInterrupted then receiveFrom limit buffer source'
      else if fault.isTimeout then (.error .timeout, buffer, source')
      else (.error (.io fault), buffer, source')
    | (.closed, source') => (.error (closedError buffer), buffer, source')
termination_by source.weight
decreasing_by
  all_goals
    have outcome : source.read (wanted buffer) = (_, source') := ‹_›
    have lighter := @Source.weight_read_lt _ source (wanted buffer) (by rw [outcome]; simp)
    rwa [outcome] at lighter

/-- The work that a reader holds: what its stream can still bring, and the bytes it keeps. -/
def work (reader : Reader ε) : Nat := reader.source.weight + reader.buffer.length

def receive (reader : Reader ε) : Except FrameError Bytes × Reader ε :=
  let (result, buffer, source) :=
    receiveFrom (effectiveLimit reader.limit) reader.buffer reader.source
  (result, { reader with buffer, source })

/-- Whether a call may be followed by another one. -/
def goesOn : Except FrameError Bytes → Bool
  | .ok _ | .error .timeout => true
  | _ => false

theorem work_receiveFrom_lt {limit : Nat} {buffer : Bytes} {source : Source ε}
    (more : goesOn (receiveFrom limit buffer source).1 = true) :
    (receiveFrom limit buffer source).2.2.weight + (receiveFrom limit buffer source).2.1.length <
      source.weight + buffer.length := by
  fun_induction receiveFrom limit buffer source with
  | case1 buffer source error refused =>
    obtain ⟨size, rfl⟩ := error_of_take refused
    simp [goesOn] at more
  | case2 buffer source payload rest found =>
    have := length_of_take found
    simp only [headerSize] at *
    omega
  | case3 buffer source _ bytes source' outcome ih =>
    have size := source.weight_read_add_size (wanted buffer)
    rw [outcome] at size
    have := ih more
    simp only [Reading.size, List.length_append] at *
    omega
  | case4 buffer source _ fault source' outcome _ ih =>
    have lighter := @Source.weight_read_lt _ source (wanted buffer) (by rw [outcome]; simp)
    rw [outcome] at lighter
    have := ih more
    simp only at *
    omega
  | case5 buffer source _ fault source' outcome =>
    have lighter := @Source.weight_read_lt _ source (wanted buffer) (by rw [outcome]; simp)
    rw [outcome] at lighter
    simp only at *
    omega
  | case6 => simp [goesOn] at more
  | case7 buffer =>
    simp only [closedError] at more
    split at more <;> simp [goesOn] at more

theorem work_receive_lt {reader : Reader ε} (more : goesOn reader.receive.1 = true) :
    reader.receive.2.work < reader.work := work_receiveFrom_lt more

end Reader

end FramedTasks.Frame
