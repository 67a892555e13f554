import FramedTasks.Bytes
import FramedTasks.Stream.Fault

/-! # Frames

A frame is a payload behind a header of four bytes, the payload's length with its most significant
byte first. `take` finds the frame at the front of a buffer.
-/

namespace FramedTasks

/-- Why a frame was not moved. -/
inductive FrameError where
  /-- The stream ended between two frames. -/
  | endOfStream
  /-- The stream ended inside a frame. -/
  | truncated (expected received : Nat)
  /-- A read ran out of time; the bytes of the frame read so far are kept. -/
  | timeout
  | payloadTooLarge (size limit : Nat)
  | io (fault : Fault)
deriving DecidableEq, Repr

def FrameError.message : FrameError → String
  | .endOfStream => "end of stream"
  | .truncated expected received =>
    s!"truncated frame: expected {expected} bytes, stream ended after {received}"
  | .timeout => "timed out waiting for frame"
  | .payloadTooLarge size limit => s!"payload too large ({size} bytes, max {limit})"
  | .io fault => s!"frame I/O error: {fault.message}"

/-- Whether the same operation may be tried again. -/
def FrameError.isTimeout : FrameError → Bool
  | .timeout => true
  | _ => false

def FrameError.isEndOfStream : FrameError → Bool
  | .endOfStream => true
  | _ => false

namespace Frame

def headerSize : Nat := 4

/-- The payload limit where none is set. -/
def defaultLimit : Nat := 16 * 1024 * 1024

/-- The longest payload whose length a header can hold. -/
def wireLimit : Nat := 0xFFFFFFFF

/-- The limit that holds in effect. -/
def effectiveLimit (limit : Nat) : Nat := min limit wireLimit

/-- The frame of a payload. -/
def wire (payload : Bytes) : Bytes := Bytes.bigEndian headerSize payload.length ++ payload

/-- The payload length that the header at the front of a buffer declares, once it is complete. -/
def declared? (buffer : Bytes) : Option Nat :=
  let header := buffer.take headerSize
  if header.length < headerSize then none else some (Bytes.toNat header)

/-- The length of the frame at the front of a buffer, as far as it is known: that of a header until
the header is complete. -/
def expectedLength (buffer : Bytes) : Nat :=
  match declared? buffer with
  | some length => headerSize + length
  | none => headerSize

/-- Put the frame of a payload at the end of a buffer. -/
def append (payload buffer : Bytes) : Except FrameError Bytes :=
  if wireLimit < payload.length then .error (.payloadTooLarge payload.length wireLimit)
  else .ok (buffer ++ wire payload)

/-- The payload of the frame at the front of a buffer and the bytes after it; none while the frame
is incomplete. A declared length above the limit is refused at once. -/
def take (limit : Nat) (buffer : Bytes) : Except FrameError (Option (Bytes × Bytes)) :=
  match declared? buffer with
  | none => .ok none
  | some length =>
    if limit < length then .error (.payloadTooLarge length limit)
    else
      let body := buffer.drop headerSize
      let payload := body.take length
      if payload.length < length then .ok none else .ok (some (payload, body.drop length))

theorem error_of_take {limit : Nat} {buffer : Bytes} {error : FrameError}
    (refused : take limit buffer = .error error) : ∃ size, error = .payloadTooLarge size limit := by
  unfold take at refused
  split at refused
  · simp at refused
  · next length _ =>
    split at refused
    · exact ⟨length, (Except.error.inj refused).symm⟩
    · simp only at refused
      split at refused <;> simp at refused

theorem length_of_take {limit : Nat} {buffer payload rest : Bytes}
    (found : take limit buffer = .ok (some (payload, rest))) :
    rest.length + payload.length + headerSize = buffer.length := by
  unfold take at found
  split at found
  · simp at found
  · next length known =>
    split at found
    · simp at found
    · simp only at found
      split at found
      · simp at found
      · next complete =>
        simp only [Except.ok.injEq, Option.some.injEq, Prod.mk.injEq] at found
        obtain ⟨rfl, rfl⟩ := found
        have header : headerSize ≤ buffer.length := by
          simp only [declared?] at known
          split at known
          · simp at known
          · simp only [List.length_take] at *
            omega
        simp only [List.length_take, List.length_drop] at complete ⊢
        omega

end Frame

end FramedTasks
