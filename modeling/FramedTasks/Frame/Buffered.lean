import FramedTasks.Frame.Basic

/-! # Frames out of a growing buffer

Where a stream is read ahead, bytes pile up in a buffer and frames are taken from its front. At
the end of the stream the bytes that make no frame are given up.
-/

namespace FramedTasks.Frame.Buffered

/-- The frame at the front of the buffer, if it is complete, and the buffer after it. -/
def next (limit : Nat) (buffer : Bytes) : Except FrameError (Option Bytes) × Bytes :=
  match take (effectiveLimit limit) buffer with
  | .error error => (.error error, buffer)
  | .ok none => (.ok none, buffer)
  | .ok (some (payload, rest)) => (.ok (some payload), rest)

theorem length_of_next {limit : Nat} {buffer payload rest : Bytes}
    (found : next limit buffer = (.ok (some payload), rest)) :
    rest.length < buffer.length := by
  simp only [next] at found
  split at found <;> simp at found
  next taken =>
    obtain ⟨rfl, rfl⟩ := found
    have := length_of_take taken
    simp only [headerSize] at this
    omega

theorem length_of_next_le {limit : Nat} {buffer rest : Bytes}
    {result : Except FrameError (Option Bytes)}
    (found : next limit buffer = (result, rest)) :
    rest.length ≤ buffer.length := by
  cases result with
  | ok payload? =>
    cases payload? with
    | some payload => exact Nat.le_of_lt (length_of_next found)
    | none =>
      simp only [next] at found
      split at found <;> simp at found
      exact Nat.le_of_eq (congrArg List.length found.symm)
  | error error =>
    simp only [next] at found
    split at found <;> simp at found
    exact Nat.le_of_eq (congrArg List.length found.2.symm)

/-- The frame at the front of the buffer when no more bytes come. A part of a frame is an error and
leaves the buffer. -/
def last (limit : Nat) (buffer : Bytes) : Except FrameError (Option Bytes) × Bytes :=
  match next limit buffer with
  | (.ok none, buffer) =>
    if buffer.isEmpty then (.ok none, buffer)
    else (.error (.truncated (expectedLength buffer) buffer.length), [])
  | result => result

/-- Put the frame of a payload at the end of a buffer. -/
def put (limit : Nat) (payload buffer : Bytes) : Except FrameError Unit × Bytes :=
  if effectiveLimit limit < payload.length then
    (.error (.payloadTooLarge payload.length (effectiveLimit limit)), buffer)
  else
    match append payload buffer with
    | .ok buffer => (.ok (), buffer)
    | .error error => (.error error, buffer)

end FramedTasks.Frame.Buffered
