import FramedTasks.Frame.Basic

/-! # Frames in a buffer

A buffer is a queue of frames: they are put at its end and taken from its front. A payload that is
refused and a frame that is not complete leave the buffer as it is.
-/

namespace FramedTasks.Frame.Queue

/-- Put the frame of a payload at the end of a buffer. -/
def put (payload buffer : Bytes) : Except FrameError Unit × Bytes :=
  match append payload buffer with
  | .ok longer => (.ok (), longer)
  | .error error => (.error error, buffer)

/-- Take the frame at the front out of a buffer; none while it is incomplete. -/
def take (limit : Nat) (buffer : Bytes) : Except FrameError (Option Bytes) × Bytes :=
  match Frame.take limit buffer with
  | .ok (some (payload, rest)) => (.ok (some payload), rest)
  | .ok none => (.ok none, buffer)
  | .error error => (.error error, buffer)

/-- Put the frames of several payloads one after another. -/
def puts : List Bytes → Bytes → List (Except FrameError Unit) × Bytes
  | [], buffer => ([], buffer)
  | payload :: payloads, buffer =>
    let (result, buffer) := put payload buffer
    let (results, buffer) := puts payloads buffer
    (result :: results, buffer)

/-- Take so many times, whatever comes of it. -/
def takes (limit : Nat) : Nat → Bytes → List (Except FrameError (Option Bytes)) × Bytes
  | 0, buffer => ([], buffer)
  | count + 1, buffer =>
    let (result, buffer) := take limit buffer
    let (results, buffer) := takes limit count buffer
    (result :: results, buffer)

end FramedTasks.Frame.Queue
