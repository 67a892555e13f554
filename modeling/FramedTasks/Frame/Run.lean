import FramedTasks.Frame.Basic

/-! # Runs of frames

The frames of several payloads stand one after another. Splitting takes complete frames from the
front as long as there are any.
-/

namespace FramedTasks.Frame

def wires (payloads : List Bytes) : Bytes := payloads.flatMap wire

/-- The payloads of the complete frames at the front of some bytes, and the bytes after them. -/
def split (limit : Nat) (bytes : Bytes) : List Bytes × Bytes :=
  match _ : take limit bytes with
  | .ok (some (payload, rest)) =>
    let (payloads, last) := split limit rest
    (payload :: payloads, last)
  | _ => ([], bytes)
termination_by bytes.length
decreasing_by
  have found : take limit bytes = .ok (some (payload, rest)) := ‹_›
  have shorter := length_of_take found
  simp only [headerSize] at shorter
  omega

end FramedTasks.Frame
