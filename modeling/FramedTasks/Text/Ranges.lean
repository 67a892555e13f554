/-! # Sets of code points

A set of code points is an array of closed ranges, in ascending order and apart from each other.
-/

namespace FramedTasks.Ranges

/-- The position of the first range in `[low, high)` that does not end before the code point; the
interval is halved at most `steps` times. -/
def search (ranges : Array (Nat × Nat)) (code : Nat) : Nat → Nat → Nat → Nat
  | 0, low, _ => low
  | steps + 1, low, high =>
    if low < high then
      let middle := (low + high) / 2
      if (ranges[middle]?.getD (0, 0)).2 < code then search ranges code steps (middle + 1) high
      else search ranges code steps low middle
    else low

/-- Whether a code point lies in one of the ranges. -/
def contains (ranges : Array (Nat × Nat)) (code : Nat) : Bool :=
  match ranges[search ranges code ranges.size 0 ranges.size]? with
  | some (low, high) => low ≤ code && code ≤ high
  | none => false

end FramedTasks.Ranges
