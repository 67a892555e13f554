/-! # The shutdown flag

A flag starts clear, is set at most once and is never cleared.
-/

namespace FramedTasks

structure Flag where
  isSet : Bool := false
deriving DecidableEq, Repr, Inhabited

/-- Set the flag, and tell whether this call set it. -/
def Flag.trigger (flag : Flag) : Bool × Flag := (!flag.isSet, ⟨true⟩)

end FramedTasks
