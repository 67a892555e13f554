import FramedTasks.Control.Listener
import FramedTasks.Socket.Connection
import FramedTasks.Worker.Error

/-! # Settings of a worker

A worker over a connected stream looks at its shutdown flag at least once in every poll interval,
so its reads must not wait longer than that. Times are in microseconds.
-/

namespace FramedTasks

structure WorkerConfig where
  codec : Codec := {}
  sentinel : String := Listener.defaultSentinel
  limit : Nat := Frame.defaultLimit
  pollInterval : Nat := 250000
  readTimeout : Option Nat := none
  writeTimeout : Option Nat := none
deriving DecidableEq, Repr

namespace WorkerConfig

def shortestWait : Nat := 1000

/-- The settings that hold over a connected stream. -/
def overStream (config : WorkerConfig) : Except WorkerError WorkerConfig :=
  let interval := max config.pollInterval shortestWait
  let wait := match config.readTimeout with
    | some time => if time < interval then max time shortestWait else interval
    | none => interval
  match Connection.checkTimeout config.writeTimeout with
  | .error fault => .error (.setup (.io fault))
  | .ok () => .ok { config with pollInterval := interval, readTimeout := some wait }

end WorkerConfig

end FramedTasks
