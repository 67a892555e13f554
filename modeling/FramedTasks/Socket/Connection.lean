import FramedTasks.Bytes
import FramedTasks.Stream.Fault

/-! # Connected streams

A connection has two ends and a stretch of bytes on the way to each of them. Either direction can be
shut: nothing more is taken from the one end, and the other reads what is on the way and then the
end. An end that goes away before it has read everything leaves a reset for its peer, which one
read reports.
-/

namespace FramedTasks

/-- An end of a connection. -/
inductive Side where
  | left
  | right
deriving DecidableEq, Repr

def Side.other : Side → Side
  | .left => .right
  | .right => .left

theorem Side.other_other (side : Side) : side.other.other = side := by cases side <;> rfl

theorem Side.other_ne (side : Side) : side.other ≠ side := by cases side <;> simp [other]

theorem Side.eq_other_of_ne {side target : Side} (different : target ≠ side) :
    target = side.other := by
  revert different
  cases side <;> cases target <;> simp [other]

/-- What is on the way to an end. -/
structure Inflow where
  bytes : Bytes := []
  /-- Nothing more will be sent. -/
  shut : Bool := false
  /-- The peer has left bytes unread. -/
  reset : Bool := false
deriving DecidableEq, Repr

/-- Which directions a shutdown ends. -/
inductive Direction where
  | reading
  | writing
  | both
deriving DecidableEq, Repr

structure Connection where
  toLeft : Inflow := {}
  toRight : Inflow := {}
deriving DecidableEq, Repr

namespace Connection

/-- A write to a direction that is shut. -/
def brokenPipe : Fault := .ofSystem .brokenPipe "Broken pipe" 32

def resetByPeer : Fault := .ofSystem .connectionReset "Connection reset by peer" 104

/-- A read that has waited in vain. -/
def nothingYet : Fault := .ofSystem .wouldBlock "Resource temporarily unavailable" 11

def inflow (connection : Connection) : Side → Inflow
  | .left => connection.toLeft
  | .right => connection.toRight

def update (connection : Connection) (side : Side) (change : Inflow → Inflow) : Connection :=
  match side with
  | .left => { connection with toLeft := change connection.toLeft }
  | .right => { connection with toRight := change connection.toRight }

/-- Whether the bytes that an end writes are refused. -/
def isShutFrom (connection : Connection) (side : Side) : Bool :=
  (connection.inflow side.other).shut

def write (side : Side) (bytes : Bytes) (connection : Connection) :
    Except Fault Unit × Connection :=
  if bytes.isEmpty then (.ok (), connection)
  else if connection.isShutFrom side then (.error brokenPipe, connection)
  else
    (.ok (), connection.update side.other fun inflow => { inflow with bytes := inflow.bytes ++ bytes })

/-- An end reads at most so many bytes; no bytes mean the end of the stream. -/
def read (side : Side) (want : Nat) (connection : Connection) : Except Fault Bytes × Connection :=
  let inflow := connection.inflow side
  if !inflow.bytes.isEmpty then
    (.ok (inflow.bytes.take want),
      connection.update side fun inflow => { inflow with bytes := inflow.bytes.drop want })
  else if inflow.reset then
    (.error resetByPeer, connection.update side fun inflow => { inflow with reset := false })
  else if inflow.shut then (.ok [], connection)
  else (.error nothingYet, connection)

/-- Nothing more goes to an end. -/
def shutTo (side : Side) (connection : Connection) : Connection :=
  connection.update side fun inflow => { inflow with shut := true }

def shutdown (side : Side) (direction : Direction) (connection : Connection) : Connection :=
  match direction with
  | .reading => connection.shutTo side
  | .writing => connection.shutTo side.other
  | .both => (connection.shutTo side).shutTo side.other

def close (side : Side) (connection : Connection) : Connection :=
  let unread := !(connection.inflow side).bytes.isEmpty
  let connection := connection.shutdown side .both
  (connection.update side fun inflow => { inflow with bytes := [] }).update side.other
    fun inflow => { inflow with reset := inflow.reset || unread }

/-- An end goes away before anyone has taken it up. -/
def refuse (side : Side) (connection : Connection) : Connection :=
  (connection.close side).update side.other fun inflow => { inflow with reset := true }

def description : String := "IpcStream \x7b type: \"unix\" \x7d"

/-- A time limit in microseconds, which must not be zero. -/
def checkTimeout (limit : Option Nat) : Except Fault Unit :=
  if limit = some 0 then .error ⟨.invalidInput, some "cannot set a 0 duration timeout"⟩
  else .ok ()

@[simp] theorem inflow_update_same (connection : Connection) (side : Side)
    (change : Inflow → Inflow) :
    (connection.update side change).inflow side = change (connection.inflow side) := by
  cases side <;> rfl

@[simp] theorem inflow_update_other (connection : Connection) (side : Side)
    (change : Inflow → Inflow) :
    (connection.update side change).inflow side.other = connection.inflow side.other := by
  cases side <;> rfl

end Connection

end FramedTasks
