import FramedTasks.Socket.Connection

/-! # Ends held by name

The ends of connections are held under names, several names for one end if it was cloned. An end
goes away with the last name that holds it.
-/

namespace FramedTasks

/-- An end of one of several connections. -/
structure End where
  connection : Nat
  side : Side
deriving DecidableEq, Repr

structure Handles where
  connections : List Connection := []
  held : List (String × End) := []
deriving DecidableEq, Repr

namespace Handles

def find? (handles : Handles) (name : String) : Option End :=
  (handles.held.find? fun entry => entry.1 == name).map (·.2)

/-- Add a connection, whose ends nobody holds yet. -/
def connect (handles : Handles) : Nat × Handles :=
  (handles.connections.length, { handles with connections := handles.connections ++ [{}] })

def modify (handles : Handles) (index : Nat) (change : Connection → Connection) : Handles :=
  { handles with connections := handles.connections.modify index change }

/-- Let an end go away unless a name still holds it. -/
def release (handles : Handles) (gone : End) : Handles :=
  if handles.held.any fun entry => entry.2 == gone then handles
  else handles.modify gone.connection (·.close gone.side)

/-- A name lets go of the end that it holds. -/
def drop (handles : Handles) (name : String) : Handles :=
  let kept := { handles with held := handles.held.filter fun entry => entry.1 != name }
  match handles.find? name with
  | some gone => kept.release gone
  | none => kept

/-- A name takes hold of an end, and then lets go of the one it held before. -/
def hold (handles : Handles) (name : String) (taken : End) : Handles :=
  let kept := handles.held.filter fun entry => entry.1 != name
  let holding := { handles with held := (name, taken) :: kept }
  match handles.find? name with
  | some gone => holding.release gone
  | none => holding

/-- A further name for the end that a name holds. -/
def clone (handles : Handles) (name copy : String) : Handles :=
  match handles.find? name with
  | some shared => handles.hold copy shared
  | none => handles

def use {α : Type} (handles : Handles) (name : String)
    (action : Side → Connection → α × Connection) : Option α × Handles :=
  match handles.find? name with
  | none => (none, handles)
  | some ⟨index, side⟩ =>
    match handles.connections[index]? with
    | none => (none, handles)
    | some connection =>
      let (answer, connection) := action side connection
      (some answer, handles.modify index fun _ => connection)

/-- The two ends of one connection, held under two names. -/
def pair (left right : String) : Handles :=
  { connections := [{}], held := [(left, ⟨0, .left⟩), (right, ⟨0, .right⟩)] }

end Handles

end FramedTasks
