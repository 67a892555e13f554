import FramedTasks.Directory.Change
import FramedTasks.Socket.Error
import FramedTasks.Socket.Handles

/-! # Sockets in a directory

A host binds a socket at a path and waits there; a worker connects to the path, and the host accepts
the connection. A socket that stands at the path of a new one makes way for it; no other entry does.
A host that goes away removes the entry at its path only if it is still the socket that it made.

Whether a call succeeds is a matter of the directory, unless the system has other troubles, such as
too many open files.
-/

namespace FramedTasks

/-- A socket that a host listens at. -/
structure BoundSocket where
  path : String
  /-- The node that was made for it. -/
  node : Nat
  /-- The connections that wait to be accepted. -/
  waiting : List Nat := []
deriving DecidableEq, Repr

/-- The steps in which a socket is put at a path. -/
inductive BindStep where
  /-- Make way for it. -/
  | clear
  | make
  | setMode
  /-- Look up which node it is. -/
  | identify
deriving DecidableEq, Repr

/-- A step that the system makes fail. -/
structure Trouble where
  step : BindStep
  fault : Fault
deriving DecidableEq, Repr

/-- The fault with which the system makes a step fail, if it does. -/
def Trouble.at? (trouble : Option Trouble) (step : BindStep) : Option Fault :=
  (trouble.filter (·.step == step)).map (·.fault)

/-- A directory, the sockets bound in it, and the connections made through them. -/
structure Hosting where
  directory : Directory := {}
  bound : List (String × BoundSocket) := []
  handles : Handles := {}
deriving DecidableEq, Repr

namespace Hosting

/-- The mode of a socket where none is set: its owner alone may use it. -/
def defaultMode : Nat := 0o600

def firstMode : Nat := 0o755

/-- A socket path must be shorter than this, in bytes. -/
def pathLimit : Nat := 108

def refused : Fault := .ofSystem .connectionRefused "Connection refused" 111
def addressInUse : Fault := .ofSystem .addrInUse "Address already in use" 98
def notASocket : Fault := ⟨.alreadyExists, some "existing path is not a unix socket"⟩
def nulInPath : Fault := ⟨.invalidInput, some "paths must not contain interior null bytes"⟩

def isSocket : Node → Bool
  | .socket _ => true
  | _ => false

def checkLength (path : String) : Except SocketError Unit :=
  if pathLimit ≤ path.utf8ByteSize then
    .error (.pathTooLong path path.utf8ByteSize pathLimit)
  else .ok ()

/-- Make way at a path: a socket that stands there goes, and anything else is a fault. -/
def clear (directory : Directory) (path : String) (trouble : Option Trouble) :
    Except Fault Unit × Directory :=
  match directory.lookup? true path with
  | none => (.ok (), directory)
  | some _ =>
    match directory.nodeAt false path, Trouble.at? trouble .clear with
    | .error fault, _ | .ok _, some fault => (.error fault, directory)
    | .ok node, none =>
      if (directory.node? node).any isSocket then directory.remove path
      else (.error notASocket, directory)

/-- Make a socket at a path where there is nothing. That of an empty path is in no directory. -/
def makeSocket (directory : Directory) (path : String) (trouble : Option Trouble) :
    Except Fault Unit × Directory :=
  match Trouble.at? trouble .make with
  | some fault => (.error fault, directory)
  | none =>
    if path.contains '\x00' then (.error nulInPath, directory)
    else if path.isEmpty then (.ok (), directory)
    else
      match directory.create path (.socket firstMode) with
      | (.ok (), made) => (.ok (), made)
      | (.error fault, left) =>
        (.error (if fault = Directory.alreadyThere then addressInUse else fault), left)

def setMode (directory : Directory) (path : String) (mode : Nat) (trouble : Option Trouble) :
    Except Fault Unit × Directory :=
  match Trouble.at? trouble .setMode with
  | some fault => (.error fault, directory)
  | none => directory.setMode path mode

def identify (directory : Directory) (path : String) (trouble : Option Trouble) : Except Fault Nat :=
  match Trouble.at? trouble .identify with
  | some fault => .error fault
  | none => directory.nodeAt false path

/-- Put a socket at a path and set its mode: the node that stands there afterwards. What was done
before a step that fails stays done. -/
def place (directory : Directory) (path : String) (mode : Nat) (trouble : Option Trouble) :
    Except Fault Nat × Directory :=
  match clear directory path trouble with
  | (.error fault, left) => (.error fault, left)
  | (.ok (), cleared) =>
    match makeSocket cleared path trouble with
    | (.error fault, left) => (.error fault, left)
    | (.ok (), made) =>
      match setMode made path mode trouble with
      | (.error fault, left) => (.error fault, left)
      | (.ok (), placed) => (identify placed path trouble, placed)

/-- A host leaves its socket: those that wait to be accepted are turned away, and what stands at its
path goes if it is the socket that was made for it. -/
def leave (hosting : Hosting) (socket : BoundSocket) : Hosting :=
  let handles := socket.waiting.foldl (fun handles index => handles.modify index (·.refuse .right))
    hosting.handles
  match hosting.directory.nodeAt false socket.path with
  | .error _ => { hosting with handles }
  | .ok node =>
    if (hosting.directory.node? node).any isSocket && node == socket.node then
      { hosting with directory := (hosting.directory.remove socket.path).2, handles }
    else { hosting with handles }

def find? (hosting : Hosting) (name : String) : Option BoundSocket :=
  (hosting.bound.find? fun entry => entry.1 == name).map (·.2)

/-- Drop the socket and the end of a connection that a name stands for. -/
def drop (hosting : Hosting) (name : String) : Hosting :=
  let kept := { hosting with
    bound := hosting.bound.filter (·.1 != name), handles := hosting.handles.drop name }
  match hosting.find? name with
  | some socket => kept.leave socket
  | none => kept

/-- Bind a socket at a path, under a name. A socket that the name stood for is left after that. -/
def bind (hosting : Hosting) (name path : String) (mode : Nat := defaultMode)
    (trouble : Option Trouble := none) : Except SocketError Unit × Hosting :=
  match checkLength path with
  | .error error => (.error error, hosting)
  | .ok () =>
    match place hosting.directory path mode trouble with
    | (.error fault, directory) => (.error (.bind path fault), { hosting with directory })
    | (.ok node, directory) =>
      let bound := { hosting with
        directory
        bound := (name, { path, node }) :: hosting.bound.filter (·.1 != name) }
      match hosting.find? name with
      | some socket => (.ok (), bound.leave socket)
      | none => (.ok (), bound)

/-- The name of the host that listens at the end of a path. -/
def listening (hosting : Hosting) (path : String) : Except Fault String :=
  if path.contains '\x00' then .error nulInPath
  else if path.isEmpty then .error Directory.invalid
  else
    match hosting.directory.locate true path with
    | .error fault => .error fault
    | .ok (.vacant ..) => .error Directory.missing
    | .ok (.folder _) => .error refused
    | .ok (.entry entry) =>
      match hosting.bound.find? fun host => host.2.node == entry.node with
      | some host => .ok host.1
      | none => .error refused

def modify (hosting : Hosting) (name : String) (change : BoundSocket → BoundSocket) : Hosting :=
  { hosting with
    bound := hosting.bound.map fun entry =>
      if entry.1 = name then (entry.1, change entry.2) else entry }

/-- Connect to the socket at a path and hold the end under a name. -/
def connect (hosting : Hosting) (name path : String) : Except SocketError Unit × Hosting :=
  match checkLength path with
  | .error error => (.error error, hosting)
  | .ok () =>
    match hosting.listening path with
    | .error fault => (.error (.connect path fault), hosting)
    | .ok host =>
      let (index, handles) := hosting.handles.connect
      let handles := handles.hold name ⟨index, .left⟩
      (.ok (), { hosting with handles }.modify host fun socket =>
        { socket with waiting := socket.waiting ++ [index] })

/-- Accept the connection that has waited longest and hold the end under a name; nothing if none
waits. -/
def accept (hosting : Hosting) (name host : String) : Option Hosting :=
  match hosting.find? host with
  | none => none
  | some socket =>
    match socket.waiting with
    | [] => none
    | index :: waiting =>
      let handles := hosting.handles.hold name ⟨index, .right⟩
      some ({ hosting with handles }.modify host fun socket => { socket with waiting })

def names (hosting : Hosting) : List String := (hosting.bound.map (·.1)).mergeSort

/-- The paths of all hosts, in the order of their names. -/
def paths (hosting : Hosting) : List String :=
  hosting.names.filterMap fun name => (hosting.find? name).map (·.path)

def dropAll (hosting : Hosting) : Hosting := hosting.names.foldl drop hosting

end Hosting

end FramedTasks
