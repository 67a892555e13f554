import FramedTasks.Control.Poll
import FramedTasks.Text.Lines
import FramedTasks.Total

/-! # Control tokens from a descriptor

A descriptor delivers bytes in pieces. The lines made of them are tokens, whatever the pieces are;
a line is decoded as a whole, ill-formed pieces in it being replaced. Each poll waits and reads at
most once, while reading a line goes on until there is one.
-/

namespace FramedTasks

/-- What a wait on a descriptor ends with. -/
inductive Arrival where
  /-- Bytes to read. -/
  | bytes (bytes : Bytes)
  /-- Nothing in time, or an interruption. -/
  | idle
deriving DecidableEq, Repr

/-- What a descriptor does when nothing is left to arrive. -/
inductive Ending where
  /-- It waits on. -/
  | quiet
  | closed
  | broken (fault : Fault)
deriving DecidableEq, Repr

/-- A descriptor with the bytes read from it that have not been handed out, and whether its end has
been read. -/
structure Descriptor where
  arrivals : List Arrival
  ending : Ending
  buffer : Bytes := []
  ended : Bool := false
deriving DecidableEq, Repr

/-- What reading a line comes to. -/
inductive LineReading where
  | line (text : String)
  | closed
  | fault (fault : Fault)
  /-- There is no line, and none will come before the descriptor is given more. -/
  | waiting
deriving DecidableEq, Repr

namespace Descriptor

def chunkSize : Nat := 512

/-- Hand out what is left at the end of the input: a line without a line feed, or nothing. -/
def takeRest (descriptor : Descriptor) : Poll × Descriptor :=
  if descriptor.buffer.isEmpty then (.closed, descriptor)
  else (.token (Lines.lenientText descriptor.buffer), { descriptor with buffer := [] })

/-- Hand out the first complete line of the buffer. -/
def takeLine (descriptor : Descriptor) : Poll × Descriptor :=
  match Lines.firstComplete? descriptor.buffer with
  | some (line, rest) => (.token (Lines.lenientText line), { descriptor with buffer := rest })
  | none => (.idle, descriptor)

/-- Wait and read once. -/
def read (descriptor : Descriptor) : Poll × Descriptor :=
  match descriptor.arrivals with
  | [] =>
    match descriptor.ending with
    | .quiet => (.idle, descriptor)
    | .closed => takeRest { descriptor with ended := true }
    | .broken fault => (.fault fault, descriptor)
  | .idle :: rest => (.idle, { descriptor with arrivals := rest })
  | .bytes bytes :: rest =>
    let left := bytes.drop chunkSize
    takeLine { descriptor with
      arrivals := if left.isEmpty then rest else .bytes left :: rest
      buffer := descriptor.buffer ++ bytes.take chunkSize }

/-- Hand out a buffered line, or wait and read once. -/
def poll (descriptor : Descriptor) : Poll × Descriptor :=
  match takeLine descriptor with
  | (.token text, descriptor) => (.token text, descriptor)
  | _ => if descriptor.ended then takeRest descriptor else read descriptor

/-- The work that a descriptor holds: a byte counts twice before it is read and once in the
buffer. -/
def work (descriptor : Descriptor) : Nat :=
  2 * total (fun
    | .bytes bytes => bytes.length + 1
    | .idle => 1) descriptor.arrivals + descriptor.buffer.length

/-- Poll until a poll is not idle; stop when the descriptor waits on. -/
def readLine (descriptor : Descriptor) : LineReading × Descriptor :=
  match descriptor.poll with
  | (.token text, next) => (.line text, next)
  | (.fault fault, next) => (.fault fault, next)
  | (.idle, next) =>
    if next.work < descriptor.work then readLine next else (.waiting, next)
  | (_, next) => (.closed, next)
termination_by descriptor.work

/-- Poll until the descriptor is closed, fails or waits on: the outcomes before that, and the
fault if there is one. -/
def drain (descriptor : Descriptor) : List Poll × Descriptor :=
  match descriptor.poll with
  | (.closed, next) => ([], next)
  | (.fault fault, next) => ([.fault fault], next)
  | (poll, next) =>
    if next.work < descriptor.work then
      let (polls, last) := drain next
      (poll :: polls, last)
    else ([], next)
termination_by descriptor.work

/-- The outcomes of all polls until the descriptor is closed, fails or waits on. -/
def polls (descriptor : Descriptor) : List Poll := descriptor.drain.1

def feed (descriptor : Descriptor) (bytes : Bytes) : Descriptor :=
  match descriptor.arrivals with
  | [.bytes earlier] => { descriptor with arrivals := [.bytes (earlier ++ bytes)] }
  | arrivals =>
    if bytes.isEmpty then descriptor
    else { descriptor with arrivals := arrivals ++ [.bytes bytes] }

def close (descriptor : Descriptor) : Descriptor := { descriptor with ending := .closed }

end Descriptor

end FramedTasks
