import FramedTasks.Bytes
import FramedTasks.Stream.Fault
import FramedTasks.Total

/-! # Reading from a stream

What a stream will do is a list of events: bytes that arrive, faults, ends, and moments at which
something happens elsewhere while a read waits. A read takes what it can from the front of the
list. Every read that does not report the end makes the stream lighter.
-/

namespace FramedTasks

/-- What a stream does next. -/
inductive SourceEvent (ε : Type) where
  /-- Bytes that arrive; a read gets no more than `cap` of them at a time. -/
  | data (bytes : Bytes) (cap : Option Nat)
  /-- A read fails. -/
  | fault (fault : Fault)
  /-- A read reports the end, once. -/
  | closed
  /-- Something happens elsewhere while a read waits. -/
  | moment (event : ε)
deriving DecidableEq, Repr

/-- The outcome of a read. -/
inductive Reading where
  | bytes (bytes : Bytes)
  | fault (fault : Fault)
  | closed
deriving DecidableEq, Repr

def Reading.size : Reading → Nat
  | .bytes arrived => arrived.length
  | .fault _ | .closed => 0

/-- A stream to read from: the events to come, after which it stays at its end, and a record,
newest first, of how many bytes each read asked for and which moments have passed. -/
structure Source (ε : Type) where
  events : List (SourceEvent ε)
  asked : List Nat := []
  passed : List ε := []

namespace Source

variable {ε : Type}

/-- One read of at most `want` bytes from the events to come: its outcome, the events after it and
the moments that pass during it. -/
def step (want : Nat) (passed : List ε) : List (SourceEvent ε) →
    Reading × List (SourceEvent ε) × List ε
  | [] => (.closed, [], passed)
  | .data [] _ :: rest => step want passed rest
  | .data (byte :: bytes) cap :: rest =>
    let all := byte :: bytes
    let count := min want (cap.getD want)
    if count = 0 then (.closed, .data all cap :: rest, passed)
    else
      let left := all.drop count
      (.bytes (all.take count), if left.isEmpty then rest else .data left cap :: rest, passed)
  | .fault fault :: rest => (.fault fault, rest, passed)
  | .closed :: rest => (.closed, rest, passed)
  | .moment event :: rest => step want (event :: passed) rest

def read (source : Source ε) (want : Nat) : Reading × Source ε :=
  let (reading, events, passed) := step want source.passed source.events
  (reading, { events, asked := want :: source.asked, passed })

def left (source : Source ε) : Bytes :=
  source.events.flatMap fun
    | .data bytes _ => bytes
    | _ => []

def eventWeight : SourceEvent ε → Nat
  | .data bytes _ => bytes.length + 1
  | _ => 1

/-- How much reading a stream can take before it stays at its end. -/
def weight (source : Source ε) : Nat := total eventWeight source.events

theorem step_weight (want : Nat) (passed : List ε) (events : List (SourceEvent ε)) :
    total eventWeight (step want passed events).2.1 + (step want passed events).1.size ≤
        total eventWeight events ∧
      ((step want passed events).1 ≠ .closed →
        total eventWeight (step want passed events).2.1 < total eventWeight events) := by
  induction events generalizing passed with
  | nil => simp [step, Reading.size]
  | cons event rest ih =>
    cases event with
    | data bytes cap =>
      cases bytes with
      | nil =>
        obtain ⟨weak, strict⟩ := ih passed
        simp only [step, total_cons, eventWeight, List.length_nil]
        exact ⟨by omega, fun open' => by have := strict open'; omega⟩
      | cons byte bytes =>
        simp only [step]
        split
        · simp [Reading.size]
        · next positive =>
          simp only [Reading.size, List.length_take, List.length_cons]
          split
          · simp [eventWeight]
            omega
          · simp only [total_cons, eventWeight, List.length_drop,
              List.length_cons]
            exact ⟨by omega, fun _ => by omega⟩
    | fault fault => simp [step, eventWeight, Reading.size]
    | closed => simp [step, eventWeight, Reading.size]
    | moment event =>
      obtain ⟨weak, strict⟩ := ih (event :: passed)
      simp only [step, total_cons, eventWeight]
      exact ⟨by omega, fun open' => by have := strict open'; omega⟩

theorem weight_read_lt {source : Source ε} {want : Nat} (open' : (source.read want).1 ≠ .closed) :
    (source.read want).2.weight < source.weight :=
  (step_weight want source.passed source.events).2 open'

theorem weight_read_add_size (source : Source ε) (want : Nat) :
    (source.read want).2.weight + (source.read want).1.size ≤ source.weight :=
  (step_weight want source.passed source.events).1

end Source

end FramedTasks
