import FramedTasks.Frame.Channel
import FramedTasks.Proofs.Frame.Sending
import FramedTasks.Proofs.Stream.Brings
import FramedTasks.Socket.Connection
import Mathlib.Logic.Function.Basic

/-! # Two channels joined by pipes

Each direction between two channels is a pipe, whose bytes are read in the order in which they were
written. The calls of both ends come in any order, and with each call stands what the pipe does with
it: how much each write takes, how the reads are cut, and which of them fail.

A sending call is decided where it begins. The bytes that its writes put into the pipe enter it
afterwards, in any number of `pass` actions with anything in between, and all of them before the next
call of that half and before the pipe is shut. A receiving call is taken where it returns, since
nobody else can tell when its reads took the bytes. One that is still under way stands as a call that
ran out of time, which the next call resumes (`Reader.Receiving.resumed`).

`Joined.lane` is what one direction comes to. `Joined.lane_run` says that it is a matter of the calls
in that direction alone.
-/

namespace FramedTasks.Frame

/-- What a pipe does with a read. -/
inductive ReadEvent where
  /-- No more than so many bytes are there. -/
  | bring (count : Nat)
  | fault (fault : Fault)
deriving DecidableEq, Repr

/-- A pipe: the bytes that the last sending call has still to put in, those that have ever entered,
and those that have not been read. -/
structure Pipe where
  coming : Bytes := []
  entered : Bytes := []
  bytes : Bytes := []
  /-- Nothing more will enter. -/
  shut : Bool := false
deriving DecidableEq, Repr

namespace Pipe

/-- So many bytes of the last sending call enter the pipe. -/
def pass (count : Nat) (pipe : Pipe) : Pipe :=
  { pipe with
    coming := pipe.coming.drop count
    entered := pipe.entered ++ pipe.coming.take count
    bytes := pipe.bytes ++ pipe.coming.take count }

/-- The last sending call has put in all its bytes. -/
def settle (pipe : Pipe) : Pipe := pipe.pass pipe.coming.length

def sink (pipe : Pipe) (writes : List WriteEvent) (flushes : List FlushEvent) : Sink :=
  { writes := if pipe.shut then [.fault Connection.brokenPipe] else writes, flushes }

/-- The bytes in a pipe as reads will meet them, and then the end, or nothing yet. -/
def deliver (shut : Bool) : Bytes → List ReadEvent → List (SourceEvent Unit)
  | bytes, [] => .data bytes none :: if shut then [] else [.fault Connection.nothingYet]
  | bytes, .bring count :: rest => .data (bytes.take count) none :: deliver shut (bytes.drop count) rest
  | bytes, .fault fault :: rest => .fault fault :: deliver shut bytes rest

def source (pipe : Pipe) (reads : List ReadEvent) : Source Unit :=
  { events := deliver pipe.shut pipe.bytes reads }

theorem coming_settle (pipe : Pipe) : pipe.settle.coming = [] := List.drop_length

/-- What passes into a pipe is neither lost nor moved. -/
theorem entered_pass (pipe : Pipe) (count : Nat) :
    (pipe.pass count).entered ++ (pipe.pass count).coming = pipe.entered ++ pipe.coming := by
  simp only [pass, List.append_assoc, List.take_append_drop]

theorem left_source (pipe : Pipe) (reads : List ReadEvent) : (pipe.source reads).left = pipe.bytes := by
  simp only [source]
  generalize pipe.bytes = bytes
  induction reads generalizing bytes with
  | nil => cases pipe.shut <;> simp [deliver, Source.left]
  | cons event reads ih =>
    cases event with
    | bring count =>
      have rest := ih (bytes.drop count)
      simp only [deliver, Source.left, List.flatMap_cons] at rest ⊢
      rw [rest, List.take_append_drop]
    | fault fault => exact ih bytes

theorem offers_source (pipe : Pipe) (reads : List ReadEvent) :
    Source.Offers pipe.shut (pipe.source reads).events pipe.bytes := by
  simp only [source]
  generalize pipe.bytes = bytes
  induction reads generalizing bytes with
  | nil =>
    have last : Source.Offers pipe.shut
        (if pipe.shut then [] else [(.fault Connection.nothingYet : SourceEvent Unit)]) [] := by
      cases pipe.shut with
      | false => exact .waiting (by decide)
      | true => exact .ended rfl
    have data := @Source.Offers.data _ _ bytes _ _ last
    rwa [List.append_nil] at data
  | cons event reads ih =>
    cases event with
    | bring count =>
      have data := @Source.Offers.data _ _ (bytes.take count) _ _ (ih (bytes.drop count))
      rwa [List.take_append_drop] at data
    | fault fault => exact (ih bytes).fault fault

/-- Reads of a pipe that is shut bring its bytes and then the end, however they are cut. -/
theorem brings_source {pipe : Pipe} (isShut : pipe.shut) (cut : List Nat) :
    Source.Brings (pipe.source (cut.map .bring)).events pipe.bytes ∧
      Source.Prompt (pipe.source (cut.map .bring)).events := by
  simp only [source, isShut]
  generalize pipe.bytes = bytes
  induction cut generalizing bytes with
  | nil => exact ⟨Source.Brings.ended.whole bytes, by simp [deliver, Source.Prompt]⟩
  | cons count cut ih =>
    obtain ⟨brings, prompt⟩ := ih (bytes.drop count)
    have data := @Source.Brings.data Unit (bytes.take count) _ none _ (by simp) brings
    rw [List.take_append_drop] at data
    refine ⟨data, fun fault member => ?_⟩
    rcases List.mem_cons.mp member with same | member
    · contradiction
    · exact prompt fault member

end Pipe

/-- A call that has been made, with its result. -/
inductive Call where
  | sent (side : Side) (payload : Bytes) (result : Except FrameError Unit)
  | received (side : Side) (result : Except FrameError Bytes)
deriving DecidableEq, Repr

def Call.target : Call → Side
  | .sent side _ _ => side.other
  | .received side _ => side

/-- What can happen to two channels. -/
inductive Action where
  /-- An end sends a payload, and its writes and flushes meet these events. -/
  | send (side : Side) (payload : Bytes) (writes : List WriteEvent) (flushes : List FlushEvent)
  /-- So many bytes enter the pipe to an end. -/
  | pass (side : Side) (count : Nat)
  /-- An end receives, and its reads meet these events. -/
  | receive (side : Side) (reads : List ReadEvent)
  /-- Nothing more enters the pipe to an end: its peer has shut down its write half, or one of the
  two is gone. An end that goes away shuts both pipes. -/
  | shut (side : Side)
deriving DecidableEq, Repr

def Action.target : Action → Side
  | .send side _ _ _ => side.other
  | .pass side _ | .receive side _ | .shut side => side

/-- Two channels, the pipes to both ends, and the calls so far, oldest first. -/
structure Joined where
  channel : Side → Channel Unit
  pipe : Side → Pipe := fun _ => {}
  calls : List Call := []

namespace Joined

def new (limit : Side → Nat) : Joined :=
  { channel := fun side => .between { events := [] } {} (limit side) }

def perform (joined : Joined) : Action → Joined
  | .send side payload writes flushes =>
    let channel := joined.channel side
    let pipe := (joined.pipe side.other).settle
    let writer := { channel.writer with sink := pipe.sink writes flushes }
    let (result, channel) := { channel with writer }.send payload
    { channel := Function.update joined.channel side channel
      pipe := Function.update joined.pipe side.other { pipe with coming := channel.writer.sink.taken }
      calls := joined.calls ++ [.sent side payload result] }
  | .pass side count =>
    { joined with pipe := Function.update joined.pipe side ((joined.pipe side).pass count) }
  | .receive side reads =>
    let channel := joined.channel side
    let pipe := joined.pipe side
    let reader := { channel.reader with source := pipe.source reads }
    let (result, channel) := { channel with reader }.receive
    { channel := Function.update joined.channel side channel
      pipe := Function.update joined.pipe side { pipe with bytes := channel.reader.source.left }
      calls := joined.calls ++ [.received side result] }
  | .shut side =>
    { joined with
      pipe := Function.update joined.pipe side { (joined.pipe side).settle with shut := true } }

def run (joined : Joined) (actions : List Action) : Joined := actions.foldl perform joined

end Joined

/-- One direction: the pipe, what the ends keep for it, and the calls made in it. -/
structure Lane where
  /-- The limit of the end that sends. -/
  most : Nat
  pipe : Pipe := {}
  buffer : Bytes := []
  /-- The limit of the end that receives. -/
  limit : Nat
  calls : List Call := []
deriving DecidableEq, Repr

namespace Lane

def perform (lane : Lane) : Action → Lane
  | .send side payload writes flushes =>
    let pipe := lane.pipe.settle
    let (result, writer) := Writer.send { sink := pipe.sink writes flushes, limit := lane.most } payload
    { lane with
      pipe := { pipe with coming := writer.sink.taken }
      calls := lane.calls ++ [.sent side payload result] }
  | .pass _ count => { lane with pipe := lane.pipe.pass count }
  | .receive side reads =>
    let (result, reader) := Reader.receive
      { source := lane.pipe.source reads, buffer := lane.buffer, limit := lane.limit }
    { lane with
      pipe := { lane.pipe with bytes := reader.source.left }
      buffer := reader.buffer
      calls := lane.calls ++ [.received side result] }
  | .shut _ => { lane with pipe := { lane.pipe.settle with shut := true } }

end Lane

namespace Joined

def lane (joined : Joined) (side : Side) : Lane :=
  { most := (joined.channel side.other).writer.limit
    pipe := joined.pipe side
    buffer := (joined.channel side).reader.buffer
    limit := (joined.channel side).reader.limit
    calls := joined.calls.filter (·.target = side) }

theorem lane_new (limit : Side → Nat) (side : Side) :
    (new limit).lane side = { most := limit side.other, limit := limit side } := rfl

/-- What an action does to its own direction. -/
theorem lane_perform_target (joined : Joined) (action : Action) :
    (joined.perform action).lane action.target = (joined.lane action.target).perform action := by
  cases action with
  | send side payload writes flushes =>
    simp [perform, lane, Lane.perform, Action.target, Call.target, Channel.send, Side.other_other,
      side.other_ne]
  | pass side count => simp [perform, lane, Lane.perform, Action.target]
  | receive side reads =>
    simp [perform, lane, Lane.perform, Action.target, Call.target, Channel.receive, side.other_ne,
      Reader.receive]
  | shut side => simp [perform, lane, Lane.perform, Action.target]

/-- An action leaves the other direction alone. -/
theorem lane_perform_other (joined : Joined) {action : Action} {side : Side}
    (other : action.target ≠ side) : (joined.perform action).lane side = joined.lane side := by
  obtain rfl : side = action.target.other := Side.eq_other_of_ne other.symm
  cases action with
  | send side payload writes flushes =>
    simp [perform, lane, Action.target, Call.target, Channel.send, Side.other_other, side.other_ne,
      side.other_ne.symm]
  | pass side count => simp [perform, lane, Action.target, side.other_ne]
  | receive side reads =>
    simp [perform, lane, Action.target, Call.target, Channel.receive, Side.other_other, side.other_ne,
      side.other_ne.symm]
  | shut side => simp [perform, lane, Action.target, side.other_ne]

/-- One direction of a run is a run of the actions in that direction. -/
theorem lane_run (actions : List Action) (joined : Joined) (side : Side) :
    (joined.run actions).lane side =
      (actions.filter (·.target = side)).foldl Lane.perform (joined.lane side) := by
  induction actions generalizing joined with
  | nil => rfl
  | cons action actions ih =>
    rw [run, List.foldl_cons, ← run, ih]
    by_cases same : action.target = side
    · subst same
      rw [List.filter_cons_of_pos (by simp), List.foldl_cons, lane_perform_target]
    · rw [List.filter_cons_of_neg (by simpa using same), lane_perform_other joined same]

end Joined

end FramedTasks.Frame
