import FramedTasks.Frame.Buffered
import FramedTasks.Stream.Sink
import FramedTasks.Timed.Listener
import FramedTasks.Worker.Basic

/-! # The worker that waits in time

This worker reads its stream ahead into a buffer and waits for a request for at most one interval
before it looks at the flag again, unless a part of a request is in the buffer. Its stream, the
control source of its listener and the moment at which someone else sets the flag lie on one
clock; waiting and processing let time pass, and nothing else does.
-/

namespace FramedTasks

/-- What a timed worker is linked to: its stream with the bytes read ahead, the other direction,
the clock, the time at which someone sets the flag, the listener, the breakdown of its source if
there is one, and how the listener ended that the worker has waited for. -/
structure TimedLink where
  stream : Timeline
  buffer : Bytes := []
  sink : Sink := {}
  clock : Nat := 0
  trigger : Option Nat := none
  listener : Option TimedListener := none
  breakdown : Option TimedListener.Breakdown := none
  joined : Option ListenerExit := none

abbrev TimedWorker := Worker TimedLink

/-- What waiting for a request comes to. -/
inductive Arrived where
  | payload (payload : Bytes)
  /-- The stream ended in order. -/
  | closed
  | failed (error : FrameError)
  /-- The interval is over. -/
  | elapsed
  /-- Nothing will ever come. -/
  | never
deriving DecidableEq, Repr

/-- A wait for a request: what it comes to, when it ends, and the bytes and events left. -/
structure Awaited where
  arrived : Arrived
  time : Nat
  buffer : Bytes
  events : List (Nat × TimedEvent)

namespace Awaited

def work (awaited : Awaited) : Nat := Timeline.work awaited.events + awaited.buffer.length

def atEnd (limit time : Nat) (buffer : Bytes) (events : List (Nat × TimedEvent)) : Awaited :=
  match Frame.Buffered.last limit buffer with
  | (.ok (some payload), buffer) => ⟨.payload payload, time, buffer, events⟩
  | (.ok none, buffer) => ⟨.closed, time, buffer, events⟩
  | (.error error, buffer) => ⟨.failed error, time, buffer, events⟩

def isPast (deadline : Option Nat) (time : Nat) : Bool := deadline.any (· < time)

/-- The wait that a deadline cuts short. -/
def cut (deadline : Option Nat) (now : Nat) (buffer : Bytes) (events : List (Nat × TimedEvent)) :
    Awaited :=
  match deadline with
  | some time => ⟨.elapsed, time, buffer, events⟩
  | none => ⟨.never, now, buffer, events⟩

/-- Wait for a request from a time on until a deadline, if there is one. -/
def waitFrom (limit : Nat) (hangs : Bool) (deadline : Option Nat) (now : Nat) (buffer : Bytes)
    (events : List (Nat × TimedEvent)) : Awaited :=
  match Frame.Buffered.next limit buffer with
  | (.ok (some payload), rest) => ⟨.payload payload, now, rest, events⟩
  | (.error error, rest) => ⟨.failed error, now, rest, events⟩
  | (.ok none, _) =>
    match events with
    | [] => if hangs then cut deadline now buffer [] else atEnd limit now buffer []
    | (time, event) :: rest =>
      if isPast deadline (max now time) then cut deadline now buffer ((time, event) :: rest)
      else
        match event with
        | .data bytes => waitFrom limit hangs deadline (max now time) (buffer ++ bytes) rest
        | .fault fault => ⟨.failed (.io fault), max now time, buffer, rest⟩
        | .closed => atEnd limit (max now time) buffer rest

/-- A wait never adds work, a request takes some away, and only the deadline ends a wait without
an outcome. -/
structure Progress (deadline : Option Nat) (before : Nat) (awaited : Awaited) : Prop where
  weak : awaited.work ≤ before
  strict : ∀ payload, awaited.arrived = .payload payload → awaited.work < before
  late : awaited.arrived = .elapsed → deadline = some awaited.time

theorem progress_atEnd (deadline : Option Nat) (limit time : Nat) (buffer : Bytes)
    (events : List (Nat × TimedEvent)) :
    Progress deadline (Timeline.work events + buffer.length) (atEnd limit time buffer events) := by
  simp only [atEnd, Frame.Buffered.last]
  cases outcome : Frame.Buffered.next limit buffer with
  | mk result rest =>
    have shorter := Frame.Buffered.length_of_next_le outcome
    cases result with
    | error error => exact ⟨by simp only [work]; omega, by simp, by simp⟩
    | ok payload? =>
      cases payload? with
      | some payload =>
        have := Frame.Buffered.length_of_next outcome
        exact ⟨by simp only [work]; omega, fun _ _ => by simp only [work]; omega, by simp⟩
      | none =>
        cases empty : rest.isEmpty with
        | true =>
          simp only [empty, if_true]
          exact ⟨by simp only [work]; omega, by simp, by simp⟩
        | false =>
          simp only [empty, Bool.false_eq_true, if_false]
          exact ⟨by simp only [work, List.length_nil]; omega, by simp, by simp⟩

theorem progress_cut (deadline : Option Nat) (now : Nat) (buffer : Bytes)
    (events : List (Nat × TimedEvent)) :
    Progress deadline (Timeline.work events + buffer.length) (cut deadline now buffer events) := by
  cases deadline <;> exact ⟨Nat.le_refl _, by simp [cut], by simp [cut]⟩

theorem progress_waitFrom (limit : Nat) (hangs : Bool) (deadline : Option Nat) (now : Nat)
    (buffer : Bytes) (events : List (Nat × TimedEvent)) :
    Progress deadline (Timeline.work events + buffer.length)
      (waitFrom limit hangs deadline now buffer events) := by
  fun_induction waitFrom limit hangs deadline now buffer events with
  | case1 now buffer events payload rest found =>
    have := Frame.Buffered.length_of_next found
    exact ⟨by simp only [work]; omega, fun _ _ => by simp only [work]; omega, by simp⟩
  | case2 now buffer events error rest found =>
    have := Frame.Buffered.length_of_next_le found
    exact ⟨by simp only [work]; omega, by simp, by simp⟩
  | case3 => exact progress_cut ..
  | case4 => exact progress_atEnd ..
  | case5 => exact progress_cut ..
  | case6 now buffer _ _ time rest _ bytes ih =>
    obtain ⟨weak, strict, late⟩ := ih
    simp only [List.length_append] at weak strict
    refine ⟨?_, fun payload arrived => ?_, late⟩
    · simp only [Timeline.work_cons, Timeline.eventWork]
      omega
    · have := strict payload arrived
      simp only [Timeline.work_cons, Timeline.eventWork]
      omega
  | case7 => exact ⟨by simp [work, Timeline.eventWork], by simp, by simp⟩
  | case8 now buffer _ _ time rest =>
    obtain ⟨weak, strict, late⟩ := progress_atEnd deadline limit (max now time) buffer rest
    refine ⟨?_, fun payload arrived => ?_, late⟩
    · simp only [Timeline.work_cons, Timeline.eventWork]
      omega
    · have := strict payload arrived
      simp only [Timeline.work_cons, Timeline.eventWork]
      omega

end Awaited

abbrev TaskProcessor (σ : Type) := σ → InputTask → Call σ

namespace TimedWorker

def interval (worker : TimedWorker) : Period := .ofNat (worker.config.pollInterval / 1000)

/-- Start the listener on a control timeline, which may break down. -/
def initial (worker : TimedWorker) (control : Timeline)
    (breakdown : Option TimedListener.Breakdown := none) : Except WorkerError Unit × TimedWorker :=
  if worker.stage = .terminated then (.error .terminated, worker)
  else if worker.link.listener.isSome then (.error .alreadyInitialized, worker)
  else
    let listener :=
      TimedListener.start worker.interval worker.link.clock worker.flag { timeline := control }
    (.ok (), { worker with link := { worker.link with listener := some listener, breakdown } })

def advanceListener (worker : TimedWorker) (time : Nat) : TimedWorker :=
  match worker.link.listener with
  | none => worker
  | some listener =>
    let (listener, flag) := listener.live worker.config.sentinel worker.interval
      worker.link.breakdown time worker.flag
    { worker with flag, link := { worker.link with listener := some listener } }

/-- Let someone set the flag, if that happens by a given time. -/
def passTrigger (worker : TimedWorker) (time : Nat) : TimedWorker :=
  match worker.link.trigger with
  | none => worker
  | some moment =>
    if time < moment then worker
    else
      let worker : TimedWorker := (advanceListener worker moment).trigger.2
      { worker with link := { worker.link with trigger := none } }

def passTo (worker : TimedWorker) (time : Nat) : TimedWorker :=
  let worker := (worker.passTrigger time).advanceListener time
  { worker with link := { worker.link with clock := max worker.link.clock time } }

def work (worker : TimedWorker) : Nat :=
  Timeline.work worker.link.stream.events + worker.link.buffer.length

/-- Wait for a request until a deadline, if there is one. -/
def receive (worker : TimedWorker) (deadline : Option Nat) : Arrived × TimedWorker :=
  let awaited := Awaited.waitFrom worker.config.limit worker.link.stream.hangs deadline
    worker.link.clock worker.link.buffer worker.link.stream.events
  let stream := { worker.link.stream with events := awaited.events }
  let worker := { worker with link := { worker.link with stream, buffer := awaited.buffer } }
  (awaited.arrived, passTo worker awaited.time)

/-- Wait for a request for one interval, or without a bound once a part of it is there. -/
def awaitRequest (worker : TimedWorker) : Arrived × TimedWorker :=
  match worker.receive (some (worker.link.clock + worker.interval.millis)) with
  | (.elapsed, worker) =>
    if worker.link.buffer.isEmpty then (.elapsed, worker) else worker.receive none
  | outcome => outcome

/-- Send a reply: its frame is written and the stream flushed, each fault of which is final. -/
def sendReply (worker : TimedWorker) (reply : OutputTask) :
    Except WorkerError Unit × TimedWorker :=
  match Frame.Buffered.put worker.config.limit (worker.config.codec.encode reply) [] with
  | (.error error, _) => (.error (.send error), worker)
  | (.ok (), frame) =>
    let (result, sink) := worker.link.sink.deliver frame Sink.direct
    (result.mapError fun fault => .send (.io fault),
      { worker with link := { worker.link with sink } })

/-- Decode a request, have it processed and send the reply. -/
def serve {σ : Type} (worker : TimedWorker) (processor : TaskProcessor σ) (state : σ)
    (payload : Bytes) : Except WorkerError Unit × σ × TimedWorker :=
  match (worker.config.codec.decode payload : Except CodecError InputTask) with
  | .error error => (.error (.decode error), state, worker)
  | .ok task =>
    let call := processor state task
    let reply := call.answer.toReply
    let worker := passTo (worker.enter .processing) (worker.link.clock + call.delay)
    let worker := ((worker.triggerIf call.triggers).note task reply).enter .sendingReply
    let (result, worker) := TimedWorker.sendReply worker reply
    (result, call.state, worker)

/-- Two workers whose streams and clocks stand at the same point. -/
structure InStep (worker other : TimedWorker) : Prop where
  stream : worker.link.stream = other.link.stream
  buffer : worker.link.buffer = other.link.buffer
  clock : worker.link.clock = other.link.clock

theorem inStep_advanceListener (worker : TimedWorker) (time : Nat) :
    InStep (worker.advanceListener time) worker := by
  simp only [advanceListener]
  split <;> exact ⟨rfl, rfl, rfl⟩

theorem inStep_passTrigger (worker : TimedWorker) (time : Nat) :
    InStep (worker.passTrigger time) worker := by
  simp only [passTrigger]
  split
  · exact ⟨rfl, rfl, rfl⟩
  · split
    · exact ⟨rfl, rfl, rfl⟩
    · obtain ⟨stream, buffer, clock⟩ := inStep_advanceListener worker _
      exact ⟨stream, buffer, clock⟩

theorem InStep.trans {first second third : TimedWorker} (one : InStep first second)
    (other : InStep second third) : InStep first third :=
  ⟨one.stream.trans other.stream, one.buffer.trans other.buffer, one.clock.trans other.clock⟩

theorem work_passTo (worker : TimedWorker) (time : Nat) :
    (worker.passTo time).work = worker.work := by
  have same := (inStep_advanceListener (worker.passTrigger time) time).trans
    (inStep_passTrigger worker time)
  simp only [passTo, work, same.stream, same.buffer]

theorem clock_passTo (worker : TimedWorker) (time : Nat) :
    (worker.passTo time).link.clock = max worker.link.clock time := by
  have same := (inStep_advanceListener (worker.passTrigger time) time).trans
    (inStep_passTrigger worker time)
  simp only [passTo, same.clock]

/-- What a wait does to a worker: the request takes work away, and an interval lets time pass. -/
structure Moved (worker : TimedWorker) (outcome : Arrived × TimedWorker) : Prop where
  weak : outcome.2.work ≤ worker.work
  strict : ∀ payload, outcome.1 = .payload payload → outcome.2.work < worker.work
  later : outcome.1 = .elapsed → worker.link.clock < outcome.2.link.clock

theorem progress_receive (worker : TimedWorker) (deadline : Option Nat) :
    (worker.receive deadline).2.work ≤ worker.work ∧
      (∀ payload, (worker.receive deadline).1 = .payload payload →
        (worker.receive deadline).2.work < worker.work) ∧
      ((worker.receive deadline).1 = .elapsed →
        ∃ time, deadline = some time ∧ time ≤ (worker.receive deadline).2.link.clock) := by
  obtain ⟨weak, strict, late⟩ := Awaited.progress_waitFrom worker.config.limit
    worker.link.stream.hangs deadline worker.link.clock worker.link.buffer worker.link.stream.events
  simp only [receive, work_passTo, clock_passTo]
  exact ⟨weak, strict, fun elapsed => ⟨_, late elapsed, Nat.le_max_right ..⟩⟩

theorem moved_awaitRequest (worker : TimedWorker) : Moved worker worker.awaitRequest := by
  obtain ⟨weak, strict, late⟩ :=
    worker.progress_receive (some (worker.link.clock + worker.interval.millis))
  simp only [awaitRequest]
  split
  · next waited outcome =>
    rw [outcome] at weak strict late
    split
    · refine ⟨weak, by simp, fun _ => ?_⟩
      obtain ⟨time, deadline, reached⟩ := late rfl
      have := worker.interval.positive
      cases deadline
      simp only at *
      omega
    · obtain ⟨weak', strict', late'⟩ := waited.progress_receive none
      refine ⟨Nat.le_trans weak' weak, fun payload arrived => ?_, fun elapsed => ?_⟩
      · exact Nat.lt_of_lt_of_le (strict' payload arrived) weak
      · obtain ⟨time, impossible, _⟩ := late' elapsed
        simp at impossible
  · next different =>
    refine ⟨weak, strict, fun elapsed => ?_⟩
    exact (different _ (Prod.ext elapsed rfl)).elim

theorem work_serve {σ : Type} (worker : TimedWorker) (processor : TaskProcessor σ) (state : σ)
    (payload : Bytes) : (worker.serve processor state payload).2.2.work = worker.work := by
  simp only [serve]
  split
  · rfl
  · simp only [sendReply]
    split <;>
      simp only [work, Worker.link_enter, Worker.link_note, Worker.link_triggerIf] <;>
      exact work_passTo ..

/-- Go through cycles until the worker is to stop or something fails. There is no result if the
worker waits for ever: nothing happens after the horizon. -/
def run {σ : Type} (horizon : Nat) (worker : TimedWorker) (processor : TaskProcessor σ)
    (state : σ) : Option (Except WorkerError Termination) × σ × TimedWorker :=
  if worker.flag.isSet then (some (.ok .shutdown), state, worker.enter .shuttingDown)
  else
    match _ : awaitRequest (worker.enter .awaitingRequest) with
    | (.closed, worker') => (some (.ok .peerClosed), state, worker')
    | (.failed error, worker') => (some (.error (.receive error)), state, worker')
    | (.never, worker') => (none, state, worker')
    | (.elapsed, worker') =>
      if worker.link.clock ≤ horizon then run horizon worker' processor state
      else (none, state, worker')
    | (.payload payload, worker') =>
      match _ : worker'.serve processor state payload with
      | (.error error, state', worker'') => (some (.error error), state', worker'')
      | (.ok (), state', worker'') => run horizon (worker''.enter .idle) processor state'
termination_by (worker.work, horizon + 1 - worker.link.clock)
decreasing_by
  · have awaited : awaitRequest (worker.enter .awaitingRequest) = (_, worker') := ‹_›
    obtain ⟨weak, _, later⟩ := moved_awaitRequest (worker.enter .awaitingRequest)
    rw [awaited] at weak later
    have passed := later rfl
    rcases Nat.lt_or_eq_of_le weak with less | same
    · exact Prod.Lex.left _ _ less
    · rw [same]
      simp only [Worker.link_enter] at passed
      exact Prod.Lex.right _ (by omega)
  · have awaited : awaitRequest (worker.enter .awaitingRequest) = (_, worker') := ‹_›
    obtain ⟨_, strict, _⟩ := moved_awaitRequest (worker.enter .awaitingRequest)
    rw [awaited] at strict
    have served : worker'.serve processor state payload = _ := ‹_›
    have same := work_serve worker' processor state payload
    rw [served] at same
    have less := strict payload rfl
    refine Prod.Lex.left _ _ ?_
    simp only [work, Worker.link_enter] at *
    omega

/-- The time after which nothing happens by itself. -/
def horizon (worker : TimedWorker) : Nat :=
  let control := match worker.link.listener with
    | some listener => max listener.time listener.lines.timeline.lastTime
    | none => 0
  max (max worker.link.stream.lastTime (worker.link.trigger.getD 0)) control

/-- The end of the listener, if there is one, the flag being set: its time, and the listener. -/
def finish? (worker : TimedWorker) : Option (Nat × TimedListener) :=
  worker.link.listener.map fun listener =>
    let listener := match worker.link.breakdown with
      | none => listener
      | some breakdown => listener.struck breakdown
    listener.finish worker.config.sentinel

/-- Wait until the listener has ended, the flag being set. -/
def settle (worker : TimedWorker) : TimedWorker :=
  match worker.finish? with
  | none => worker
  | some (time, listener) =>
    { worker with link :=
      { worker.link with listener := some listener, clock := max worker.link.clock time } }

/-- Wait for the listener to end and give it up, with a note of how it ended. A listener that goes on
is not given up. -/
def join (worker : TimedWorker) : TimedWorker :=
  let worker := settle worker
  match worker.link.listener with
  | some ⟨.ended exit, _, _, _⟩ =>
    { worker with link := { worker.link with listener := none, joined := some exit } }
  | _ => worker

/-- Why the listener of a worker broke down, if it did. -/
def listenerPanic? (worker : TimedWorker) : Option String :=
  match worker.link.breakdown, worker.link.joined with
  | some _, some (.panicked text) => some text
  | _, _ => none

/-- End a worker whose cycles are over: the flag is set, and the worker waits for its listener, which
spoils an end in order if it broke down. -/
def conclude (ended : Except WorkerError Termination) (worker : TimedWorker) :
    Except WorkerError Termination × TimedWorker :=
  let worker := join worker.trigger.2
  (Worker.concluded ended worker.listenerPanic?, worker.enter .terminated)

/-- Go through cycles until the worker terminates. There is no result if the worker waits for
ever. -/
def doWork {σ : Type} (worker : TimedWorker) (processor : TaskProcessor σ) (state : σ) :
    Option (Except WorkerError Termination) × σ × TimedWorker :=
  if worker.stage = .terminated then (some (.error .terminated), state, worker)
  else if worker.link.listener.isNone then (some (.error .notInitialized), state, worker)
  else
    match run worker.horizon worker processor state with
    | (none, state, worker) => (none, state, worker)
    | (some ended, state, worker) =>
      let (result, worker) := conclude ended worker
      (some result, state, worker)

end TimedWorker

end FramedTasks
