import FramedTasks.Proofs.Timed.Listener
import FramedTasks.Proofs.Timed.Waiting
import FramedTasks.Proofs.Worker.Course

/-! # The course of a worker that waits in time

Letting time pass touches the clock, the flag and what may set it (`Passes`). A wait takes the
first frame off the bytes that are held or still to come (`Ready.awaitRequest`), and serving a
request is one turn of the course (`serves_serve`). A run follows the course to its end unless the
worker is disturbed, and always returns (`Ready.run`).
-/

namespace FramedTasks.TimedWorker

open FramedTasks.Frame (wire take ending effectiveLimit)

/-! ## Passing time -/

/-- The parts of a worker that waiting for a request does not touch. -/
structure Kept (before after : TimedWorker) : Prop where
  sink : after.link.sink = before.link.sink
  config : after.config = before.config
  journal : after.journal = before.journal

theorem Kept.trans {first middle last : TimedWorker} (earlier : Kept first middle)
    (later : Kept middle last) : Kept first last :=
  ⟨later.sink.trans earlier.sink, later.config.trans earlier.config,
    later.journal.trans earlier.journal⟩

/-- The parts of a worker that time does not touch. -/
structure Passes (before after : TimedWorker) : Prop extends Kept before after where
  stream : after.link.stream = before.link.stream
  buffer : after.link.buffer = before.link.buffer

theorem Passes.trans {first middle last : TimedWorker} (earlier : Passes first middle)
    (later : Passes middle last) : Passes first last :=
  ⟨earlier.toKept.trans later.toKept, later.stream.trans earlier.stream,
    later.buffer.trans earlier.buffer⟩

section Passing

variable (worker : TimedWorker) (time : Nat)

/-- What holds of a worker whose listener goes on, whose flag is set by someone and whose clock goes
on holds after any time. -/
theorem passTo_preserves {kept : TimedWorker → Prop}
    (advances : ∀ worker time, kept worker → kept (worker.advanceListener time))
    (triggers : ∀ worker : TimedWorker, kept worker →
      kept { worker.trigger.2 with link := { worker.link with trigger := none } })
    (passes : ∀ (worker : TimedWorker) clock, kept worker →
      kept { worker with link := { worker.link with clock } })
    (start : kept worker) : kept (worker.passTo time) := by
  have triggered : kept (worker.passTrigger time) := by
    simp only [passTrigger]
    split
    · exact start
    · split
      · exact start
      · exact triggers (worker.advanceListener _) (advances _ _ start)
  exact passes _ _ (advances _ time triggered)

theorem passes_advanceListener : Passes worker (worker.advanceListener time) := by
  simp only [advanceListener]
  split <;> exact ⟨⟨rfl, rfl, rfl⟩, rfl, rfl⟩

theorem passes_passTo : Passes worker (worker.passTo time) := by
  apply @passTo_preserves worker time (Passes worker)
  · exact fun before time passed => passed.trans (passes_advanceListener before time)
  · exact fun _ passed => ⟨⟨passed.sink, passed.config, passed.journal⟩, passed.stream, passed.buffer⟩
  · exact fun _ _ passed => ⟨⟨passed.sink, passed.config, passed.journal⟩, passed.stream, passed.buffer⟩
  · exact ⟨⟨rfl, rfl, rfl⟩, rfl, rfl⟩

end Passing

/-- Nobody has asked the worker to shut down, and nobody will but its processor. -/
structure Calm (worker : TimedWorker) : Prop where
  clear : worker.flag = {}
  untriggered : worker.link.trigger = none
  quiet : ∀ listener, worker.link.listener = some listener →
    listener.IsQuiet worker.config.sentinel worker.interval

theorem Calm.passTo {worker : TimedWorker} (calm : Calm worker) (time : Nat) :
    Calm (worker.passTo time) := by
  obtain ⟨clear, untriggered, quiet⟩ := calm
  have untouched : worker.passTrigger time = worker := by simp only [passTrigger, untriggered]
  simp only [TimedWorker.passTo, untouched, advanceListener]
  cases listens : worker.link.listener with
  | none => exact ⟨clear, untriggered, by simp [listens]⟩
  | some listener =>
    obtain ⟨silent, still⟩ := (quiet listener listens).live worker.link.breakdown time
    refine ⟨?_, untriggered, ?_⟩
    · simp only [clear]
      exact silent
    · rintro _ ⟨⟩
      simp only [clear]
      exact still

/-! ## Waiting -/

/-- What a worker holds of a stream, and what the stream still brings by a given time. -/
structure Ready (horizon : Nat) (bytes : Bytes) (worker : TimedWorker) : Prop where
  arrives : ∃ left, Timeline.Brings worker.link.stream.hangs worker.link.stream.events left ∧
    bytes = worker.link.buffer ++ left
  accepts : worker.link.sink.Open
  punctual : ∀ event ∈ worker.link.stream.events, event.1 ≤ horizon

/-- What waiting for a request comes to, by the bytes before it. -/
inductive Waits (horizon limit clock : Nat) (bytes : Bytes) : Arrived → TimedWorker → Prop
  | found {payload rest : Bytes} {after : TimedWorker} :
      take limit bytes = .ok (some (payload, rest)) → Ready horizon rest after →
      Waits horizon limit clock bytes (.payload payload) after
  | elapsed {after : TimedWorker} : Ready horizon bytes after → clock < horizon →
      Waits horizon limit clock bytes .elapsed after
  | closed {after : TimedWorker} :
      (∀ payload rest, take limit bytes ≠ .ok (some (payload, rest))) →
      ending limit bytes = .endOfStream → Waits horizon limit clock bytes .closed after
  | failed {error : FrameError} {after : TimedWorker} :
      (∀ payload rest, take limit bytes ≠ .ok (some (payload, rest))) →
      ending limit bytes = error → error ≠ .endOfStream →
      Waits horizon limit clock bytes (.failed error) after

theorem Waits.earlier {horizon limit clock later : Nat} {bytes : Bytes} {arrived : Arrived}
    {after : TimedWorker} (waits : Waits horizon limit later bytes arrived after)
    (early : clock < horizon) : Waits horizon limit clock bytes arrived after := by
  cases waits with
  | found found ready => exact .found found ready
  | elapsed ready => exact .elapsed ready early
  | closed other drained => exact .closed other drained
  | failed other drained notEnd => exact .failed other drained notEnd

section Waiting

variable {horizon : Nat} {bytes : Bytes} {worker : TimedWorker}

theorem Ready.passes {after : TimedWorker} (ready : Ready horizon bytes worker)
    (passes : Passes worker after) : Ready horizon bytes after := by
  refine ⟨?_, ?_, ?_⟩
  · rw [passes.stream, passes.buffer]
    exact ready.arrives
  · rw [passes.sink]
    exact ready.accepts
  · rw [passes.stream]
    exact ready.punctual

def wait (worker : TimedWorker) (deadline : Option Nat) : Awaited :=
  Awaited.waitFrom worker.config.limit worker.link.stream.hangs deadline worker.link.clock
    worker.link.buffer worker.link.stream.events

def taking (worker : TimedWorker) (awaited : Awaited) : TimedWorker :=
  { worker with link := { worker.link with
      stream := { worker.link.stream with events := awaited.events }
      buffer := awaited.buffer } }

theorem receive_eq (worker : TimedWorker) (deadline : Option Nat) :
    worker.receive deadline = ((worker.wait deadline).arrived,
      (worker.taking (worker.wait deadline)).passTo (worker.wait deadline).time) := rfl

/-- A wait until a deadline that has not passed yet. -/
theorem Ready.receive (ready : Ready horizon bytes worker) {deadline : Option Nat}
    (early : Awaited.isPast deadline worker.link.clock = false) :
    Waits horizon (effectiveLimit worker.config.limit) worker.link.clock bytes
      (worker.receive deadline).1 (worker.receive deadline).2 := by
  obtain ⟨left, brings, rfl⟩ := ready.arrives
  have waited := @Awaited.waited_waitFrom worker.config.limit _ _ _ worker.link.buffer _ _ brings early
  have fewer := Awaited.events_waitFrom worker.config.limit worker.link.stream.hangs deadline
    worker.link.clock worker.link.buffer worker.link.stream.events
  have late := (Awaited.progress_waitFrom worker.config.limit worker.link.stream.hangs deadline
    worker.link.clock worker.link.buffer worker.link.stream.events).late
  rw [receive_eq, wait]
  generalize Awaited.waitFrom worker.config.limit worker.link.stream.hangs deadline worker.link.clock
    worker.link.buffer worker.link.stream.events = awaited at *
  have punctual : ∀ event ∈ awaited.events, event.1 ≤ horizon :=
    fun event member => ready.punctual event (fewer.mem member)
  cases waited with
  | found found brings =>
    refine .found found (Ready.passes ?_ (passes_passTo ..))
    exact ⟨⟨_, brings, rfl⟩, ready.accepts, punctual⟩
  | elapsed whole brings coming =>
    obtain ⟨event, member, after⟩ := coming
    refine .elapsed (Ready.passes ?_ (passes_passTo ..)) ?_
    · exact ⟨⟨_, brings, whole⟩, ready.accepts, punctual⟩
    · have := punctual event member
      have reached := late rfl
      simp only [reached, Awaited.isPast, Option.any_some, decide_eq_false_iff_not] at early
      simp only at *
      omega
  | closed other drained => exact .closed other drained
  | failed other drained notEnd => exact .failed other drained notEnd

theorem kept_receive (worker : TimedWorker) (deadline : Option Nat) :
    Kept worker (worker.receive deadline).2 := by
  rw [receive_eq]
  have kept : Kept worker (worker.taking (worker.wait deadline)) := ⟨rfl, rfl, rfl⟩
  exact kept.trans (passes_passTo ..).toKept

theorem Calm.receive (calm : Calm worker) (deadline : Option Nat) :
    Calm (worker.receive deadline).2 := by
  rw [receive_eq]
  have taking : Calm (worker.taking (worker.wait deadline)) :=
    ⟨calm.clear, calm.untriggered, calm.quiet⟩
  exact taking.passTo _

/-- What receiving preserves, waiting preserves. -/
theorem awaitRequest_preserves {kept : TimedWorker → Prop}
    (receives : ∀ worker deadline, kept worker → kept (receive worker deadline).2)
    {worker : TimedWorker} (start : kept worker) : kept worker.awaitRequest.2 := by
  have first := receives worker (some (worker.link.clock + worker.interval.millis)) start
  simp only [TimedWorker.awaitRequest]
  split
  · next waited outcome =>
    rw [outcome] at first
    split
    · exact first
    · exact receives waited none first
  · exact first

theorem kept_awaitRequest (worker : TimedWorker) : Kept worker worker.awaitRequest.2 := by
  apply @awaitRequest_preserves (Kept worker)
  · exact fun middle deadline kept => kept.trans (kept_receive middle deadline)
  · exact ⟨rfl, rfl, rfl⟩

theorem Calm.awaitRequest (calm : Calm worker) : Calm worker.awaitRequest.2 :=
  awaitRequest_preserves (fun _ deadline calm => calm.receive deadline) calm

/-- A part of a request that is there is waited for without a deadline. -/
theorem Ready.awaitRequest (ready : Ready horizon bytes worker) :
    Waits horizon (effectiveLimit worker.config.limit) worker.link.clock bytes
      worker.awaitRequest.1 worker.awaitRequest.2 := by
  have now : Awaited.isPast (some (worker.link.clock + worker.interval.millis)) worker.link.clock =
      false := by simp [Awaited.isPast]
  have first := ready.receive now
  have kept := kept_receive worker (some (worker.link.clock + worker.interval.millis))
  simp only [TimedWorker.awaitRequest]
  split
  · next waited outcome =>
    rw [outcome] at first kept
    split
    · exact first
    · cases first with
      | elapsed ready early =>
        have second := @Ready.receive _ _ _ ready none rfl
        rw [kept.config] at second
        exact second.earlier early
  · exact first

end Waiting

/-! ## Serving -/

section Serve

variable {σ : Type} {worker : TimedWorker} {processor : TaskProcessor σ} {answering : Answering σ}

/-- A worker that has served a request has taken a turn, and holds what it held of its stream. -/
structure Serves (worker : TimedWorker) (turn : Turn σ)
    (outcome : Except WorkerError Unit × σ × TimedWorker) : Prop where
  result : outcome.1 = turn.result
  state : outcome.2.1 = turn.state
  exchanges : outcome.2.2.exchanges = worker.exchanges ++ turn.exchanges
  taken : outcome.2.2.link.sink.taken = worker.link.sink.taken ++ turn.written
  accepts : outcome.2.2.link.sink.Open
  stream : outcome.2.2.link.stream = worker.link.stream
  buffer : outcome.2.2.link.buffer = worker.link.buffer
  config : outcome.2.2.config = worker.config

theorem serve_of_error {state : σ} {payload : Bytes} {error : CodecError}
    (unread : (worker.config.codec.decode payload : Except CodecError InputTask) = .error error) :
    worker.serve processor state payload = (.error (.decode error), state, worker) := by
  simp only [serve, unread]

/-- Put a stream in place of the one that the replies went to. -/
def withSink (worker : TimedWorker) (sink : Sink) : TimedWorker :=
  { worker with link := { worker.link with sink } }

theorem sendReply_of_excess {reply : OutputTask}
    (excess : effectiveLimit worker.config.limit < (worker.config.codec.encode reply).length) :
    worker.sendReply reply = (.error (.send (.payloadTooLarge
      (worker.config.codec.encode reply).length (effectiveLimit worker.config.limit))), worker) := by
  simp only [sendReply, Frame.Buffered.put_of_excess excess]

theorem sendReply_of_fits {reply : OutputTask}
    (fits : ¬ effectiveLimit worker.config.limit < (worker.config.codec.encode reply).length)
    (accepts : worker.link.sink.Open) :
    worker.sendReply reply = (.ok (), worker.withSink
      (worker.link.sink.deliver (wire (worker.config.codec.encode reply)) Sink.direct).2) := by
  have sent := (accepts.deliver (wire (worker.config.codec.encode reply)) Sink.direct).1
  simp only [sendReply, Frame.Buffered.put_of_fits (Nat.not_lt.mp fits), List.nil_append, sent]
  rfl

def replying (worker : TimedWorker) (processor : TaskProcessor σ) (state : σ) (task : InputTask) :
    TimedWorker :=
  let call := processor state task
  let passed := passTo (worker.enter .processing) (worker.link.clock + call.delay)
  ((passed.triggerIf call.triggers).note task call.answer.toReply).enter .sendingReply

theorem serve_of_ok {state : σ} {payload : Bytes} {task : InputTask}
    (read : (worker.config.codec.decode payload : Except CodecError InputTask) = .ok task) :
    worker.serve processor state payload =
      (((worker.replying processor state task).sendReply (processor state task).answer.toReply).1,
        (processor state task).state,
        ((worker.replying processor state task).sendReply (processor state task).answer.toReply).2) := by
  simp only [serve, read]
  rfl

/-- What the worker that sends the reply has in common with the one that got the request. -/
structure Replying (worker : TimedWorker) (task : InputTask) (reply : OutputTask)
    (sender : TimedWorker) : Prop where
  exchanges : sender.exchanges = worker.exchanges ++ [(task, reply)]
  sink : sender.link.sink = worker.link.sink
  stream : sender.link.stream = worker.link.stream
  buffer : sender.link.buffer = worker.link.buffer
  config : sender.config = worker.config

theorem replying_replying (worker : TimedWorker) (processor : TaskProcessor σ) (state : σ)
    (task : InputTask) :
    Replying worker task (processor state task).answer.toReply
      (worker.replying processor state task) := by
  have passes :=
    passes_passTo (worker.enter .processing) (worker.link.clock + (processor state task).delay)
  have link : (worker.replying processor state task).link =
      (passTo (worker.enter .processing) (worker.link.clock + (processor state task).delay)).link := by
    simp only [replying, Worker.link_enter, Worker.link_note, Worker.link_triggerIf]
  refine ⟨?_, ?_, ?_, ?_, ?_⟩
  · have before := (Worker.exchanges_of_journal _ passes.journal).trans
      (worker.exchanges_enter .processing)
    simp only [replying, Worker.exchanges_enter, Worker.exchanges_note, Worker.exchanges_triggerIf,
      before]
  · rw [link]
    exact passes.sink
  · rw [link]
    exact passes.stream
  · rw [link]
    exact passes.buffer
  · simp only [replying, Worker.config_enter, Worker.config_note, Worker.config_triggerIf]
    exact passes.config

theorem serves_serve (accepts : worker.link.sink.Open)
    (gives : ∀ state task, (processor state task).outcome = answering state task) (state : σ)
    (payload : Bytes) :
    Serves worker
      (Turn.of worker.config.codec (effectiveLimit worker.config.limit) answering state payload)
      (worker.serve processor state payload) := by
  cases read : (worker.config.codec.decode payload : Except CodecError InputTask) with
  | error error =>
    rw [serve_of_error read, Turn.of_error read]
    exact ⟨rfl, rfl, (List.append_nil _).symm, (List.append_nil _).symm, accepts, rfl, rfl, rfl⟩
  | ok task =>
    have answered : answering state task =
        ((processor state task).answer, (processor state task).state) := (gives state task).symm
    obtain ⟨exchanges, sink, stream, buffer, config⟩ := worker.replying_replying processor state task
    rw [serve_of_ok read]
    by_cases excess : effectiveLimit worker.config.limit <
        (worker.config.codec.encode (processor state task).answer.toReply).length
    · rw [Turn.of_excess read (by rwa [answered]), answered,
        sendReply_of_excess (by rwa [config]), config]
      exact ⟨rfl, rfl, exchanges, (congrArg (·.taken) sink).trans (List.append_nil _).symm,
        sink ▸ accepts, stream, buffer, config⟩
    · obtain ⟨-, taken, stays⟩ := accepts.deliver
        (wire (worker.config.codec.encode (processor state task).answer.toReply)) Sink.direct
      rw [Turn.of_fits read (by rwa [answered]), answered,
        sendReply_of_fits (by rwa [config]) (by rwa [sink]), config, sink]
      exact ⟨rfl, rfl, exchanges, taken, stays, stream, buffer, config⟩

theorem Serves.ready {turn : Turn σ} {outcome : Except WorkerError Unit × σ × TimedWorker}
    {horizon : Nat} {bytes : Bytes} (serves : Serves worker turn outcome)
    (ready : Ready horizon bytes worker) (stage : Stage) :
    Ready horizon bytes (outcome.2.2.enter stage) := by
  refine ⟨?_, serves.accepts, ?_⟩
  · rw [Worker.link_enter, serves.stream, serves.buffer]
    exact ready.arrives
  · rw [Worker.link_enter, serves.stream]
    exact ready.punctual

/-- A processor that leaves the flag alone leaves a worker calm. -/
theorem Calm.serve (calm : Calm worker)
    (silent : ∀ state task, (processor state task).triggers = false) (state : σ)
    (payload : Bytes) : Calm (worker.serve processor state payload).2.2 := by
  cases read : (worker.config.codec.decode payload : Except CodecError InputTask) with
  | error error =>
    rw [serve_of_error read]
    exact calm
  | ok task =>
    have entered : Calm (worker.enter .processing) := ⟨calm.clear, calm.untriggered, calm.quiet⟩
    have passed := entered.passTo (worker.link.clock + (processor state task).delay)
    simp only [TimedWorker.serve, read, silent, Worker.triggerIf, Bool.false_eq_true, if_false]
    simp only [sendReply]
    split <;> exact ⟨passed.clear, passed.untriggered, passed.quiet⟩

end Serve

/-! ## Running -/

section Run

variable {σ : Type} {worker after : TimedWorker} {processor : TaskProcessor σ}
  {answering : Answering σ} {horizon : Nat} {bytes : Bytes} {arrived : Arrived}

/-- A wait for a request, as a run begins it. -/
theorem waits_of_run (ready : Ready horizon bytes worker)
    (awaited : TimedWorker.awaitRequest (worker.enter .awaitingRequest) = (arrived, after)) :
    Waits horizon (effectiveLimit worker.config.limit) worker.link.clock bytes arrived after ∧
      after.config = worker.config ∧ after.exchanges = worker.exchanges ∧
      after.link.sink = worker.link.sink ∧ (Calm worker → Calm after) := by
  have entered : Ready horizon bytes (worker.enter .awaitingRequest) :=
    ⟨ready.arrives, ready.accepts, ready.punctual⟩
  have waits := entered.awaitRequest
  have kept := kept_awaitRequest (worker.enter .awaitingRequest)
  have stays (calm : Calm worker) :
      Calm (TimedWorker.awaitRequest (worker.enter .awaitingRequest)).2 := by
    have before : Calm (worker.enter .awaitingRequest) := ⟨calm.clear, calm.untriggered, calm.quiet⟩
    exact before.awaitRequest
  rw [awaited] at waits kept stays
  refine ⟨waits, kept.config, ?_, kept.sink, stays⟩
  rw [Worker.exchanges_of_journal after kept.journal, Worker.exchanges_enter]

/-- A run returns. It goes through turns of the course of the bytes, and stops short of its end
only if the worker was disturbed. -/
theorem Ready.run (ready : Ready horizon bytes worker)
    (gives : ∀ state task, (processor state task).outcome = answering state task) (state : σ) :
    ∃ ended, (worker.run horizon processor state).1 = some ended ∧
      Course.Continues worker.config.codec
        (.of worker.config.codec (effectiveLimit worker.config.limit) answering state bytes)
        (Calm worker ∧ ∀ state task, (processor state task).triggers = false)
        worker.exchanges worker.link.sink.taken
        ⟨ended, (worker.run horizon processor state).2.2.exchanges,
          (worker.run horizon processor state).2.2.link.sink.taken⟩ := by
  fun_induction TimedWorker.run horizon worker processor state generalizing bytes with
  | case1 worker state stops =>
    refine ⟨_, rfl, ?_⟩
    rw [Worker.exchanges_enter]
    refine .stopped ?_ _
    rintro ⟨calm, -⟩
    simp [calm.clear] at stops
  | case2 worker state clear worker' awaited =>
    obtain ⟨waits, -, exchanges, sink, -⟩ := waits_of_run ready awaited
    refine ⟨_, rfl, ?_⟩
    rw [exchanges, sink]
    cases waits with
    | closed other drained => exact .drained other (by rw [drained]; rfl)
  | case3 worker state clear error worker' awaited =>
    obtain ⟨waits, -, exchanges, sink, -⟩ := waits_of_run ready awaited
    refine ⟨_, rfl, ?_⟩
    rw [exchanges, sink]
    cases waits with
    | failed other drained notEnd => exact .drained other (by rw [drained, Course.finish_of_ne notEnd])
  | case4 worker state clear worker' awaited =>
    obtain ⟨waits, -⟩ := waits_of_run ready awaited
    cases waits
  | case5 worker state clear worker' awaited early ih =>
    obtain ⟨waits, config, exchanges, sink, stays⟩ := waits_of_run ready awaited
    cases waits with
    | elapsed ready _ =>
      obtain ⟨ended, returns, continues⟩ := ih ready
      rw [config, exchanges, sink] at continues
      exact ⟨ended, returns, continues.weaken fun undisturbed => ⟨stays undisturbed.1, undisturbed.2⟩⟩
  | case6 worker state clear worker' awaited late =>
    obtain ⟨waits, -⟩ := waits_of_run ready awaited
    cases waits with
    | elapsed _ early => omega
  | case7 worker state clear payload worker' awaited error state' worker'' served =>
    obtain ⟨waits, config, exchanges, sink, -⟩ := waits_of_run ready awaited
    refine ⟨_, rfl, ?_⟩
    cases waits with
    | found found after =>
      have serves := serves_serve after.accepts gives state payload
      rw [config, served] at serves
      simp only
      rw [serves.exchanges, serves.taken, exchanges, sink]
      exact .failed found serves.result.symm
  | case8 worker state clear payload worker' awaited state' worker'' served ih =>
    obtain ⟨waits, config, exchanges, sink, stays⟩ := waits_of_run ready awaited
    cases waits with
    | @found _ rest _ found after =>
      have serves := serves_serve after.accepts gives state payload
      have calm (undisturbed : Calm worker ∧ ∀ state task, (processor state task).triggers = false) :
          Calm (worker'.serve processor state payload).2.2 :=
        (stays undisturbed.1).serve undisturbed.2 state payload
      have ready := serves.ready after .idle
      rw [config, served] at serves
      rw [served] at calm ready
      obtain rfl : state' = _ := serves.state
      have taken : (Worker.enter worker'' .idle).link.sink.taken = worker.link.sink.taken ++ _ :=
        sink ▸ serves.taken
      obtain ⟨ended, returns, continues⟩ := ih ready
      rw [Worker.config_enter, Worker.exchanges_enter, serves.config, config, serves.exchanges,
        exchanges, taken] at continues
      refine ⟨ended, returns, ?_⟩
      refine .answered found serves.result.symm (fun undisturbed => ⟨?_, undisturbed.2⟩) continues
      obtain ⟨clear, untriggered, quiet⟩ := calm undisturbed
      exact ⟨clear, untriggered, quiet⟩

/-- A worker that finds the flag set stops. -/
theorem run_of_set (set : worker.flag.isSet = true) (horizon : Nat) (state : σ) :
    worker.run horizon processor state = (some (.ok .shutdown), state, worker.enter .shuttingDown) := by
  rw [TimedWorker.run, if_pos set]

/-- What receiving, serving and going over to another stage preserve, a run preserves. -/
theorem run_preserves {kept : TimedWorker → Prop}
    (receives : ∀ worker deadline, kept worker → kept (worker.receive deadline).2)
    (serves : ∀ (worker : TimedWorker) state payload, kept worker →
      kept (worker.serve processor state payload).2.2)
    (enters : ∀ (worker : TimedWorker) stage, kept worker → kept (worker.enter stage))
    (start : kept worker) (horizon : Nat) (state : σ) :
    kept (worker.run horizon processor state).2.2 := by
  have waits {worker after : TimedWorker} {arrived : Arrived} (start : kept worker)
      (awaited : TimedWorker.awaitRequest (worker.enter .awaitingRequest) = (arrived, after)) :
      kept after := by
    have both := awaitRequest_preserves receives (enters worker .awaitingRequest start)
    rwa [awaited] at both
  fun_induction TimedWorker.run horizon worker processor state with
  | case1 worker state stops => exact enters _ _ start
  | case2 worker state clear after awaited => exact waits start awaited
  | case3 worker state clear error after awaited => exact waits start awaited
  | case4 worker state clear after awaited => exact waits start awaited
  | case5 worker state clear after awaited early ih => exact ih (waits start awaited)
  | case6 worker state clear after awaited late => exact waits start awaited
  | case7 worker state clear payload after awaited error state' last served =>
    have done := serves after state payload (waits start awaited)
    rwa [served] at done
  | case8 worker state clear payload after awaited state' last served ih =>
    have done := serves after state payload (waits start awaited)
    rw [served] at done
    exact ih (enters _ _ done)

/-- The listener of a worker stands as it stood before. -/
structure SameListener (before after : TimedWorker) : Prop where
  listener : after.link.listener = before.link.listener
  breakdown : after.link.breakdown = before.link.breakdown

/-- What depends on the listener alone, and what time preserves, a run preserves. -/
theorem run_listening {kept : TimedWorker → Prop}
    (unmoved : ∀ before after, SameListener before after → kept before → kept after)
    (passes : ∀ worker time, kept worker → kept (worker.passTo time))
    (start : kept worker) (horizon : Nat) (state : σ) :
    kept (worker.run horizon processor state).2.2 := by
  apply @run_preserves _ worker processor kept
  · intro middle deadline before
    exact passes _ _ (unmoved middle (middle.taking (middle.wait deadline)) ⟨rfl, rfl⟩ before)
  · intro middle state payload before
    cases read : (middle.config.codec.decode payload : Except CodecError InputTask) with
    | error error =>
      rw [serve_of_error read]
      exact before
    | ok task =>
      have passed := passes _ (middle.link.clock + (processor state task).delay)
        (unmoved middle (middle.enter .processing) ⟨rfl, rfl⟩ before)
      have replying : kept (middle.replying processor state task) := by
        refine unmoved _ _ ⟨?_, ?_⟩ passed
        · simp only [TimedWorker.replying, Worker.link_enter, Worker.link_note, Worker.link_triggerIf]
        · simp only [TimedWorker.replying, Worker.link_enter, Worker.link_note, Worker.link_triggerIf]
      rw [serve_of_ok read]
      refine unmoved _ _ ?_ replying
      simp only [TimedWorker.sendReply]
      split <;> exact ⟨rfl, rfl⟩
  · intro middle stage before
    exact unmoved middle (middle.enter stage) ⟨rfl, rfl⟩ before
  · exact start

end Run

/-! ## From the first request to the end -/

section DoWork

variable {σ : Type} {worker : TimedWorker} {processor : TaskProcessor σ} {answering : Answering σ}

/-- Whether the source of the listener breaks down is settled beforehand. -/
theorem breakdown_run (worker : TimedWorker) (horizon : Nat) (processor : TaskProcessor σ) (state : σ) :
    (worker.run horizon processor state).2.2.link.breakdown = worker.link.breakdown := by
  apply @run_listening _ worker processor fun after => after.link.breakdown = worker.link.breakdown
  · intro before after same kept
    exact same.breakdown.trans kept
  · intro middle time kept
    apply @passTo_preserves middle time fun after => after.link.breakdown = worker.link.breakdown
    · intro before time kept
      simp only [advanceListener]
      split <;> exact kept
    · intro before kept
      exact kept
    · intro before clock kept
      exact kept
    · exact kept
  · rfl

/-- Waiting for the listener touches nothing but what is known of the listener, and the clock. -/
theorem join_eq (worker : TimedWorker) :
    ∃ clock listener joined,
      worker.join = { worker with link := { worker.link with clock, listener, joined } } := by
  simp only [join, settle]
  split <;> split <;> exact ⟨_, _, _, rfl⟩

theorem passes_join (worker : TimedWorker) : Passes worker worker.join := by
  obtain ⟨clock, listener, joined, same⟩ := join_eq worker
  rw [same]
  exact ⟨⟨rfl, rfl, rfl⟩, rfl, rfl⟩

/-- The worker that is left when its run has ended. -/
def leaving (worker : TimedWorker) : TimedWorker := Worker.enter (join worker.trigger.2) .terminated

section Leaving

variable (worker : TimedWorker)

theorem exchanges_leaving : worker.leaving.exchanges = worker.exchanges :=
  (Worker.exchanges_enter ..).trans (Worker.exchanges_of_journal _ (passes_join _).journal)

theorem sink_leaving : worker.leaving.link.sink = worker.link.sink := (passes_join _).sink

theorem stream_leaving : worker.leaving.link.stream = worker.link.stream := (passes_join _).stream

theorem buffer_leaving : worker.leaving.link.buffer = worker.link.buffer := (passes_join _).buffer

theorem journal_leaving : worker.leaving.journal = .entered .terminated :: worker.journal :=
  congrArg (_ :: ·) (passes_join _).journal

end Leaving

theorem doWork_of_terminated (gone : worker.stage = .terminated) (processor : TaskProcessor σ)
    (state : σ) : worker.doWork processor state = (some (.error .terminated), state, worker) := by
  rw [doWork, if_pos gone]

theorem doWork_of_uninitialized (alive : worker.stage ≠ .terminated)
    (deaf : worker.link.listener.isNone = true) (processor : TaskProcessor σ) (state : σ) :
    worker.doWork processor state = (some (.error .notInitialized), state, worker) := by
  rw [doWork, if_neg alive, if_pos deaf]

/-- A worker with a listener that returns has ended its run before. -/
theorem doWork_of_listening (alive : worker.stage ≠ .terminated)
    (listens : worker.link.listener.isNone = false) {state : σ}
    {result : Except WorkerError Termination}
    (returned : (worker.doWork processor state).1 = some result) :
    let last := (worker.run worker.horizon processor state).2.2
    ∃ cycles, (worker.run worker.horizon processor state).1 = some cycles ∧
      result = Worker.concluded cycles (join last.trigger.2).listenerPanic? ∧
      (worker.doWork processor state).2.2 = last.leaving := by
  simp only [doWork, if_neg alive, listens, Bool.false_eq_true, if_false] at returned ⊢
  rcases ran : worker.run worker.horizon processor state with ⟨ended?, after, last⟩
  rw [ran] at returned
  cases ended? with
  | none => contradiction
  | some cycles => exact ⟨cycles, rfl, (Option.some.inj returned).symm, rfl⟩

/-- A worker with a listener does what its run does, if the source of the listener is sound. -/
theorem doWork_of_run (lives : worker.stage ≠ .terminated)
    (listens : worker.link.listener.isNone = false) (unbroken : worker.link.breakdown = none)
    {state state' : σ} {ended : Except WorkerError Termination} {last : TimedWorker}
    (ran : worker.run worker.horizon processor state = (some ended, state', last)) :
    worker.doWork processor state = (some ended, state', last.leaving) := by
  have remains := breakdown_run worker worker.horizon processor state
  rw [ran] at remains
  have unstruck : (join last.trigger.2).link.breakdown = none := by
    obtain ⟨clock, listener, joined, same⟩ := join_eq last.trigger.2
    rw [same]
    exact remains.trans unbroken
  have silent : (join last.trigger.2).listenerPanic? = none := by
    simp only [listenerPanic?, unstruck]
  simp only [doWork, if_neg lives, listens, Bool.false_eq_true, if_false, ran, conclude, silent,
    Worker.concluded_none]
  rfl

/-- A new worker with a listener returns, and follows the course of the bytes that arrive. -/
theorem follows_doWork {bytes : Bytes} (ready : Ready worker.horizon bytes worker)
    (lives : worker.stage ≠ .terminated) (listens : worker.link.listener.isNone = false)
    (fresh : worker.exchanges = []) (blank : worker.link.sink.taken = [])
    (gives : ∀ state task, (processor state task).outcome = answering state task) (state : σ)
    (unbroken : worker.link.breakdown = none := by rfl) :
    let course :=
      Course.of worker.config.codec (effectiveLimit worker.config.limit) answering state bytes
    let (result, _, last) := worker.doWork processor state
    ∃ ended, result = some ended ∧
      Course.Follows worker.config.codec ⟨ended, last.exchanges, last.link.sink.taken⟩ course ∧
      (worker.Calm → (∀ state task, (processor state task).triggers = false) →
        ⟨ended, last.exchanges, last.link.sink.taken⟩ = course) := by
  obtain ⟨ended, returns, continues⟩ := ready.run gives state
  rcases ran : worker.run worker.horizon processor state with ⟨ended?, state', last⟩
  rw [ran] at returns
  obtain rfl : ended? = some ended := returns
  rw [ran, fresh, blank] at continues
  obtain ⟨follows, same⟩ := continues.fresh
  rw [doWork_of_run lives listens unbroken ran]
  refine ⟨ended, rfl, ?_⟩
  simp only [exchanges_leaving, sink_leaving]
  exact ⟨follows, fun calm silent => same ⟨calm, silent⟩⟩

end DoWork

end FramedTasks.TimedWorker
