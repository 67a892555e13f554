import FramedTasks.Proofs.Frame.Duplex
import FramedTasks.Proofs.Worker.Blocking

/-! # Going on piece by piece

A worker that goes on as far as what has arrived allows, and again each time that more has, comes to
the same end as in one run (`complete_eq_run`). A frame that has arrived as a whole is answered before
the worker waits for the next one (`advance_frame`).
-/

namespace FramedTasks.BlockingWorker

open FramedTasks.Frame (wire take effectiveLimit)

variable {σ : Type} {worker : BlockingWorker} {processor : Processor σ} {state : σ}

/-- What a run does when it has waited for a request. -/
def proceed (processor : Processor σ) (state : σ) :
    Request × BlockingWorker → Except WorkerError Termination × σ × BlockingWorker
  | (.stop .shutdown, after) => (.ok .shutdown, state, after.enter .shuttingDown)
  | (.stop .peerClosed, after) => (.ok .peerClosed, state, after)
  | (.failed error, after) => (.error (.receive error), state, after)
  | (.payload payload, after) =>
    match after.serve processor state payload with
    | (.error error, state, after) => (.error error, state, after)
    | (.ok (), state, after) => run (after.enter .idle) processor state

theorem run_eq (worker : BlockingWorker) (processor : Processor σ) (state : σ) :
    worker.run processor state =
      if worker.flag.isSet then (.ok .shutdown, state, worker.enter .shuttingDown)
      else proceed processor state (awaitRequest (worker.enter .awaitingRequest)) := by
  rw [run]
  split
  · rfl
  · split <;> rename_i awaited <;> rw [awaited]
    · rfl
    · rfl
    · rfl
    · simp only [proceed]
      split <;> rename_i served <;> rw [served]

theorem complete_eq (worker : BlockingWorker) (processor : Processor σ) (state : σ) :
    worker.complete processor state =
      match worker.advance processor state with
      | (some ended, state, after) => (ended, state, after)
      | (none, state, after) => complete after processor state := by
  rw [complete]
  split <;> rename_i outcome <;> rw [outcome]

theorem awaitRequest_eq (worker : BlockingWorker) :
    worker.awaitRequest =
      match worker.receive with
      | (.ok payload, after) => (.payload payload, after)
      | (.error .timeout, after) =>
        if after.link.channel.reader.buffer.isEmpty && after.flag.isSet then (.stop .shutdown, after)
        else after.awaitRequest
      | (.error .endOfStream, after) => (.stop .peerClosed, after)
      | (.error error, after) => (.failed error, after) := by
  rw [awaitRequest]
  split <;> rename_i outcome <;> rw [outcome]
  next error _ _ _ => cases error <;> trivial

theorem awaitRequest_of_error {error : FrameError} {after : BlockingWorker}
    (received : worker.receive = (.error error, after)) (notTimeout : error ≠ .timeout)
    (notEnd : error ≠ .endOfStream) : worker.awaitRequest = (.failed error, after) := by
  rw [awaitRequest_eq, received]
  cases error <;> trivial

/-- What a worker still does: the rest of its cycle and all later ones. -/
def resume (worker : BlockingWorker) (processor : Processor σ) (state : σ) :
    Except WorkerError Termination × σ × BlockingWorker :=
  if worker.stage = .awaitingRequest then proceed processor state worker.awaitRequest
  else worker.run processor state

theorem resume_of_stops (stops : worker.stage ≠ .awaitingRequest ∧ worker.flag.isSet) :
    worker.resume processor state = (.ok .shutdown, state, worker.enter .shuttingDown) := by
  rw [resume, if_neg stops.1, run_eq, if_pos stops.2]

theorem resume_of_waits (waits : ¬ (worker.stage ≠ .awaitingRequest ∧ worker.flag.isSet)) :
    worker.resume processor state = proceed processor state worker.waiting.awaitRequest := by
  by_cases awaits : worker.stage = .awaitingRequest
  · rw [resume, if_pos awaits, waiting, if_pos awaits]
  · have clear : ¬ worker.flag.isSet := fun set => waits ⟨awaits, set⟩
    rw [resume, if_neg awaits, run_eq, if_neg clear, waiting, if_neg awaits]

theorem stage_waiting (worker : BlockingWorker) : worker.waiting.stage = .awaitingRequest := by
  rw [waiting]
  split
  · assumption
  · rfl

/-- Going on as far as possible leaves as much to do as was left before. -/
theorem resume_eq_of_advance (worker : BlockingWorker) (processor : Processor σ) (state : σ) :
    worker.resume processor state =
      match worker.advance processor state with
      | (some ended, state, after) => (ended, state, after)
      | (none, state, after) => after.resume processor state := by
  fun_induction advance worker processor state with
  | case1 worker state stops => exact resume_of_stops stops
  | case2 worker state waits after received stops =>
    rw [resume_of_waits waits, awaitRequest_eq, received]
    simp only [if_pos stops, proceed]
  | case3 worker state waits after received goesOn =>
    have awaits : after.stage = .awaitingRequest := by
      rw [← stage_waiting worker, ← stage_receive worker.waiting, received]
    rw [resume_of_waits waits, awaitRequest_eq, received]
    simp only [if_neg goesOn, resume, if_pos awaits]
  | case4 worker state waits after received =>
    rw [resume_of_waits waits, awaitRequest_eq, received]
    rfl
  | case5 worker state waits error after notTimeout notEnd received =>
    rw [resume_of_waits waits, awaitRequest_of_error received notTimeout notEnd]
    rfl
  | case6 worker state waits payload after received error state' last served =>
    rw [resume_of_waits waits, awaitRequest_eq, received]
    simp only [proceed, served]
  | case7 worker state waits payload after received state' last served ih =>
    rw [← ih, resume_of_waits waits, awaitRequest_eq, received]
    simp only [proceed, served]
    rfl

/-- A worker that goes on again whenever it has waited does what it does in a single run. -/
theorem complete_eq_run (between : worker.stage ≠ .awaitingRequest) (processor : Processor σ)
    (state : σ) : worker.complete processor state = worker.run processor state := by
  have resumes : worker.complete processor state = worker.resume processor state := by
    clear between
    fun_induction complete worker processor state with
    | case1 worker state ended state' after outcome =>
      rw [resume_eq_of_advance, outcome]
    | case2 worker state state' after outcome ih =>
      rw [resume_eq_of_advance, outcome, ih]
  rw [resumes, resume, if_neg between]

/-- A worker that has not been touched from elsewhere. -/
structure Untouched (before after : BlockingWorker) : Prop where
  config : after.config = before.config
  flag : after.flag = before.flag
  listener : after.link.listener = before.link.listener
  lastPoll : after.link.lastPoll = before.link.lastPoll

theorem Untouched.trans {first middle last : BlockingWorker} (earlier : Untouched first middle)
    (later : Untouched middle last) : Untouched first last :=
  ⟨later.config.trans earlier.config, later.flag.trans earlier.flag,
    later.listener.trans earlier.listener, later.lastPoll.trans earlier.lastPoll⟩

theorem untouched_waiting (worker : BlockingWorker) : Untouched worker worker.waiting := by
  rw [waiting]
  split <;> exact ⟨rfl, rfl, rfl, rfl⟩

/-- A processor that does not set the flag does not touch the worker. -/
theorem untouched_serve
    (silent : ∀ state task context, (processor state task context).triggers = false)
    (worker : BlockingWorker) (state : σ) (payload : Bytes) :
    Untouched worker (worker.serve processor state payload).2.2 := by
  cases read : (worker.config.codec.decode payload : Except CodecError InputTask) with
  | error error =>
    rw [serve_of_error read]
    exact ⟨rfl, rfl, rfl, rfl⟩
  | ok task =>
    simp only [serve, read, silent, Worker.triggerIf, Bool.false_eq_true, if_false]
    exact ⟨rfl, rfl, rfl, rfl⟩

/-- Put a source in place of the one that was there. -/
def withSource (worker : BlockingWorker) (source : Source Moment) : BlockingWorker :=
  let channel := worker.link.channel
  worker.withChannel { channel with reader := { channel.reader with source } }

theorem untouched_withSource (worker : BlockingWorker) (source : Source Moment) :
    Untouched worker (worker.withSource source) := ⟨rfl, rfl, rfl, rfl⟩

/-- A worker that reads while nothing happens elsewhere changes its source alone. -/
theorem receive_of_reader {source : Source Moment} {result : Except FrameError Bytes}
    (received : worker.link.channel.reader.receive =
      (result, { worker.link.channel.reader with source })) (calm : source.passed = []) :
    worker.receive = (result, worker.withSource source) := by
  obtain ⟨events, asked, passed⟩ := source
  obtain rfl : passed = [] := calm
  simp only [receive, received]
  rfl

section Steps

variable {after : BlockingWorker} (clear : worker.flag.isSet = false)

include clear

theorem advance_of_timeout (received : worker.waiting.receive = (.error .timeout, after))
    (still : after.flag.isSet = false) : worker.advance processor state = (none, state, after) := by
  rw [advance, if_neg (by simp [clear])]
  split <;> rename_i outcome <;> rw [received] at outcome <;> cases outcome
  · simp [still]
  · contradiction

theorem advance_of_end (received : worker.waiting.receive = (.error .endOfStream, after)) :
    worker.advance processor state = (some (.ok .peerClosed), state, after) := by
  rw [advance, if_neg (by simp [clear])]
  split <;> rename_i outcome <;> rw [received] at outcome <;> cases outcome
  · rfl
  · contradiction

theorem advance_of_served {payload : Bytes} {last : BlockingWorker} {state' : σ}
    (received : worker.waiting.receive = (.ok payload, after))
    (served : after.serve processor state payload = (.ok (), state', last)) :
    worker.advance processor state = advance (last.enter .idle) processor state' := by
  rw [advance, if_neg (by simp [clear])]
  split <;> rename_i outcome <;> rw [received] at outcome <;> cases outcome
  split <;> rename_i outcome <;> rw [served] at outcome <;> cases outcome
  rfl

end Steps

@[simp] theorem link_waiting (worker : BlockingWorker) : worker.waiting.link = worker.link := by
  rw [waiting]
  split <;> rfl

@[simp] theorem exchanges_waiting (worker : BlockingWorker) :
    worker.waiting.exchanges = worker.exchanges := by
  rw [waiting]
  split
  · rfl
  · rw [Worker.exchanges_enter]

/-- A worker between two requests, while nothing happens elsewhere. -/
structure Between (worker : BlockingWorker) (events : List (SourceEvent Moment)) : Prop where
  clear : worker.flag.isSet = false
  unread : worker.buffer = []
  calm : worker.source.passed = []
  events : worker.source.events = events

namespace Between

variable {tail : List (SourceEvent Moment)} {payload : Bytes}

/-- A frame that is there as a whole is received. -/
theorem receive_frame (between : Between worker (Source.upcoming (wire payload) tail))
    (fits : payload.length ≤ effectiveLimit worker.link.channel.reader.limit) :
    ∃ asked, worker.waiting.receive =
      (.ok payload, worker.waiting.withSource { events := tail, asked }) := by
  obtain ⟨asked, reads⟩ := Frame.Reader.receive_of_upcoming between.unread fits between.events
  refine ⟨asked, receive_of_reader ?_ rfl⟩
  rw [link_waiting, reads, between.calm]

/-- Where nothing has arrived, the worker waits. -/
theorem advance_nothing (between : Between worker [.fault Connection.nothingYet]) :
    ∃ asked, worker.advance processor state =
      (none, state, worker.waiting.withSource { events := [], asked }) := by
  obtain ⟨asked, reads⟩ := Frame.Reader.receive_of_nothingYet between.unread between.events
  have touched := (untouched_waiting worker).trans (untouched_withSource _ { events := [], asked })
  refine ⟨asked, advance_of_timeout between.clear (receive_of_reader ?_ rfl) ?_⟩
  · rw [link_waiting, reads, between.calm]
  · rw [touched.flag, between.clear]

/-- Where the stream has ended, the cycles are over. -/
theorem advance_end (between : Between worker [.data [] none]) :
    ∃ asked, worker.advance processor state =
      (some (.ok .peerClosed), state, worker.waiting.withSource { events := [], asked }) := by
  obtain ⟨asked, reads⟩ := Frame.Reader.receive_of_end between.unread between.events
  refine ⟨asked, advance_of_end between.clear (receive_of_reader ?_ rfl)⟩
  rw [link_waiting, reads, between.calm]

end Between

/-- A worker that has taken a turn, with some events to come. -/
structure Took (worker : BlockingWorker) (turn : Turn σ) (events : List (SourceEvent Moment))
    (after : BlockingWorker) : Prop where
  untouched : Untouched worker after
  between : Between after events
  exchanges : after.exchanges = worker.exchanges ++ turn.exchanges
  taken : after.sink.taken = worker.sink.taken ++ turn.written
  accepts : after.sink.Open
  readerLimit : after.link.channel.reader.limit = worker.link.channel.reader.limit
  writerLimit : after.link.channel.writer.limit = worker.link.channel.writer.limit

/-- A worker that has taken a turn waits where nothing more has arrived. -/
theorem Took.advance_nothing {turn : Turn σ} {idle : BlockingWorker}
    (took : Took worker turn [.fault Connection.nothingYet] idle) :
    ∃ after, idle.advance processor state = (none, state, after) ∧ Took worker turn [] after := by
  obtain ⟨asked, waits⟩ := took.between.advance_nothing
  let after := idle.waiting.withSource { events := [], asked }
  have waited : Untouched idle after := (untouched_waiting idle).trans (untouched_withSource ..)
  have channel : after.link.channel = { idle.link.channel with
      reader := { idle.link.channel.reader with source := { events := [], asked } } } := by
    simp only [after, withSource, channel_withChannel, link_waiting]
  have sameSink : after.sink = idle.sink := congrArg (·.writer.sink) channel
  refine ⟨after, waits, took.untouched.trans waited, ⟨?_, ?_, ?_, ?_⟩, ?_, ?_, ?_, ?_, ?_⟩
  · rw [waited.flag, took.between.clear]
  · rw [buffer, channel]
    exact took.between.unread
  · rw [source, channel]
  · rw [source, channel]
  · exact idle.exchanges_waiting.trans took.exchanges
  · rw [sameSink, took.taken]
  · rw [sameSink]
    exact took.accepts
  · rw [channel]
    exact took.readerLimit
  · rw [channel]
    exact took.writerLimit

section Frame

variable {answering : Answering σ} {payload : Bytes} {tail : List (SourceEvent Moment)}
  {turn : Turn σ} (between : Between worker (Source.upcoming (wire payload) tail))
  (accepts : worker.sink.Open)
  (fits : payload.length ≤ effectiveLimit worker.link.channel.reader.limit)
  (gives : ∀ state task context, (processor state task context).outcome = answering state task)
  (silent : ∀ state task context, (processor state task context).triggers = false)
  (isTurn : turn = .of worker.config.codec (effectiveLimit worker.link.channel.writer.limit)
    answering state payload)
  (answered : turn.result = .ok ())

include between accepts fits gives silent isTurn answered

/-- A frame that is there as a whole is received and answered. -/
theorem serve_frame :
    ∃ held last, worker.waiting.receive = (.ok payload, held) ∧
      held.serve processor state payload = (.ok (), turn.state, last) ∧
      Took worker turn tail (last.enter .idle) := by
  obtain ⟨asked, received⟩ := between.receive_frame fits
  let held := worker.waiting.withSource { events := tail, asked }
  have untouched : Untouched worker held := (untouched_waiting worker).trans (untouched_withSource ..)
  have channel : held.link.channel = { worker.link.channel with
      reader := { worker.link.channel.reader with source := { events := tail, asked } } } := by
    simp only [held, withSource, channel_withChannel, link_waiting]
  have exchanges : held.exchanges = worker.exchanges := worker.exchanges_waiting
  have writer : held.link.channel.writer = worker.link.channel.writer := congrArg (·.writer) channel
  have serves := @serves_serve _ held processor answering _ (by rwa [sink, writer]) rfl gives
    state payload
  have silently := untouched_serve silent held state payload
  rw [untouched.config, writer, ← isTurn] at serves
  rcases served : held.serve processor state payload with ⟨result, state', last⟩
  rw [served] at serves silently
  obtain rfl : turn.state = state' := serves.state.symm
  obtain rfl : result = .ok () := serves.result.trans answered
  have reader : last.link.channel.reader = { worker.link.channel.reader with
      source := { events := tail, asked } } :=
    serves.reader.trans (congrArg (·.reader) channel)
  refine ⟨held, last, received, served, (untouched.trans silently).trans ⟨rfl, rfl, rfl, rfl⟩,
    ⟨?_, ?_, ?_, ?_⟩, ?_, ?_, serves.accepts, ?_, ?_⟩
  · exact (congrArg Flag.isSet (untouched.trans silently).flag).trans between.clear
  · exact (congrArg (·.buffer) reader).trans between.unread
  · exact congrArg (·.source.passed) reader
  · exact congrArg (·.source.events) reader
  · rw [Worker.exchanges_enter, serves.exchanges, exchanges]
  · exact serves.taken.trans (by rw [sink, writer, sink])
  · exact congrArg (·.limit) reader
  · exact serves.writerLimit.trans (by rw [writer])

end Frame

/-- A frame that is there as a whole, with nothing behind it, is answered before the worker waits. -/
theorem advance_frame {answering : Answering σ} {payload : Bytes} {turn : Turn σ}
    (between : Between worker (Source.upcoming (wire payload) [.fault Connection.nothingYet]))
    (accepts : worker.sink.Open)
    (fits : payload.length ≤ effectiveLimit worker.link.channel.reader.limit)
    (gives : ∀ state task context, (processor state task context).outcome = answering state task)
    (silent : ∀ state task context, (processor state task context).triggers = false)
    (isTurn : turn = .of worker.config.codec (effectiveLimit worker.link.channel.writer.limit)
      answering state payload)
    (answered : turn.result = .ok ()) :
    ∃ after, worker.advance processor state = (none, turn.state, after) ∧
      Took worker turn [] after := by
  obtain ⟨held, last, received, served, took⟩ :=
    serve_frame between accepts fits gives silent isTurn answered
  obtain ⟨after, waits, rest⟩ := took.advance_nothing
  exact ⟨after, (advance_of_served between.clear received served).trans waits, rest⟩

end FramedTasks.BlockingWorker
