import FramedTasks.Proofs.Worker.Course
import FramedTasks.Proofs.Worker.DoWork

/-! # The course of a worker that blocks

Between two requests a worker is ready for the bytes that it holds and its stream still brings
(`Ready`). Waiting takes the first frame off these bytes, however often a read is put off
(`Ready.awaitRequest`), and serving a request is one turn of the course (`serves_serve`). A worker
that nobody asks to shut down stays calm (`Calm`), and so a run follows the course to its end
(`Ready.run`).
-/

namespace FramedTasks

/-- What happens elsewhere is no request to shut down. -/
def Moment.IsQuiet (sentinel : String) : Moment → Prop
  | .trigger => False
  | .control (.token text) => Listener.isSentinel sentinel text = false
  | .control _ => True

/-- What happens elsewhere does not break the listener down. -/
def Moment.IsSound : Moment → Prop
  | .control (.panic _) => False
  | _ => True

/-- A listener that has not broken down. -/
def Listener.IsIntact : Listener → Prop
  | .ended (.panicked _) => False
  | _ => True

namespace Listener

variable {listener : Listener}

theorem IsIntact.check (intact : listener.IsIntact) (flag : Flag) : (listener.check flag).IsIntact := by
  cases listener with
  | checking =>
    simp only [Listener.check]
    split <;> trivial
  | polling => trivial
  | ended exit => exact intact

theorem IsIntact.hear (intact : listener.IsIntact) {poll : Poll} (sound : (Moment.control poll).IsSound)
    (sentinel : String) (flag : Flag) : (listener.hear sentinel poll flag).1.IsIntact := by
  cases listener with
  | polling =>
    cases poll with
    | token text =>
      simp only [Listener.hear]
      split
      · split <;> trivial
      · trivial
    | panic text => exact sound.elim
    | _ => trivial
  | checking => trivial
  | ended exit => exact intact

/-- A listener that hears of no sentinel leaves the flag alone. -/
theorem flag_hear {sentinel : String} {poll : Poll} {flag : Flag}
    (quiet : (Moment.control poll).IsQuiet sentinel) (listener : Listener) :
    (listener.hear sentinel poll flag).2 = flag := by
  cases listener with
  | polling =>
    cases poll with
    | token text =>
      have other : isSentinel sentinel text = false := quiet
      simp [hear, other]
    | _ => rfl
  | _ => rfl

/-- A listener that looks at a flag that is set ends. -/
theorem ended_notice {sentinel : String} {flag : Flag} (set : flag.isSet = true) (poll : Poll)
    (listener : Listener) :
    ∃ exit, notice sentinel poll flag listener = .ended exit := by
  cases listener with
  | checking => exact ⟨.flagSet, by simp [notice, hear, check, set]⟩
  | ended exit => exact ⟨exit, rfl⟩
  | polling =>
    cases poll with
    | token text =>
      simp only [notice, hear]
      split
      · exact ⟨_, rfl⟩
      · exact ⟨.flagSet, by simp [check, set]⟩
    | idle => exact ⟨.flagSet, by simp [notice, hear, check, set]⟩
    | closed => exact ⟨.sourceClosed, rfl⟩
    | fault fault => exact ⟨.sourceFailed, rfl⟩
    | panic text => exact ⟨.panicked text, rfl⟩

end Listener

namespace BlockingWorker

open FramedTasks.Frame (wire take ending effectiveLimit)
open FramedTasks.Frame.Reader (WithinFrame Received)

/-! ## Waiting -/

/-- What a worker holds of a stream, and what the stream still brings. -/
structure Ready (bytes : Bytes) (worker : BlockingWorker) : Prop where
  arrives : ∃ left, Source.Brings worker.source.events left ∧ bytes = worker.buffer ++ left
  within : WithinFrame worker.buffer
  accepts : worker.sink.Open
  readerLimit : worker.link.channel.reader.limit = worker.config.limit
  writerLimit : worker.link.channel.writer.limit = worker.config.limit

/-- What waiting for a request comes to, by the bytes before it. -/
inductive Awaited (limit : Nat) (bytes : Bytes) : Request → BlockingWorker → Prop
  | found {payload rest : Bytes} {after : BlockingWorker} :
      take limit bytes = .ok (some (payload, rest)) → Ready rest after →
      Awaited limit bytes (.payload payload) after
  | stopped {after : BlockingWorker} : after.flag.isSet = true →
      Awaited limit bytes (.stop .shutdown) after
  | closed {after : BlockingWorker} :
      (∀ payload rest, take limit bytes ≠ .ok (some (payload, rest))) →
      ending limit bytes = .endOfStream → Awaited limit bytes (.stop .peerClosed) after
  | failed {error : FrameError} {after : BlockingWorker} :
      (∀ payload rest, take limit bytes ≠ .ok (some (payload, rest))) →
      ending limit bytes = error → error ≠ .endOfStream → Awaited limit bytes (.failed error) after

section Waiting

variable {bytes : Bytes} {worker : BlockingWorker}

theorem Ready.received (ready : Ready bytes worker) :
    Received (effectiveLimit worker.config.limit) bytes worker.receive.1 worker.receive.2.buffer
      worker.receive.2.source.events := by
  obtain ⟨left, brings, rfl⟩ := ready.arrives
  have received := Frame.Reader.received_receive ready.within brings
  rw [ready.readerLimit] at received
  simpa only [receive, buffer, source, channel_foldl_witness, channel_withChannel] using received

/-- A worker that has received is ready for the bytes that it holds by then. -/
theorem Ready.after_receive (ready : Ready bytes worker) {rest left : Bytes}
    (brings : Source.Brings worker.receive.2.source.events left)
    (whole : rest = worker.receive.2.buffer ++ left) (within : WithinFrame worker.receive.2.buffer) :
    Ready rest worker.receive.2 := by
  refine ⟨⟨left, brings, whole⟩, within, ?_, ?_, ?_⟩
  · rw [sink, writer_receive]
    exact ready.accepts
  · rw [limit_receive, config_receive]
    exact ready.readerLimit
  · rw [writer_receive, config_receive]
    exact ready.writerLimit

theorem Ready.awaitRequest (ready : Ready bytes worker) :
    Awaited (effectiveLimit worker.config.limit) bytes worker.awaitRequest.1
      worker.awaitRequest.2 := by
  fun_induction BlockingWorker.awaitRequest worker with
  | case1 worker payload worker' outcome =>
    have received := ready.received
    have after := @ready.after_receive
    rw [outcome] at received after
    obtain ⟨rest, found, brings, empty⟩ := received.of_ok
    refine .found found (after brings ?_ ?_)
    · rw [empty, List.nil_append]
    · rw [empty]
      exact Frame.Reader.withinFrame_nil
  | case2 worker worker' outcome stops =>
    rw [Bool.and_eq_true] at stops
    exact .stopped stops.2
  | case3 worker worker' outcome _ ih =>
    have received := ready.received
    have after := @ready.after_receive
    have config := worker.config_receive
    rw [outcome] at received after config
    obtain ⟨left, whole, within, brings⟩ := received.of_timeout
    rw [← config]
    exact ih (after brings whole within)
  | case4 worker worker' outcome =>
    have received := ready.received
    rw [outcome] at received
    obtain ⟨other, drained⟩ := received.of_error (by simp)
    exact .closed other drained
  | case5 worker error worker' notTimeout notEnd outcome =>
    have received := ready.received
    rw [outcome] at received
    obtain ⟨other, drained⟩ := received.of_error notTimeout
    exact .failed other drained notEnd

end Waiting

/-- What receiving preserves, waiting preserves. -/
theorem awaitRequest_preserves {kept : BlockingWorker → Prop}
    (receives : ∀ worker, kept worker → kept worker.receive.2) {worker : BlockingWorker}
    (start : kept worker) : kept worker.awaitRequest.2 := by
  fun_induction BlockingWorker.awaitRequest worker with
  | case1 worker payload worker' outcome =>
    have after := receives worker start
    rwa [outcome] at after
  | case2 worker worker' outcome =>
    have after := receives worker start
    rwa [outcome] at after
  | case3 worker worker' outcome _ ih =>
    have after := receives worker start
    rw [outcome] at after
    exact ih after
  | case4 worker worker' outcome =>
    have after := receives worker start
    rwa [outcome] at after
  | case5 worker error worker' _ _ outcome =>
    have after := receives worker start
    rwa [outcome] at after

/-! ## Calm -/

/-- Nobody has asked the worker to shut down, and nobody will while it waits for its stream. -/
structure Calm (worker : BlockingWorker) : Prop where
  clear : worker.flag.isSet = false
  quiet : worker.source.Sees (Moment.IsQuiet worker.config.sentinel)

section Calm

variable {worker : BlockingWorker}

theorem clear_witness {moment : Moment} (quiet : moment.IsQuiet worker.config.sentinel)
    (clear : worker.flag.isSet = false) : (worker.witness moment).flag.isSet = false := by
  cases moment with
  | trigger => exact quiet.elim
  | control poll =>
    simp only [witness]
    split
    · exact clear
    · next listener _ =>
      simp only [withListener, listener.flag_hear quiet, clear]

theorem clear_foldl_witness {moments : List Moment}
    (quiet : ∀ moment ∈ moments, moment.IsQuiet worker.config.sentinel)
    (clear : worker.flag.isSet = false) : (moments.foldl witness worker).flag.isSet = false := by
  induction moments generalizing worker with
  | nil => exact clear
  | cons moment rest ih =>
    refine ih ?_ (clear_witness (quiet moment (List.mem_cons_self ..)) clear)
    rw [config_witness]
    exact fun other member => quiet other (List.mem_cons_of_mem _ member)

theorem Calm.receive (calm : Calm worker) : Calm worker.receive.2 := by
  obtain ⟨passed, coming⟩ := Frame.Reader.sees_receive calm.quiet
  constructor
  · simp only [BlockingWorker.receive]
    exact clear_foldl_witness (fun moment member => passed moment (List.mem_reverse.mp member)) calm.clear
  · rw [config_receive]
    simp only [source, BlockingWorker.receive, channel_foldl_witness]
    exact ⟨fun moment member => absurd member (List.not_mem_nil), coming⟩

end Calm

/-! ## Serving -/

section Serve

variable {σ : Type} {worker : BlockingWorker} {processor : Processor σ} {answering : Answering σ}

/-- A worker that has served a request has taken a turn, and nothing else has changed. -/
structure Serves (worker : BlockingWorker) (turn : Turn σ)
    (outcome : Except WorkerError Unit × σ × BlockingWorker) : Prop where
  result : outcome.1 = turn.result
  state : outcome.2.1 = turn.state
  exchanges : outcome.2.2.exchanges = worker.exchanges ++ turn.exchanges
  taken : outcome.2.2.sink.taken = worker.sink.taken ++ turn.written
  accepts : outcome.2.2.sink.Open
  reader : outcome.2.2.link.channel.reader = worker.link.channel.reader
  writerLimit : outcome.2.2.link.channel.writer.limit = worker.link.channel.writer.limit
  config : outcome.2.2.config = worker.config

theorem sendReply_of_excess {reply : OutputTask}
    (excess : effectiveLimit worker.link.channel.writer.limit <
      (worker.config.codec.encode reply).length) :
    worker.sendReply reply = (.error (.send (.payloadTooLarge
      (worker.config.codec.encode reply).length
      (effectiveLimit worker.link.channel.writer.limit))), worker) := by
  simp only [sendReply, Frame.Channel.send, Frame.Writer.send_of_excess excess]
  rfl

/-- What a worker has done after it sent a reply. -/
structure Sends (worker : BlockingWorker) (reply : OutputTask)
    (outcome : Except WorkerError Unit × BlockingWorker) : Prop where
  result : outcome.1 = .ok ()
  taken : outcome.2.sink.taken = worker.sink.taken ++ wire (worker.config.codec.encode reply)
  accepts : outcome.2.sink.Open
  reader : outcome.2.link.channel.reader = worker.link.channel.reader
  writerLimit : outcome.2.link.channel.writer.limit = worker.link.channel.writer.limit
  config : outcome.2.config = worker.config
  exchanges : outcome.2.exchanges = worker.exchanges

theorem sends_sendReply {reply : OutputTask} (accepts : worker.sink.Open)
    (fits : ¬ effectiveLimit worker.link.channel.writer.limit <
      (worker.config.codec.encode reply).length) : Sends worker reply (worker.sendReply reply) := by
  obtain ⟨sent, taken, stays⟩ := Frame.Writer.send_of_open accepts (Nat.not_lt.mp fits)
  refine ⟨?_, taken, stays, rfl, Frame.Writer.limit_send _ _, rfl, rfl⟩
  exact congrArg (Except.mapError WorkerError.send) sent

theorem serves_serve {limit : Nat} (accepts : worker.sink.Open)
    (writerLimit : effectiveLimit worker.link.channel.writer.limit = limit)
    (gives : ∀ state task context, (processor state task context).outcome = answering state task)
    (state : σ) (payload : Bytes) :
    Serves worker (Turn.of worker.config.codec limit answering state payload)
      (worker.serve processor state payload) := by
  subst writerLimit
  cases read : (worker.config.codec.decode payload : Except CodecError InputTask) with
  | error error =>
    rw [serve_of_error read, Turn.of_error read]
    exact ⟨rfl, rfl, (List.append_nil _).symm, (List.append_nil _).symm, accepts, rfl, rfl, rfl⟩
  | ok task =>
    let call := processor state task (worker.context task)
    let sender : BlockingWorker :=
      (((worker.enter .processing).triggerIf call.triggers).note task call.answer.toReply).enter
        .sendingReply
    have answered : answering state task = (call.answer, call.state) :=
      (gives state task (worker.context task)).symm
    have served : worker.serve processor state payload =
        ((sender.sendReply call.answer.toReply).1, call.state,
          (sender.sendReply call.answer.toReply).2) := by
      simp only [serve, read]
      rfl
    have link : sender.link = worker.link := by
      simp only [sender, Worker.link_enter, Worker.link_note, Worker.link_triggerIf]
    have config : sender.config = worker.config := by
      simp only [sender, Worker.config_enter, Worker.config_note, Worker.config_triggerIf]
    have exchanges : sender.exchanges = worker.exchanges ++ [(task, call.answer.toReply)] := by
      simp only [sender, Worker.exchanges_enter, Worker.exchanges_note, Worker.exchanges_triggerIf]
    have sink : sender.sink = worker.sink := congrArg (·.channel.writer.sink) link
    rw [served]
    by_cases excess : effectiveLimit worker.link.channel.writer.limit <
        (worker.config.codec.encode call.answer.toReply).length
    · rw [Turn.of_excess read (by rwa [answered]), answered,
        sendReply_of_excess (by rwa [config, link]), config, link]
      exact ⟨rfl, rfl, exchanges, (congrArg (·.taken) sink).trans (List.append_nil _).symm,
        sink ▸ accepts, congrArg (·.channel.reader) link, congrArg (·.channel.writer.limit) link,
        config⟩
    · have sends := @sends_sendReply sender call.answer.toReply (by rwa [sink]) (by rwa [config, link])
      rw [Turn.of_fits read (by rwa [answered]), answered]
      refine ⟨sends.result, rfl, sends.exchanges.trans exchanges, ?_, sends.accepts, ?_, ?_, ?_⟩
      · rw [sends.taken, sink, config]
      · rw [sends.reader, link]
      · rw [sends.writerLimit, link]
      · rw [sends.config, config]

/-- A worker is as ready after a turn as before it. -/
theorem Serves.ready {turn : Turn σ} {outcome : Except WorkerError Unit × σ × BlockingWorker}
    {bytes : Bytes} (serves : Serves worker turn outcome) (ready : Ready bytes worker) (stage : Stage) :
    Ready bytes (outcome.2.2.enter stage) := by
  have reader : BlockingWorker.source (outcome.2.2.enter stage) = worker.source ∧
      BlockingWorker.buffer (outcome.2.2.enter stage) = worker.buffer := by
    simp only [source, buffer, Worker.link_enter, serves.reader, and_self]
  refine ⟨?_, ?_, serves.accepts, ?_, ?_⟩
  · rw [reader.1, reader.2]
    exact ready.arrives
  · rw [reader.2]
    exact ready.within
  · rw [Worker.link_enter, Worker.config_enter, serves.reader, serves.config]
    exact ready.readerLimit
  · rw [Worker.link_enter, Worker.config_enter, serves.writerLimit, serves.config]
    exact ready.writerLimit

/-- A processor that leaves the flag alone leaves a worker calm. -/
theorem Calm.serve (calm : Calm worker)
    (silent : ∀ state task context, (processor state task context).triggers = false) (state : σ)
    (payload : Bytes) : Calm (worker.serve processor state payload).2.2 := by
  cases read : (worker.config.codec.decode payload : Except CodecError InputTask) with
  | error error =>
    rw [serve_of_error read]
    exact calm
  | ok task =>
    simp only [BlockingWorker.serve, read, silent, Worker.triggerIf, Bool.false_eq_true, if_false]
    exact ⟨calm.clear, calm.quiet⟩

end Serve

/-! ## Running -/

section Run

variable {σ : Type} {worker after : BlockingWorker} {processor : Processor σ}
  {answering : Answering σ} {bytes : Bytes} {request : Request}

/-- A wait for a request, as a run begins it. -/
theorem awaited_of_run (ready : Ready bytes worker)
    (awaited : BlockingWorker.awaitRequest (worker.enter .awaitingRequest) = (request, after)) :
    Awaited (effectiveLimit worker.config.limit) bytes request after ∧
      after.config = worker.config ∧ after.exchanges = worker.exchanges ∧ after.sink = worker.sink ∧
      (Calm worker → Calm after) := by
  have entered : Ready bytes (worker.enter .awaitingRequest) :=
    ⟨ready.arrives, ready.within, ready.accepts, ready.readerLimit, ready.writerLimit⟩
  have waits := entered.awaitRequest
  have kept := kept_awaitRequest (worker.enter .awaitingRequest)
  have stays (calm : Calm worker) :
      Calm (BlockingWorker.awaitRequest (worker.enter .awaitingRequest)).2 := by
    have before : Calm (worker.enter .awaitingRequest) := ⟨calm.clear, calm.quiet⟩
    exact awaitRequest_preserves (fun _ => Calm.receive) before
  rw [awaited] at waits kept stays
  refine ⟨waits, kept.config, ?_, congrArg (·.sink) kept.writer, stays⟩
  rw [Worker.exchanges_of_journal after kept.journal, Worker.exchanges_enter]

/-- A run goes through turns of the course of the bytes, and stops short of its end only if the
worker was disturbed. -/
theorem Ready.run (ready : Ready bytes worker)
    (gives : ∀ state task context, (processor state task context).outcome = answering state task)
    (state : σ) :
    Course.Continues worker.config.codec
      (.of worker.config.codec (effectiveLimit worker.config.limit) answering state bytes)
      (Calm worker ∧ ∀ state task context, (processor state task context).triggers = false)
      worker.exchanges worker.sink.taken
      ⟨(worker.run processor state).1, (worker.run processor state).2.2.exchanges,
        (worker.run processor state).2.2.sink.taken⟩ := by
  fun_induction BlockingWorker.run worker processor state generalizing bytes with
  | case1 worker state stops =>
    rw [Worker.exchanges_enter]
    refine .stopped ?_ _
    rintro ⟨calm, -⟩
    simp [calm.clear] at stops
  | case2 worker state clear worker' awaited =>
    obtain ⟨waits, -, exchanges, sink, stays⟩ := awaited_of_run ready awaited
    rw [Worker.exchanges_enter, exchanges, ← sink]
    refine .stopped ?_ _
    rintro ⟨calm, -⟩
    cases waits with
    | stopped set => simp [(stays calm).clear] at set
  | case3 worker state clear worker' awaited =>
    obtain ⟨waits, -, exchanges, sink, -⟩ := awaited_of_run ready awaited
    rw [exchanges, sink]
    cases waits with
    | closed other drained =>
      exact .drained other (by rw [drained]; rfl)
  | case4 worker state clear error worker' awaited =>
    obtain ⟨waits, -, exchanges, sink, -⟩ := awaited_of_run ready awaited
    rw [exchanges, sink]
    cases waits with
    | failed other drained notEnd => exact .drained other (by rw [drained, Course.finish_of_ne notEnd])
  | case5 worker state clear payload worker' awaited error state' worker'' served =>
    obtain ⟨waits, config, exchanges, sink, -⟩ := awaited_of_run ready awaited
    cases waits with
    | found found after =>
      have serves := serves_serve after.accepts rfl gives state payload
      rw [after.writerLimit, config, served] at serves
      simp only
      rw [serves.exchanges, serves.taken, exchanges, sink]
      exact .failed found serves.result.symm
  | case6 worker state clear payload worker' awaited state' worker'' served ih =>
    obtain ⟨waits, config, exchanges, sink, stays⟩ := awaited_of_run ready awaited
    cases waits with
    | @found _ rest _ found after =>
      have serves := serves_serve after.accepts rfl gives state payload
      have calm (undisturbed : Calm worker ∧ ∀ state task context,
          (processor state task context).triggers = false) :
          Calm (worker'.serve processor state payload).2.2 :=
        (stays undisturbed.1).serve undisturbed.2 state payload
      have ready := serves.ready after .idle
      rw [after.writerLimit, config, served] at serves
      rw [served] at calm ready
      obtain rfl : state' = _ := serves.state
      have taken : (BlockingWorker.sink (worker''.enter .idle)).taken = worker.sink.taken ++ _ :=
        sink ▸ serves.taken
      have continues := ih ready
      rw [Worker.config_enter, Worker.exchanges_enter, serves.config, config, serves.exchanges,
        exchanges, taken] at continues
      refine .answered found serves.result.symm (fun undisturbed => ⟨?_, undisturbed.2⟩) continues
      exact ⟨(calm undisturbed).clear, (calm undisturbed).quiet⟩

/-- What receiving, serving and going over to another stage preserve, a run preserves. -/
theorem run_preserves {kept : BlockingWorker → Prop}
    (receives : ∀ worker, kept worker → kept worker.receive.2)
    (serves : ∀ (worker : BlockingWorker) state payload, kept worker →
      kept (worker.serve processor state payload).2.2)
    (enters : ∀ (worker : BlockingWorker) stage, kept worker → kept (worker.enter stage))
    (start : kept worker) (state : σ) : kept (worker.run processor state).2.2 := by
  have waits {worker after : BlockingWorker} {request : Request} (start : kept worker)
      (awaited : BlockingWorker.awaitRequest (worker.enter .awaitingRequest) = (request, after)) :
      kept after := by
    have kept := awaitRequest_preserves receives (enters worker .awaitingRequest start)
    rwa [awaited] at kept
  fun_induction BlockingWorker.run worker processor state with
  | case1 worker state stops => exact enters _ _ start
  | case2 worker state clear worker' awaited => exact enters _ _ (waits start awaited)
  | case3 worker state clear worker' awaited => exact waits start awaited
  | case4 worker state clear error worker' awaited => exact waits start awaited
  | case5 worker state clear payload worker' awaited error state' worker'' served =>
    have after := serves worker' state payload (waits start awaited)
    rwa [served] at after
  | case6 worker state clear payload worker' awaited state' worker'' served ih =>
    have after := serves worker' state payload (waits start awaited)
    rw [served] at after
    exact ih (enters _ _ after)

end Run

/-! ## The listener of a worker -/

section Listening

variable {σ : Type} {worker : BlockingWorker} {processor : Processor σ}

/-- The listener of the worker has not broken down, and will not. -/
structure Sound (worker : BlockingWorker) : Prop where
  intact : ∀ listener, worker.link.listener = some listener → listener.IsIntact
  coming : worker.source.Sees Moment.IsSound

theorem intact_witness {moment : Moment} (sound : moment.IsSound)
    (intact : ∀ listener, worker.link.listener = some listener → listener.IsIntact) :
    ∀ listener, (worker.witness moment).link.listener = some listener → listener.IsIntact := by
  cases moment with
  | trigger => exact intact
  | control poll =>
    simp only [witness]
    split
    · exact intact
    · next listener listens =>
      rintro _ ⟨⟩
      exact ((intact listener listens).hear sound _ _).check _

theorem Sound.receive (sound : Sound worker) : Sound worker.receive.2 := by
  obtain ⟨passed, coming⟩ := Frame.Reader.sees_receive sound.coming
  have intact (moments : List Moment) (sounds : ∀ moment ∈ moments, moment.IsSound)
      (worker : BlockingWorker)
      (start : ∀ listener, worker.link.listener = some listener → listener.IsIntact) :
      ∀ listener, (moments.foldl witness worker).link.listener = some listener →
        listener.IsIntact := by
    induction moments generalizing worker with
    | nil => exact start
    | cons moment rest ih =>
      refine ih (fun other member => sounds other (List.mem_cons_of_mem _ member)) _ ?_
      exact intact_witness (sounds moment (List.mem_cons_self ..)) start
  constructor
  · exact intact _ (fun moment member => passed moment (List.mem_reverse.mp member)) _ sound.intact
  · simp only [source, BlockingWorker.receive, channel_foldl_witness]
    exact ⟨fun moment member => absurd member (List.not_mem_nil), coming⟩

theorem Sound.serve (sound : Sound worker) (state : σ) (payload : Bytes) :
    Sound (worker.serve processor state payload).2.2 := by
  simp only [BlockingWorker.serve]
  split
  · exact sound
  · next task _ =>
    have triggered (worker : BlockingWorker) (condition : Bool) (sound : Sound worker) :
        Sound (worker.triggerIf condition) := by
      cases condition <;> exact ⟨sound.intact, sound.coming⟩
    have after := triggered (worker.enter .processing)
      (processor state task ((worker.enter .processing).context task)).triggers
      ⟨sound.intact, sound.coming⟩
    exact ⟨after.intact, after.coming⟩

/-- A worker notes how its listener has ended. -/
theorem join_of_listening {listener : Listener} (listens : worker.link.listener = some listener)
    (set : worker.flag.isSet = true) :
    ∃ exit, listener.notice worker.config.sentinel worker.link.lastPoll worker.flag = .ended exit ∧
      worker.join =
        { worker with link := { worker.link with listener := none, joined := some exit } } := by
  obtain ⟨exit, ended⟩ := Listener.ended_notice set worker.link.lastPoll listener
  refine ⟨exit, ended, ?_⟩
  simp only [join, settle, withListener, listens, Option.map_some, ended]

/-- A listener that has not broken down ends without doing so. -/
theorem listenerPanic?_join {listener : Listener} (listens : worker.link.listener = some listener)
    (set : worker.flag.isSet = true) (intact : listener.IsIntact)
    (sound : (Moment.control worker.link.lastPoll).IsSound) :
    worker.join.listenerPanic? = none := by
  obtain ⟨exit, ended, joined⟩ := join_of_listening listens set
  have ends : (listener.notice worker.config.sentinel worker.link.lastPoll worker.flag).IsIntact :=
    (intact.hear sound worker.config.sentinel worker.flag).check worker.flag
  rw [ended] at ends
  rw [joined]
  cases exit with
  | panicked text => exact ends.elim
  | _ => rfl

theorem lastPoll_witness (worker : BlockingWorker) (moment : Moment) :
    (worker.witness moment).link.lastPoll = worker.link.lastPoll := by
  cases moment with
  | trigger => rfl
  | control poll =>
    simp only [witness]
    split <;> rfl

theorem lastPoll_receive (worker : BlockingWorker) :
    worker.receive.2.link.lastPoll = worker.link.lastPoll := by
  apply @receive_preserves worker fun after => after.link.lastPoll = worker.link.lastPoll
  · exact fun middle moment same => (lastPoll_witness middle moment).trans same
  · exact fun _ _ same => same
  · rfl

theorem lastPoll_serve (worker : BlockingWorker) (processor : Processor σ) (state : σ)
    (payload : Bytes) :
    (worker.serve processor state payload).2.2.link.lastPoll = worker.link.lastPoll := by
  simp only [BlockingWorker.serve]
  split
  · rfl
  · simp only [sendReply, withChannel, Worker.link_enter, Worker.link_note, Worker.link_triggerIf]

/-- The poll that the listener is left with is settled beforehand. -/
theorem lastPoll_run (worker : BlockingWorker) (processor : Processor σ) (state : σ) :
    (worker.run processor state).2.2.link.lastPoll = worker.link.lastPoll := by
  apply @run_preserves _ worker processor fun after => after.link.lastPoll = worker.link.lastPoll
  · intro middle same
    exact (lastPoll_receive middle).trans same
  · intro middle state payload same
    exact (lastPoll_serve middle processor state payload).trans same
  · intro middle stage same
    exact same
  · rfl

/-- A run leaves the listener in its place. -/
theorem isNone_listener_run (worker : BlockingWorker) (processor : Processor σ) (state : σ) :
    (worker.run processor state).2.2.link.listener.isNone = worker.link.listener.isNone := by
  have witnessed (worker : BlockingWorker) (moment : Moment) :
      (worker.witness moment).link.listener.isNone = worker.link.listener.isNone := by
    cases moment with
    | trigger => rfl
    | control poll =>
      simp only [witness]
      split
      · rfl
      · next listens => rw [listens]; rfl
  apply @run_preserves _ worker processor fun after =>
    after.link.listener.isNone = worker.link.listener.isNone
  · intro middle same
    apply @receive_preserves middle fun after =>
      after.link.listener.isNone = worker.link.listener.isNone
    · exact fun before moment same => (witnessed before moment).trans same
    · exact fun _ _ same => same
    · exact same
  · intro middle state payload same
    simp only [BlockingWorker.serve]
    split
    · exact same
    · simpa only [sendReply, withChannel, Worker.link_enter, Worker.link_note, Worker.link_triggerIf]
        using same
  · intro middle stage same
    exact same
  · rfl

/-- A worker with a listener does what its run does, and tells of a listener that broke down. -/
theorem doWork_of_run (lives : worker.stage ≠ .terminated)
    (listens : worker.link.listener.isNone = false)
    (lasts : (Moment.control worker.link.lastPoll).IsSound) (state : σ) :
    let (ended, _, last) := worker.run processor state
    let (result, _, last') := worker.doWork processor state
    last'.exchanges = last.exchanges ∧ last'.sink = last.sink ∧ WithListener ended result ∧
      (Sound worker → result = ended) := by
  have sound (start : Sound worker) : Sound (worker.run processor state).2.2 :=
    run_preserves (fun _ => Sound.receive) (fun _ _ _ sound => sound.serve ..)
      (fun _ _ sound => ⟨sound.intact, sound.coming⟩) start state
  have remains := lastPoll_run worker processor state
  have listening := isNone_listener_run worker processor state
  simp only [doWork, if_neg lives, listens, Bool.false_eq_true, if_false]
  generalize worker.run processor state = outcome at *
  obtain ⟨ended, state', last⟩ := outcome
  have alike := alike_conclude ended last
  refine ⟨alike.exchanges, alike.sink, ?_, fun start => ?_⟩
  · exact withListener_concluded ..
  · rw [listens, Option.isNone_eq_false_iff, Option.isSome_iff_exists] at listening
    obtain ⟨listener, present⟩ := listening
    have silent : (join last.trigger.2).listenerPanic? = none :=
      listenerPanic?_join present rfl ((sound start).intact listener present) (remains ▸ lasts)
    simp only [conclude, silent, Worker.concluded_none]

/-- A listener that broke down spoils the end of a course and nothing else. -/
theorem WithListener.follows {codec : Codec} {front course : Course}
    {result : Except WorkerError Termination} (reported : WithListener front.result result)
    (follows : Course.Follows codec front course) :
    Course.Follows codec { front with result } course := by
  refine ⟨follows.exchanges, follows.written, ?_⟩
  have complete := follows.complete
  rcases reported with rfl | ⟨termination, text, ended, rfl⟩
  · exact complete
  · simp only [Course.Complete, ended] at complete
    exact complete

/-- A new worker with a listener follows the course of the bytes that arrive. -/
theorem follows_doWork {answering : Answering σ} {bytes : Bytes} (ready : Ready bytes worker)
    (lives : worker.stage ≠ .terminated) (listens : worker.link.listener.isNone = false)
    (fresh : worker.exchanges = []) (blank : worker.sink.taken = [])
    (gives : ∀ state task context, (processor state task context).outcome = answering state task)
    (state : σ) (lasts : (Moment.control worker.link.lastPoll).IsSound := by trivial) :
    let course :=
      Course.of worker.config.codec (effectiveLimit worker.config.limit) answering state bytes
    let (result, _, last) := worker.doWork processor state
    Course.Follows worker.config.codec ⟨result, last.exchanges, last.sink.taken⟩ course ∧
      (worker.Calm → (∀ state task context, (processor state task context).triggers = false) →
        last.exchanges = course.exchanges ∧ last.sink.taken = course.written ∧
          WithListener course.result result ∧ (worker.Sound → result = course.result)) := by
  have continues := ready.run gives state
  have done := @doWork_of_run _ _ processor lives listens lasts state
  rcases ran : worker.run processor state with ⟨ended, state', last⟩
  rcases worked : worker.doWork processor state with ⟨result, state'', last'⟩
  rw [ran, worked] at done
  rw [ran, fresh, blank] at continues
  obtain ⟨follows, same⟩ := continues.fresh
  obtain ⟨exchanges, sink, reported, sound⟩ := done
  simp only [exchanges, sink]
  refine ⟨WithListener.follows reported follows, fun calm silent => ?_⟩
  rw [← same ⟨calm, silent⟩]
  exact ⟨rfl, rfl, reported, sound⟩

end Listening

end BlockingWorker

end FramedTasks
