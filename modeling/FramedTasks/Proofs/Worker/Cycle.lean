import FramedTasks.Proofs.Frame.Sending
import FramedTasks.Proofs.Worker.Requests

/-! # The cycle of a worker

`Processor.Answers` says which replies a processor gives to a list of tasks, whatever it is told
about shutdown. `Settled` is what holds of a worker between two requests: every byte that arrived
belongs to a request that was answered, and every reply is out and flushed. A wait that brings a
request makes a settled worker pending (`Settled.pending`), serving the request settles it again
unless it ends the run (`Pending.serve`), and so a run that starts settled ends in one of the ways
that `Ending` lists (`Settled.run`).
-/

namespace FramedTasks

open FramedTasks.Frame (wire wires expectedLength effectiveLimit)
open FramedTasks.Frame.Writer (Sending)

/-- The tasks that were processed with their replies, oldest first. -/
def Worker.exchanges {Link : Type} (worker : Worker Link) : List (InputTask × OutputTask) :=
  worker.journal.reverse.filterMap fun
    | .processed task reply => some (task, reply)
    | .entered _ => none

namespace Worker

variable {Link : Type} (worker : Worker Link)

@[simp] theorem exchanges_enter (stage : Stage) : (worker.enter stage).exchanges = worker.exchanges := by
  simp [exchanges, enter]

@[simp] theorem exchanges_note (task : InputTask) (reply : OutputTask) :
    (worker.note task reply).exchanges = worker.exchanges ++ [(task, reply)] := by
  simp [exchanges, note]

@[simp] theorem exchanges_triggerIf (condition : Bool) :
    (worker.triggerIf condition).exchanges = worker.exchanges := by
  cases condition <;> rfl

@[simp] theorem config_enter (stage : Stage) : (worker.enter stage).config = worker.config := rfl

@[simp] theorem config_note (task : InputTask) (reply : OutputTask) :
    (worker.note task reply).config = worker.config := rfl

@[simp] theorem config_triggerIf (condition : Bool) :
    (worker.triggerIf condition).config = worker.config := by
  cases condition <;> rfl

theorem exchanges_of_journal {other : Worker Link} (same : worker.journal = other.journal) :
    worker.exchanges = other.exchanges := by
  simp only [exchanges, same]

end Worker

/-- The replies of a processor to successive tasks, and its state after them. The context of a
task holds the time limit of the task; whether the worker is shutting down may be anything. A call
that panics is answered for with status 500 and the text of the panic. -/
inductive Processor.Answers {σ : Type} (processor : Processor σ) :
    σ → List (InputTask × OutputTask) → σ → Prop
  | none (state : σ) : Answers processor state [] state
  | reply {state last : σ} {task : InputTask} {shuttingDown : Bool} {output : OutputTask}
      {rest : List (InputTask × OutputTask)} :
      (processor state task ⟨task.timeoutMillis?, shuttingDown⟩).answer = .reply output →
      Answers processor (processor state task ⟨task.timeoutMillis?, shuttingDown⟩).state rest last →
      Answers processor state ((task, output) :: rest) last
  | panic {state last : σ} {task : InputTask} {shuttingDown : Bool} {text : Option String}
      {rest : List (InputTask × OutputTask)} :
      (processor state task ⟨task.timeoutMillis?, shuttingDown⟩).answer = .panic text →
      Answers processor (processor state task ⟨task.timeoutMillis?, shuttingDown⟩).state rest last →
      Answers processor state
        ((task, ⟨text.getD "processor panicked", ⟨500⟩, .none, .none⟩) :: rest) last

namespace Processor.Answers

variable {σ : Type} {processor : Processor σ} {state middle last : σ}
  {first second : List (InputTask × OutputTask)}

theorem append (earlier : processor.Answers state first middle)
    (later : processor.Answers middle second last) :
    processor.Answers state (first ++ second) last := by
  induction earlier with
  | none => exact later
  | reply answer _ ih => exact .reply answer (ih later)
  | panic answer _ ih => exact .panic answer (ih later)

/-- The answer to one task. -/
theorem call (processor : Processor σ) (state : σ) (task : InputTask) (shuttingDown : Bool) :
    let call := processor state task ⟨task.timeoutMillis?, shuttingDown⟩
    processor.Answers state [(task, call.answer.toReply)] call.state := by
  intro call
  cases answer : call.answer with
  | reply output => exact .reply answer (.none _)
  | panic text => exact .panic answer (.none _)

end Processor.Answers

namespace BlockingWorker

section Channel

variable (worker : BlockingWorker) (channel : Frame.Channel Moment)

@[simp] theorem channel_withChannel : (worker.withChannel channel).link.channel = channel := rfl

@[simp] theorem config_withChannel : (worker.withChannel channel).config = worker.config := rfl

@[simp] theorem exchanges_withChannel :
    (worker.withChannel channel).exchanges = worker.exchanges := rfl

end Channel

def replyFrames (codec : Codec) (exchanges : List (InputTask × OutputTask)) : List Bytes :=
  exchanges.map fun exchange => wire (codec.encode exchange.2)

theorem replyFrames_append (codec : Codec) (first second : List (InputTask × OutputTask)) :
    replyFrames codec (first ++ second) = replyFrames codec first ++ replyFrames codec second :=
  List.map_append ..

section Serve

variable {σ : Type} {worker : BlockingWorker} {processor : Processor σ} {state : σ} {payload : Bytes}

theorem serve_of_error {error : CodecError}
    (unread : (worker.config.codec.decode payload : Except CodecError InputTask) = .error error) :
    worker.serve processor state payload = (.error (.decode error), state, worker) := by
  simp only [serve, unread]

/-- What a worker has done after it served a request that holds a task. -/
structure Served (worker : BlockingWorker) (processor : Processor σ) (state : σ) (task : InputTask)
    (result : Except WorkerError Unit) (state' : σ) (after : BlockingWorker) : Prop where
  source : after.source = worker.source
  buffer : after.buffer = worker.buffer
  config : after.config = worker.config
  readerLimit : after.link.channel.reader.limit = worker.link.channel.reader.limit
  writerLimit : after.link.channel.writer.limit = worker.link.channel.writer.limit
  exchange : ∃ reply, after.exchanges = worker.exchanges ++ [(task, reply)] ∧
    processor.Answers state [(task, reply)] state' ∧
    ∃ sent, result = sent.mapError .send ∧
      Sending (effectiveLimit worker.link.channel.writer.limit) worker.sink
        (worker.config.codec.encode reply) sent after.sink

theorem served_serve {task : InputTask}
    (read : (worker.config.codec.decode payload : Except CodecError InputTask) = .ok task) :
    Served worker processor state task (worker.serve processor state payload).1
      (worker.serve processor state payload).2.1 (worker.serve processor state payload).2.2 := by
  have answers : processor.Answers state
      [(task, (processor state task (worker.context task)).answer.toReply)]
      (processor state task (worker.context task)).state :=
    .call processor state task worker.flag.isSet
  have sending := Frame.Writer.sending_send worker.link.channel.writer (worker.config.codec.encode
    (processor state task (worker.context task)).answer.toReply)
  have context (stage : Stage) : (worker.enter stage).context task = worker.context task := rfl
  simp only [serve, read, sendReply, Frame.Channel.send, context]
  refine ⟨?_, ?_, ?_, ?_, ?_, _, ?_, answers, _, rfl, ?_⟩
  · simp [source]
  · simp [buffer]
  · simp
  · simp
  · simp
  · simp
  · simpa [sink] using sending

end Serve

/-- Two workers that differ in their stages, flags and listeners at most. -/
structure Alike (before after : BlockingWorker) : Prop where
  channel : after.link.channel = before.link.channel
  config : after.config = before.config
  exchanges : after.exchanges = before.exchanges

theorem alike_enter (worker : BlockingWorker) (stage : Stage) : Alike worker (worker.enter stage) :=
  ⟨rfl, rfl, worker.exchanges_enter stage⟩

namespace Alike

variable {before after : BlockingWorker}

theorem source (alike : Alike before after) : after.source = before.source :=
  congrArg (·.reader.source) alike.channel

theorem buffer (alike : Alike before after) : after.buffer = before.buffer :=
  congrArg (·.reader.buffer) alike.channel

theorem sink (alike : Alike before after) : after.sink = before.sink :=
  congrArg (·.writer.sink) alike.channel

end Alike

section Run

variable {σ : Type} (origin : BlockingWorker) (processor : Processor σ) (initial : σ)

/-- What a worker has read and processed since it was as `origin`: each payload was decoded, and
the tasks were processed in order. -/
structure Ledger (payloads : List Bytes) (readings : List Reading) (state : σ)
    (worker : BlockingWorker) : Prop where
  reads : origin.source.Reads readings worker.source
  fits : ∀ payload ∈ payloads, payload.length ≤ effectiveLimit origin.config.limit
  decoded : payloads.map origin.config.codec.decode =
    worker.exchanges.map fun exchange => (.ok exchange.1 : Except CodecError InputTask)
  answered : processor.Answers initial worker.exchanges state
  config : worker.config = origin.config
  readerLimit : worker.link.channel.reader.limit = origin.config.limit
  writerLimit : worker.link.channel.writer.limit = origin.config.limit

/-- All replies are out, each flushed. -/
def Replied (worker : BlockingWorker) : Prop :=
  origin.sink.Delivers (replyFrames origin.config.codec worker.exchanges) worker.sink

/-- Between two requests every byte that arrived belongs to a request that was answered. -/
structure Settled (payloads : List Bytes) (readings : List Reading) (state : σ)
    (worker : BlockingWorker) : Prop
    extends Ledger origin processor initial payloads readings state worker where
  whole : arrivals readings = wires payloads
  unclosed : .closed ∉ readings
  empty : worker.buffer = []
  replied : Replied origin worker

/-- A whole request has arrived and is not processed yet. -/
structure Pending (payloads : List Bytes) (readings : List Reading) (payload : Bytes) (state : σ)
    (worker : BlockingWorker) : Prop
    extends Ledger origin processor initial payloads readings state worker where
  whole : arrivals readings = wires payloads ++ wire payload
  within : payload.length ≤ effectiveLimit origin.config.limit
  unclosed : .closed ∉ readings
  empty : worker.buffer = []
  replied : Replied origin worker

/-- How a run ends. -/
inductive Ending (state : σ) (worker : BlockingWorker) : Except WorkerError Termination → Prop
  /-- The worker stops between two requests, and says so if the stream ended there. -/
  | stopped {payloads : List Bytes} {readings : List Reading} {termination : Termination} :
      Ledger origin processor initial payloads readings state worker → Replied origin worker →
      arrivals readings = wires payloads → worker.buffer = [] →
      (.closed ∈ readings ↔ termination = .peerClosed) →
      Ending state worker (.ok termination)
  /-- The bytes of a request that did not arrive stay behind. -/
  | lost {payloads : List Bytes} {readings : List Reading} {error : FrameError} :
      Ledger origin processor initial payloads readings state worker → Replied origin worker →
      arrivals readings = wires payloads ++ worker.buffer →
      (.closed ∈ readings → worker.buffer ≠ [] ∧
        error = .truncated (expectedLength worker.buffer) worker.buffer.length) →
      Ending state worker (.error (.receive error))
  /-- A request held no task. -/
  | unread {payloads : List Bytes} {readings : List Reading} {payload : Bytes} {error : CodecError} :
      Pending origin processor initial payloads readings payload state worker →
      Ending state worker (.error (.decode error))
  /-- The last reply did not get out in full. -/
  | unsent {payloads : List Bytes} {readings : List Reading} {error : FrameError}
      {earlier : List (InputTask × OutputTask)} {task : InputTask} {reply : OutputTask}
      {middle : Sink} :
      Ledger origin processor initial payloads readings state worker →
      arrivals readings = wires payloads → .closed ∉ readings → worker.buffer = [] →
      worker.exchanges = earlier ++ [(task, reply)] →
      origin.sink.Delivers (replyFrames origin.config.codec earlier) middle →
      Sending (effectiveLimit origin.config.limit) middle (origin.config.codec.encode reply)
        (.error error) worker.sink →
      Ending state worker (.error (.send error))

variable {origin processor initial} {payloads : List Bytes} {readings : List Reading}
  {payload : Bytes} {state : σ} {worker : BlockingWorker}

section Alike

variable {after : BlockingWorker} {result : Except WorkerError Termination}

theorem Ledger.alike (ledger : Ledger origin processor initial payloads readings state worker)
    (alike : Alike worker after) :
    Ledger origin processor initial payloads readings state after := by
  refine ⟨?_, ledger.fits, ?_, ?_, ?_, ?_, ?_⟩
  · rw [alike.source]
    exact ledger.reads
  · rw [alike.exchanges, ledger.decoded]
  · rw [alike.exchanges]
    exact ledger.answered
  · rw [alike.config, ledger.config]
  · rw [alike.channel, ledger.readerLimit]
  · rw [alike.channel, ledger.writerLimit]

theorem Replied.alike (replied : Replied origin worker) (alike : Alike worker after) :
    Replied origin after := by
  rw [Replied, alike.exchanges, alike.sink]
  exact replied

theorem Settled.alike (settled : Settled origin processor initial payloads readings state worker)
    (alike : Alike worker after) :
    Settled origin processor initial payloads readings state after :=
  ⟨settled.toLedger.alike alike, settled.whole, settled.unclosed,
    alike.buffer.trans settled.empty, settled.replied.alike alike⟩

theorem Pending.alike
    (pending : Pending origin processor initial payloads readings payload state worker)
    (alike : Alike worker after) :
    Pending origin processor initial payloads readings payload state after :=
  ⟨pending.toLedger.alike alike, pending.whole, pending.within, pending.unclosed,
    alike.buffer.trans pending.empty, pending.replied.alike alike⟩

theorem Ending.alike (ending : Ending origin processor initial state worker result)
    (alike : Alike worker after) : Ending origin processor initial state after result := by
  cases ending with
  | stopped ledger replied whole empty closing =>
    exact .stopped (ledger.alike alike) (replied.alike alike) whole (alike.buffer.trans empty) closing
  | lost ledger replied whole cut =>
    apply Ending.lost (ledger.alike alike) (replied.alike alike)
    · rwa [alike.buffer]
    · rwa [alike.buffer]
  | unread pending => exact .unread (pending.alike alike)
  | unsent ledger whole unclosed empty exchanges delivered sending =>
    apply Ending.unsent (ledger.alike alike) whole unclosed (alike.buffer.trans empty)
      (alike.exchanges.trans exchanges) delivered
    rwa [alike.sink]

end Alike

/-- Waiting for a request leaves what was settled before. -/
theorem Settled.awaitRequest
    (settled : Settled origin processor initial payloads readings state worker) :
    ∃ more, Ledger origin processor initial payloads (readings ++ more) state worker.awaitRequest.2 ∧
      Replied origin worker.awaitRequest.2 ∧
      arrivals (readings ++ more) = wires payloads ++ arrivals more ∧
      (.closed ∈ readings ++ more ↔ .closed ∈ more) ∧
      Brought (effectiveLimit origin.config.limit) [] more worker.awaitRequest.2.buffer
        worker.awaitRequest.1 := by
  have within : Frame.Reader.WithinFrame worker.buffer := by
    rw [settled.empty]
    exact Frame.Reader.withinFrame_nil
  obtain ⟨more, reads, awaits⟩ := awaits_awaitRequest within
  have kept := kept_awaitRequest worker
  have exchanges := Worker.exchanges_of_journal worker.awaitRequest.2 kept.journal
  rw [settled.readerLimit, settled.empty] at awaits
  refine ⟨more, ⟨settled.reads.append reads, settled.fits, ?_, ?_, ?_, ?_, ?_⟩, ?_, ?_, ?_, awaits.brought⟩
  · rw [exchanges, settled.decoded]
  · rw [exchanges]
    exact settled.answered
  · rw [kept.config, settled.config]
  · rw [kept.limit, settled.readerLimit]
  · rw [kept.writer, settled.writerLimit]
  · have sink : worker.awaitRequest.2.sink = worker.sink := congrArg (·.sink) kept.writer
    rw [Replied, exchanges, sink]
    exact settled.replied
  · rw [arrivals_append, settled.whole]
  · rw [List.mem_append]
    exact or_iff_right settled.unclosed

theorem Settled.pending {after : BlockingWorker}
    (settled : Settled origin processor initial payloads readings state worker)
    (awaited : worker.awaitRequest = (.payload payload, after)) :
    ∃ readings, Pending origin processor initial payloads readings payload state after := by
  obtain ⟨more, ledger, replied, total, closing, brought⟩ := settled.awaitRequest
  rw [awaited] at ledger replied brought
  obtain ⟨whole, within, empty, unclosed⟩ := brought
  refine ⟨readings ++ more, ledger, ?_, within, mt closing.mp unclosed, empty, replied⟩
  rw [total, ← whole, List.nil_append]

theorem Settled.stopped {after : BlockingWorker} {termination : Termination}
    (settled : Settled origin processor initial payloads readings state worker)
    (awaited : worker.awaitRequest = (.stop termination, after)) :
    ∃ readings, Ledger origin processor initial payloads readings state after ∧
      Replied origin after ∧ arrivals readings = wires payloads ∧ after.buffer = [] ∧
      (.closed ∈ readings ↔ termination = .peerClosed) := by
  obtain ⟨more, ledger, replied, total, closing, brought⟩ := settled.awaitRequest
  rw [awaited] at ledger replied brought
  obtain ⟨nothing, empty, closed⟩ := brought
  refine ⟨readings ++ more, ledger, replied, ?_, empty, closing.trans closed⟩
  rw [total, show arrivals more = [] from nothing, List.append_nil]

theorem Settled.lost {after : BlockingWorker} {error : FrameError}
    (settled : Settled origin processor initial payloads readings state worker)
    (awaited : worker.awaitRequest = (.failed error, after)) :
    Ending origin processor initial state after (.error (.receive error)) := by
  obtain ⟨more, ledger, replied, total, closing, brought⟩ := settled.awaitRequest
  rw [awaited] at ledger replied brought
  obtain ⟨kept, cut⟩ := brought
  apply Ending.lost ledger replied
  · rw [total, show arrivals more = after.buffer from kept]
  · intro member
    exact cut (closing.mp member)

/-- Serving a request that holds a task adds it to the ledger. -/
theorem Ledger.serve {after : BlockingWorker} {task : InputTask} {result : Except WorkerError Unit}
    {state' : σ} (ledger : Ledger origin processor initial payloads readings state worker)
    (within : payload.length ≤ effectiveLimit origin.config.limit)
    (read : origin.config.codec.decode payload = .ok task)
    (served : Served worker processor state task result state' after) :
    Ledger origin processor initial (payloads ++ [payload]) readings state' after := by
  obtain ⟨reply, exchanges, answers, -⟩ := served.exchange
  refine ⟨?_, ?_, ?_, ?_, ?_, ?_, ?_⟩
  · rw [served.source]
    exact ledger.reads
  · intro other member
    rcases List.mem_append.mp member with member | member
    · exact ledger.fits other member
    · rw [List.mem_singleton.mp member]
      exact within
  · rw [exchanges, List.map_append, List.map_append, ledger.decoded, List.map_singleton,
      List.map_singleton, read]
  · rw [exchanges]
    exact ledger.answered.append answers
  · rw [served.config, ledger.config]
  · rw [served.readerLimit, ledger.readerLimit]
  · rw [served.writerLimit, ledger.writerLimit]

/-- The end of a cycle: the worker is settled again if the reply got out. -/
theorem Pending.serve
    (pending : Pending origin processor initial payloads readings payload state worker) :
    match worker.serve processor state payload with
    | (.ok (), state', after) =>
      Settled origin processor initial (payloads ++ [payload]) readings state' after
    | (.error error, state', after) => Ending origin processor initial state' after (.error error) := by
  have codec : worker.config.codec = origin.config.codec := by rw [pending.config]
  cases read : (worker.config.codec.decode payload : Except CodecError InputTask) with
  | error error =>
    rw [serve_of_error read]
    exact .unread pending
  | ok task =>
    have served := @served_serve _ _ processor state _ _ read
    rcases done : worker.serve processor state payload with ⟨outcome, state', after⟩
    rw [done] at served
    rw [codec] at read
    have ledger := pending.toLedger.serve pending.within read served
    have whole : arrivals readings = wires (payloads ++ [payload]) := by
      simpa using pending.whole
    have empty : after.buffer = [] := served.buffer.trans pending.empty
    obtain ⟨reply, exchanges, -, sent, result, sending⟩ := served.exchange
    rw [pending.writerLimit, codec] at sending
    cases sent with
    | error error =>
      subst result
      exact .unsent ledger whole pending.unclosed empty exchanges pending.replied sending
    | ok =>
      subst result
      refine ⟨ledger, whole, pending.unclosed, empty, ?_⟩
      cases sending with
      | delivered _ delivers =>
        rw [Replied, exchanges, replyFrames_append]
        exact pending.replied.append delivers

/-- A run that starts settled ends in one of the ways listed. -/
theorem Settled.run (settled : Settled origin processor initial payloads readings state worker) :
    Ending origin processor initial (worker.run processor state).2.1
      (worker.run processor state).2.2 (worker.run processor state).1 := by
  fun_induction BlockingWorker.run worker processor state generalizing payloads readings with
  | case1 worker state stops =>
    have calm := settled.alike (alike_enter worker .shuttingDown)
    exact .stopped calm.toLedger calm.replied calm.whole calm.empty
      (iff_of_false calm.unclosed (by simp))
  | case2 worker state clear worker' awaited =>
    obtain ⟨readings, ledger, replied, whole, empty, closing⟩ :=
      (settled.alike (alike_enter worker .awaitingRequest)).stopped awaited
    exact Ending.alike (.stopped ledger replied whole empty closing) (alike_enter worker' .shuttingDown)
  | case3 worker state clear worker' awaited =>
    obtain ⟨readings, ledger, replied, whole, empty, closing⟩ :=
      (settled.alike (alike_enter worker .awaitingRequest)).stopped awaited
    exact .stopped ledger replied whole empty closing
  | case4 worker state clear error worker' awaited =>
    exact (settled.alike (alike_enter worker .awaitingRequest)).lost awaited
  | case5 worker state clear payload worker' awaited error state' worker'' served =>
    obtain ⟨readings, pending⟩ := (settled.alike (alike_enter worker .awaitingRequest)).pending awaited
    have ending := pending.serve
    rwa [served] at ending
  | case6 worker state clear payload worker' awaited state' worker'' served ih =>
    obtain ⟨readings, pending⟩ := (settled.alike (alike_enter worker .awaitingRequest)).pending awaited
    have next := pending.serve
    rw [served] at next
    exact ih (Settled.alike next (alike_enter worker'' .idle))

end Run

end BlockingWorker

end FramedTasks
