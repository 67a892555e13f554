import FramedTasks.Proofs.Worker.Cycle

/-! # A worker from its first request to its end

The streams, the listener, the processor and the moments at which someone sets the flag are
arbitrary. A flag that is set while a task is processed or while its reply is sent is found set
before the next request, which is what a processor that sets the flag does (`Call.triggers`).
-/

namespace FramedTasks.BlockingWorker

open FramedTasks.Frame (wire wires expectedLength effectiveLimit split)
open FramedTasks.Frame.Writer (Sending)

section Origin

variable (source : Source Moment) (sink : Sink) (config : WorkerConfig)
  (listener : Option Listener) (flag : Flag)

/-- A new worker is settled: nothing has been read or written. -/
theorem settled_between {σ : Type} (processor : Processor σ) (state : σ) :
    Settled ((between source sink config).withListener listener flag) processor state [] [] state
      ((between source sink config).withListener listener flag) := by
  refine ⟨⟨.refl _, ?_, rfl, .none state, rfl, rfl, rfl⟩, rfl, ?_, rfl, .nil _⟩
  · intro payload member
    contradiction
  · intro member
    contradiction

end Origin

/-- The result of a worker whose listener may have broken down. -/
def WithListener (ended result : Except WorkerError Termination) : Prop :=
  result = ended ∨ ∃ termination text, ended = .ok termination ∧ result = .error (.listenerPanicked text)

theorem withListener_concluded (ended : Except WorkerError Termination) (panic? : Option String) :
    WithListener ended (Worker.concluded ended panic?) := by
  simp only [Worker.concluded]
  split
  · exact .inr ⟨_, _, rfl, rfl⟩
  · exact .inl rfl

/-- Waiting for the listener touches nothing but what is known of the listener. -/
theorem join_eq (worker : BlockingWorker) :
    ∃ listener joined, worker.join = { worker with link := { worker.link with listener, joined } } := by
  simp only [join]
  split <;> exact ⟨_, _, rfl⟩

theorem alike_conclude (ended : Except WorkerError Termination) (worker : BlockingWorker) :
    Alike worker (conclude ended worker).2 := by
  obtain ⟨listener, joined, same⟩ := join_eq worker.trigger.2
  simp only [conclude, same]
  exact ⟨rfl, rfl, Worker.exchanges_enter ..⟩

/-- A worker that listens ends as its run does, unless its listener broke down. -/
theorem ending_doWork {σ : Type} {origin worker : BlockingWorker} {processor : Processor σ}
    {initial state : σ} {payloads : List Bytes} {readings : List Reading}
    (settled : Settled origin processor initial payloads readings state worker)
    (lives : worker.stage ≠ .terminated) (listens : worker.link.listener.isNone = false) :
    ∃ ended, Ending origin processor initial (worker.doWork processor state).2.1
        (worker.doWork processor state).2.2 ended ∧
      WithListener ended (worker.doWork processor state).1 := by
  refine ⟨(worker.run processor state).1, ?_, ?_⟩
  all_goals simp only [doWork, if_neg lives, listens, Bool.false_eq_true, if_false]
  · exact settled.run.alike (alike_conclude ..)
  · exact withListener_concluded ..

/-- What a stream has taken of the frames of the replies, by the way in which the worker ended: all
of them unless sending failed, and then the last one not at all if it was too large, or in part. -/
def Written (result : Except WorkerError Termination) (before : Bytes) (frames : List Bytes)
    (after : Bytes) : Prop :=
  match result with
  | .error (.send (.payloadTooLarge ..)) => frames ≠ [] ∧ after = before ++ frames.dropLast.flatten
  | .error (.send (.io _)) => ∃ front last part, frames = front ++ [last] ∧ part <+: last ∧
      after = before ++ front.flatten ++ part
  | .error (.send _) => False
  | _ => after = before ++ frames.flatten

/-- The tasks are those of the first frames that arrived. -/
theorem Ledger.frames {σ : Type} {origin worker : BlockingWorker} {processor : Processor σ}
    {initial state : σ} {payloads : List Bytes} {readings : List Reading} {rest : Bytes}
    (ledger : Ledger origin processor initial payloads readings state worker)
    (whole : arrivals readings = wires payloads ++ rest) :
    ((split (effectiveLimit origin.config.limit) (arrivals readings)).1.take
        worker.exchanges.length).map origin.config.codec.decode =
      worker.exchanges.map fun exchange => (.ok exchange.1 : Except CodecError InputTask) := by
  have length : worker.exchanges.length = payloads.length := by
    simpa using (congrArg List.length ledger.decoded).symm
  have small : effectiveLimit origin.config.limit ≤ Frame.wireLimit := Nat.min_le_right ..
  rw [whole, Frame.split_wires_append small ledger.fits, length, List.take_left, ledger.decoded]

/-- However a run ends, the tasks and the bytes of the replies are those of the ledger. -/
theorem Ending.written {σ : Type} {origin last : BlockingWorker} {processor : Processor σ}
    {initial state : σ} {ended : Except WorkerError Termination}
    (ending : Ending origin processor initial state last ended) :
    ∃ readings, origin.source.Reads readings last.source ∧
      processor.Answers initial last.exchanges state ∧
      ((split (effectiveLimit origin.config.limit) (arrivals readings)).1.take
          last.exchanges.length).map origin.config.codec.decode =
        last.exchanges.map (fun exchange => (.ok exchange.1 : Except CodecError InputTask)) ∧
      Written ended origin.sink.taken (replyFrames origin.config.codec last.exchanges)
        last.sink.taken := by
  cases ending with
  | @stopped payloads readings _ ledger replied whole _ _ =>
    have total : arrivals readings = wires payloads ++ [] := by rw [whole, List.append_nil]
    exact ⟨readings, ledger.reads, ledger.answered, ledger.frames total, replied.taken⟩
  | @lost payloads readings _ ledger replied whole _ =>
    exact ⟨readings, ledger.reads, ledger.answered, ledger.frames whole, replied.taken⟩
  | @unread payloads readings _ _ pending =>
    exact ⟨readings, pending.reads, pending.answered, pending.frames pending.whole,
      pending.replied.taken⟩
  | @unsent payloads readings error earlier task reply middle ledger whole _ _ exchanges delivered sending =>
    have total : arrivals readings = wires payloads ++ [] := by rw [whole, List.append_nil]
    have out := delivered.taken
    have frames : replyFrames origin.config.codec last.exchanges =
        replyFrames origin.config.codec earlier ++ [wire (origin.config.codec.encode reply)] := by
      rw [exchanges, replyFrames_append]
      rfl
    refine ⟨readings, ledger.reads, ledger.answered, ledger.frames total, ?_⟩
    rw [frames]
    generalize sent : last.sink = final at sending
    cases sending with
    | refused excess =>
      constructor
      · simp
      · rw [List.dropLast_concat, out]
    | @broken _ fault part fits inside taken =>
      refine ⟨_, _, part, rfl, inside, ?_⟩
      rw [taken, out]

/-- Each task processed is the one in the frame of the same position among the bytes that arrived,
and the bytes written are the frames of the replies in the order of the tasks, a reply for each;
where sending failed, the last one is missing or cut short. -/
theorem replies_of_doWork {σ : Type} (source : Source Moment) (sink : Sink) (config : WorkerConfig)
    (listener : Option Listener) (flag : Flag) (processor : Processor σ) (state : σ) :
    let start := (between source sink config).withListener listener flag
    let (result, state', last) := start.doWork processor state
    ∃ readings, source.Reads readings last.source ∧
      processor.Answers state last.exchanges state' ∧
      ((split (effectiveLimit config.limit) (arrivals readings)).1.take
          last.exchanges.length).map config.codec.decode =
        last.exchanges.map (fun exchange => (.ok exchange.1 : Except CodecError InputTask)) ∧
      Written result sink.taken (replyFrames config.codec last.exchanges) last.sink.taken := by
  intro start
  have settled := settled_between source sink config listener flag processor state
  cases listener with
  | none =>
    refine ⟨[], .refl _, .none state, rfl, ?_⟩
    exact (List.append_nil _).symm
  | some listener =>
    obtain ⟨ended, ending, reported⟩ := ending_doWork settled Stage.noConfusion rfl
    rcases done : start.doWork processor state with ⟨result, state', last⟩
    rw [done] at ending reported
    obtain ⟨readings, reads, answered, decoded, written⟩ := ending.written
    refine ⟨readings, reads, answered, decoded, ?_⟩
    rcases reported with rfl | ⟨termination, text, rfl, rfl⟩
    · exact written
    · exact written

section Boundary

variable {σ : Type} (origin last : BlockingWorker) (processor : Processor σ) (state state' : σ)
  (readings : List Reading)

/-- What a worker has read are the requests that it has answered, each reply written in full and
flushed. -/
structure AllAnswered : Prop where
  empty : last.buffer = []
  requests : ∃ payloads, arrivals readings = wires payloads ∧
    payloads.map origin.config.codec.decode =
      last.exchanges.map fun exchange => (.ok exchange.1 : Except CodecError InputTask)
  answers : processor.Answers state last.exchanges state'
  replies : origin.sink.Delivers (replyFrames origin.config.codec last.exchanges) last.sink

/-- A worker that ends in order has answered all that it has read, and reports the close of its
peer exactly if the stream has ended. A stream that ends inside a request makes it truncated. -/
structure EndsBetween (result : Except WorkerError Termination) : Prop where
  ordered (termination : Termination) : result = .ok termination →
    AllAnswered origin last processor state state' readings ∧
      (.closed ∈ readings ↔ termination = .peerClosed)
  cut : .closed ∈ readings → last.buffer ≠ [] →
    result = .error (.receive (.truncated (expectedLength last.buffer) last.buffer.length))

variable {origin last processor state state' readings}

/-- A worker that fails has not ended in order. -/
theorem endsBetween_error {error : WorkerError}
    (cut : .closed ∈ readings → last.buffer ≠ [] →
      error = .receive (.truncated (expectedLength last.buffer) last.buffer.length)) :
    EndsBetween origin last processor state state' readings (.error error) := by
  constructor
  · intro termination ordered
    contradiction
  · intro closed begun
    rw [cut closed begun]

theorem Ending.endsBetween {ended : Except WorkerError Termination}
    (ending : Ending origin processor state state' last ended) :
    ∃ readings, origin.source.Reads readings last.source ∧
      EndsBetween origin last processor state state' readings ended := by
  cases ending with
  | @stopped payloads readings _ ledger replied whole empty closing =>
    refine ⟨readings, ledger.reads, ?_, ?_⟩
    · rintro _ ⟨⟩
      exact ⟨⟨empty, ⟨payloads, whole, ledger.decoded⟩, ledger.answered, replied⟩, closing⟩
    · intro _ begun
      contradiction
  | @lost payloads readings _ ledger replied whole cut =>
    refine ⟨readings, ledger.reads, endsBetween_error ?_⟩
    intro closed _
    rw [(cut closed).2]
  | @unread payloads readings _ _ pending =>
    refine ⟨readings, pending.reads, endsBetween_error ?_⟩
    intro closed
    exact absurd closed pending.unclosed
  | @unsent payloads readings error earlier task reply middle ledger whole unclosed =>
    refine ⟨readings, ledger.reads, endsBetween_error ?_⟩
    intro closed
    contradiction

end Boundary

/-- A worker stops between two requests only: never with a part of a request read, and never before
the reply to a request is out. -/
theorem doWork_ends_between {σ : Type} (source : Source Moment) (sink : Sink)
    (config : WorkerConfig) (listener : Option Listener) (flag : Flag) (processor : Processor σ)
    (state : σ) :
    let start := (between source sink config).withListener listener flag
    let (result, state', last) := start.doWork processor state
    ∃ readings, source.Reads readings last.source ∧
      EndsBetween start last processor state state' readings result := by
  intro start
  have settled := settled_between source sink config listener flag processor state
  cases listener with
  | none =>
    have idle : start.doWork processor state = (.error .notInitialized, state, start) := rfl
    rw [idle]
    refine ⟨[], .refl _, endsBetween_error ?_⟩
    intro closed
    contradiction
  | some listener =>
    obtain ⟨ended, ending, reported⟩ := ending_doWork settled Stage.noConfusion rfl
    rcases done : start.doWork processor state with ⟨result, state', last⟩
    rw [done] at ending reported
    obtain ⟨readings, reads, boundary⟩ := ending.endsBetween
    refine ⟨readings, reads, ?_⟩
    rcases reported with rfl | ⟨termination, text, rfl, rfl⟩
    · exact boundary
    · apply endsBetween_error
      intro _ begun
      exact absurd (boundary.ordered termination rfl).1.empty begun

end FramedTasks.BlockingWorker
