import FramedTasks.Proofs.Frame.Receiving
import FramedTasks.Worker.Blocking

/-! # Waiting for a request

A worker that waits for a request receives until there is a frame, or a reason to stop. What
happens elsewhere meanwhile touches the flag and the listener and nothing else. `Awaits` puts the
receives together, and `Awaits.brought` adds up what they brought: no byte of a request is given
up unless the wait fails.
-/

namespace FramedTasks.BlockingWorker

open FramedTasks.Frame (wire expectedLength effectiveLimit)
open FramedTasks.Frame.Reader (Receiving WithinFrame)

abbrev source (worker : BlockingWorker) : Source Moment := worker.link.channel.reader.source

/-- The bytes of a request that has not arrived completely. -/
abbrev buffer (worker : BlockingWorker) : Bytes := worker.link.channel.reader.buffer

abbrev sink (worker : BlockingWorker) : Sink := worker.link.channel.writer.sink

section Elsewhere

variable (worker : BlockingWorker)

@[simp] theorem config_witness (moment : Moment) : (worker.witness moment).config = worker.config := by
  cases moment with
  | trigger => rfl
  | control poll =>
    simp only [witness]
    split <;> rfl

@[simp] theorem journal_witness (moment : Moment) :
    (worker.witness moment).journal = worker.journal := by
  cases moment with
  | trigger => rfl
  | control poll =>
    simp only [witness]
    split <;> rfl

/-- What holds of a worker whatever happens elsewhere, and with any channel, holds when it has
received. -/
theorem receive_preserves {kept : BlockingWorker → Prop}
    (witnesses : ∀ worker moment, kept worker → kept (witness worker moment))
    (channels : ∀ worker channel, kept worker → kept (withChannel worker channel))
    (start : kept worker) : kept worker.receive.2 := by
  have passes (moments : List Moment) {worker : BlockingWorker} (start : kept worker) :
      kept (moments.foldl witness worker) := by
    induction moments generalizing worker with
    | nil => exact start
    | cons moment rest ih => exact ih (witnesses worker moment start)
  exact passes _ (channels _ _ start)

@[simp] theorem config_receive : worker.receive.2.config = worker.config := by
  apply @receive_preserves worker fun after => after.config = worker.config
  · exact fun middle moment same => (config_witness middle moment).trans same
  · exact fun _ _ same => same
  · rfl

@[simp] theorem journal_receive : worker.receive.2.journal = worker.journal := by
  apply @receive_preserves worker fun after => after.journal = worker.journal
  · exact fun middle moment same => (journal_witness middle moment).trans same
  · exact fun _ _ same => same
  · rfl

theorem stage_witness (moment : Moment) : (worker.witness moment).stage = worker.stage := by
  cases moment with
  | trigger => rfl
  | control poll =>
    simp only [witness]
    split <;> rfl

theorem stage_receive : worker.receive.2.stage = worker.stage := by
  apply @receive_preserves worker fun after => after.stage = worker.stage
  · exact fun middle moment same => (stage_witness middle moment).trans same
  · exact fun _ _ same => same
  · rfl

@[simp] theorem writer_receive :
    worker.receive.2.link.channel.writer = worker.link.channel.writer := by
  simp only [receive, channel_foldl_witness]
  rfl

@[simp] theorem limit_receive :
    worker.receive.2.link.channel.reader.limit = worker.link.channel.reader.limit := by
  simp only [receive, channel_foldl_witness]
  rfl

end Elsewhere

/-- A worker receives as its reader does. -/
theorem receiving_receive {worker : BlockingWorker} (within : WithinFrame worker.buffer) :
    ∃ readings, worker.source.Reads readings worker.receive.2.source ∧
      Receiving (effectiveLimit worker.link.channel.reader.limit) worker.buffer readings
        worker.receive.1 worker.receive.2.buffer ∧
      WithinFrame worker.receive.2.buffer := by
  obtain ⟨readings, reads, call, held⟩ := Frame.Reader.receiving_receive within
  have forgotten : worker.link.channel.reader.receive.2.source.Reads [] worker.receive.2.source := by
    apply Source.Reads.done
    simp only [source, receive, channel_foldl_witness]
    exact ⟨rfl, rfl⟩
  have buffer : worker.receive.2.buffer = worker.link.channel.reader.receive.2.buffer := by
    simp only [BlockingWorker.buffer, receive, channel_foldl_witness]
    rfl
  refine ⟨readings, ?_, ?_, ?_⟩
  · simpa using reads.append forgotten
  · rw [buffer]
    exact call
  · rw [buffer]
    exact held

/-- What waiting for a request may come to, given the bytes held before and after it. -/
inductive Awaits (limit : Nat) : Bytes → List Reading → Request → Bytes → Prop
  | received {buffer after payload : Bytes} {readings : List Reading} :
      Receiving limit buffer readings (.ok payload) after →
      Awaits limit buffer readings (.payload payload) after
  /-- Only a worker that holds no byte of a request stops. -/
  | stopped {buffer : Bytes} {readings : List Reading} :
      Receiving limit buffer readings (.error .timeout) [] →
      Awaits limit buffer readings (.stop .shutdown) []
  | ended {buffer after : Bytes} {readings : List Reading} :
      Receiving limit buffer readings (.error .endOfStream) after →
      Awaits limit buffer readings (.stop .peerClosed) after
  | failed {buffer after : Bytes} {readings : List Reading} {error : FrameError} :
      Receiving limit buffer readings (.error error) after → error ≠ .timeout → error ≠ .endOfStream →
      Awaits limit buffer readings (.failed error) after
  | resumed {buffer middle after : Bytes} {first second : List Reading} {request : Request} :
      Receiving limit buffer first (.error .timeout) middle → Awaits limit middle second request after →
      Awaits limit buffer (first ++ second) request after

theorem awaits_awaitRequest {worker : BlockingWorker} (within : WithinFrame worker.buffer) :
    ∃ readings, worker.source.Reads readings worker.awaitRequest.2.source ∧
      Awaits (effectiveLimit worker.link.channel.reader.limit) worker.buffer readings
        worker.awaitRequest.1 worker.awaitRequest.2.buffer := by
  fun_induction awaitRequest worker with
  | case1 worker payload worker' outcome =>
    obtain ⟨readings, reads, call, -⟩ := receiving_receive within
    rw [outcome] at reads call
    exact ⟨readings, reads, .received call⟩
  | case2 worker worker' outcome stops =>
    obtain ⟨readings, reads, call, -⟩ := receiving_receive within
    rw [outcome] at reads call
    have empty : worker'.buffer = [] := by
      rw [Bool.and_eq_true, List.isEmpty_iff] at stops
      exact stops.1
    simp only [empty] at call ⊢
    exact ⟨readings, reads, .stopped call⟩
  | case3 worker worker' outcome _ ih =>
    obtain ⟨first, reads, call, held⟩ := receiving_receive within
    have limit := worker.limit_receive
    rw [outcome] at reads call held limit
    obtain ⟨second, more, awaits⟩ := ih held
    rw [limit] at awaits
    exact ⟨first ++ second, reads.append more, .resumed call awaits⟩
  | case4 worker worker' outcome =>
    obtain ⟨readings, reads, call, -⟩ := receiving_receive within
    rw [outcome] at reads call
    exact ⟨readings, reads, .ended call⟩
  | case5 worker error worker' notTimeout notEnd outcome =>
    obtain ⟨readings, reads, call, -⟩ := receiving_receive within
    rw [outcome] at reads call
    exact ⟨readings, reads, .failed call notTimeout notEnd⟩

/-- A timeout keeps what has arrived, and is not the end of the stream. -/
private theorem arrived_of_timeout {limit : Nat} {buffer after : Bytes} {readings : List Reading}
    (call : Receiving limit buffer readings (.error .timeout) after) :
    buffer ++ arrivals readings = after ∧ .closed ∉ readings := by
  cases call with
  | timedOut going =>
    constructor
    · simp [Reading.arrived]
    · simp [closed_not_mem_of_goesOn going]

/-- What a wait has brought: a whole request, nothing if the worker stops, and otherwise the bytes
that stay behind. The end of the stream makes a stop if no request has begun, and a truncated
request if one has. -/
def Brought (limit : Nat) (buffer : Bytes) (readings : List Reading) (after : Bytes) :
    Request → Prop
  | .payload payload => buffer ++ arrivals readings = wire payload ∧ payload.length ≤ limit ∧
      after = [] ∧ .closed ∉ readings
  | .stop termination => buffer ++ arrivals readings = [] ∧ after = [] ∧
      (.closed ∈ readings ↔ termination = .peerClosed)
  | .failed error => buffer ++ arrivals readings = after ∧ (.closed ∈ readings →
      after ≠ [] ∧ error = .truncated (expectedLength after) after.length)

theorem Awaits.brought {limit : Nat} {buffer after : Bytes} {readings : List Reading}
    {request : Request} (awaits : Awaits limit buffer readings request after) :
    Brought limit buffer readings after request := by
  induction awaits with
  | @received buffer after payload readings call =>
    cases call with
    | received going fits whole =>
      exact ⟨whole, fits, rfl, closed_not_mem_of_goesOn going⟩
  | @stopped buffer readings call =>
    obtain ⟨whole, running⟩ := arrived_of_timeout call
    exact ⟨whole, rfl, by simp [running]⟩
  | @ended buffer after readings call =>
    cases call with
    | ended going empty => exact ⟨by simpa [Reading.arrived] using empty, rfl, by simp⟩
  | @failed buffer after readings error call notTimeout notEnd =>
    cases call with
    | refused going known excess =>
      constructor
      · rfl
      · intro member
        exact absurd member (closed_not_mem_of_goesOn going)
    | timedOut => contradiction
    | failed going _ _ =>
      constructor
      · simp [Reading.arrived]
      · intro member
        simp [closed_not_mem_of_goesOn going] at member
    | ended => contradiction
    | cut going whole nonempty =>
      exact ⟨by simpa [Reading.arrived] using whole, fun _ => ⟨nonempty, by rw [Frame.expectedLength_eq]⟩⟩
  | @resumed buffer middle after first second request call _ ih =>
    obtain ⟨whole, running⟩ := arrived_of_timeout call
    have joined : buffer ++ arrivals (first ++ second) = middle ++ arrivals second := by
      rw [arrivals_append, ← List.append_assoc, whole]
    have later : .closed ∈ first ++ second ↔ .closed ∈ second := by simp [running]
    cases request with
    | payload payload => simpa only [Brought, joined, later] using ih
    | stop termination => simpa only [Brought, joined, later] using ih
    | failed error => simpa only [Brought, joined, later] using ih

/-- The parts of a worker that waiting for a request does not touch. -/
structure Kept (before after : BlockingWorker) : Prop where
  config : after.config = before.config
  journal : after.journal = before.journal
  writer : after.link.channel.writer = before.link.channel.writer
  limit : after.link.channel.reader.limit = before.link.channel.reader.limit

theorem Kept.trans {first middle last : BlockingWorker} (earlier : Kept first middle)
    (later : Kept middle last) : Kept first last :=
  ⟨later.config.trans earlier.config, later.journal.trans earlier.journal,
    later.writer.trans earlier.writer, later.limit.trans earlier.limit⟩

theorem kept_receive {worker after : BlockingWorker} {result : Except FrameError Bytes}
    (outcome : worker.receive = (result, after)) : Kept worker after := by
  obtain rfl : worker.receive.2 = after := congrArg Prod.snd outcome
  exact ⟨config_receive worker, journal_receive worker, writer_receive worker, limit_receive worker⟩

theorem kept_awaitRequest (worker : BlockingWorker) : Kept worker worker.awaitRequest.2 := by
  fun_induction awaitRequest worker with
  | case1 worker payload worker' outcome => exact kept_receive outcome
  | case2 worker worker' outcome => exact kept_receive outcome
  | case3 worker worker' outcome _ ih =>
    exact (kept_receive outcome).trans ih
  | case4 worker worker' outcome => exact kept_receive outcome
  | case5 worker error worker' _ _ outcome => exact kept_receive outcome

end FramedTasks.BlockingWorker
