import Mathlib
import FramedTasks.Proofs.Worker.Timed

/-! # Stopping with bytes read ahead

A worker that waits in time takes its stream in the pieces in which it arrives, so that a piece can
bring the end of one request together with bytes of the next ones. `Ledger` is what holds between
two requests: all the bytes taken are those of the requests that were answered, and those in the
buffer. A worker that stops has sent every reply completely; if it still holds bytes, they came
together with a request that it has answered, and it has not waited since (`stops_after_replies`).
They may be those of a request that has begun, which is then given up (`stops_inside_request`).
-/

namespace FramedTasks

open FramedTasks.Frame (wire wires take effectiveLimit)
open FramedTasks.BlockingWorker (replyFrames replyFrames_append)

namespace Timeline

def bytes (events : List (Nat × TimedEvent)) : Bytes :=
  events.flatMap fun
    | (_, .data bytes) => bytes
    | _ => []

@[simp] theorem bytes_nil : bytes [] = [] := rfl

@[simp] theorem bytes_data_cons (time : Nat) (piece : Bytes) (events : List (Nat × TimedEvent)) :
    bytes ((time, .data piece) :: events) = piece ++ bytes events := rfl

@[simp] theorem bytes_append (first second : List (Nat × TimedEvent)) :
    bytes (first ++ second) = bytes first ++ bytes second := by
  simp [bytes]

/-- With the bytes held before them, the events bring so many bytes, but not without the last one. -/
def Completes (held : Bytes) (events : List (Nat × TimedEvent)) (count : Nat) : Prop :=
  ∃ earlier time piece, events = earlier ++ [(time, .data piece)] ∧
    (held ++ bytes earlier).length < count

theorem Completes.append_left {held : Bytes} {first second : List (Nat × TimedEvent)} {count : Nat}
    (completes : Completes (held ++ bytes first) second count) :
    Completes held (first ++ second) count := by
  obtain ⟨earlier, time, piece, rfl, short⟩ := completes
  refine ⟨first ++ earlier, time, piece, (List.append_assoc ..).symm, ?_⟩
  rw [bytes_append, ← List.append_assoc]
  exact short

theorem Completes.behind {held : Bytes} {events : List (Nat × TimedEvent)} {count : Nat}
    (completes : Completes held events count) (front : Bytes) :
    Completes (front ++ held) events (front.length + count) := by
  obtain ⟨earlier, time, piece, last, short⟩ := completes
  refine ⟨earlier, time, piece, last, ?_⟩
  rw [List.append_assoc, List.length_append]
  omega

theorem Completes.mono {held : Bytes} {events : List (Nat × TimedEvent)} {count more : Nat}
    (completes : Completes held events count) (least : count ≤ more) :
    Completes held events more := by
  obtain ⟨earlier, time, piece, last, short⟩ := completes
  exact ⟨earlier, time, piece, last, Nat.lt_of_lt_of_le short least⟩

end Timeline

open Timeline (bytes Completes)

/-- A frame that stands in front of more bytes, and did not before, reaches into these bytes. -/
theorem Frame.length_lt_wire {limit : Nat} {buffer more payload rest : Bytes}
    (incomplete : take limit buffer = .ok none) (small : limit ≤ Frame.wireLimit)
    (fits : payload.length ≤ limit) (whole : buffer ++ more = wire payload ++ rest) :
    buffer.length < (wire payload).length := by
  by_contra covers
  have inFront : wire payload <+: buffer := by
    have front : wire payload <+: buffer ++ more := whole ▸ List.prefix_append ..
    exact List.prefix_of_prefix_length_le front (List.prefix_append ..) (by omega)
  obtain ⟨behind, rfl⟩ := inFront
  rw [(Frame.take_eq_some_iff small).mpr ⟨fits, rfl⟩] at incomplete
  simp at incomplete

/-- What a wait takes from a timeline: a frame and the bytes behind it, where the last piece is the
one that completes the frame, or the bytes of a frame that is not complete yet. -/
structure Takes (limit : Nat) (held : Bytes) (events taken : List (Nat × TimedEvent))
    (arrived : Arrived) (buffer : Bytes) (left : List (Nat × TimedEvent)) : Prop where
  events : events = taken ++ left
  elapsed : arrived = .elapsed →
    held ++ bytes taken = buffer ∧ take (effectiveLimit limit) buffer = .ok none
  found : ∀ payload, arrived = .payload payload →
    payload.length ≤ effectiveLimit limit ∧ held ++ bytes taken = wire payload ++ buffer ∧
      (taken = [] ∨ Completes held taken (wire payload).length)

namespace Takes

variable {limit : Nat} {held middle buffer : Bytes} {arrived : Arrived}
  {events between taken left : List (Nat × TimedEvent)}

/-- A wait that ends neither with a frame nor with its deadline. -/
theorem of_ne (split : events = taken ++ left) (running : arrived ≠ .elapsed)
    (unfound : ∀ payload, arrived ≠ .payload payload) :
    Takes limit held events taken arrived buffer left :=
  ⟨split, fun elapsed => absurd elapsed running, fun payload found => absurd found (unfound payload)⟩

/-- A piece that arrives is held for the rest of the wait. -/
theorem data {time : Nat} {piece : Bytes} (incomplete : take (effectiveLimit limit) held = .ok none)
    (takes : Takes limit (held ++ piece) events taken arrived buffer left) :
    Takes limit held ((time, .data piece) :: events) ((time, .data piece) :: taken) arrived buffer
      left := by
  have joined : held ++ bytes ((time, .data piece) :: taken) = held ++ piece ++ bytes taken := by
    rw [Timeline.bytes_data_cons, List.append_assoc]
  refine ⟨congrArg _ takes.events, ?_, ?_⟩
  · rw [joined]
    exact takes.elapsed
  · intro payload found
    obtain ⟨fits, whole, last⟩ := takes.found payload found
    rw [joined]
    refine ⟨fits, whole, .inr ?_⟩
    rcases last with rfl | completes
    · refine ⟨[], time, piece, rfl, ?_⟩
      rw [Timeline.bytes_nil, List.append_nil]
      exact Frame.length_lt_wire incomplete (Nat.min_le_right ..) fits (joined.trans whole)
    · exact @Completes.append_left held [(time, .data piece)] taken _ (by simpa using completes)

/-- A wait that goes on after its deadline takes what both parts of it take. -/
theorem append {more : List (Nat × TimedEvent)}
    (earlier : Takes limit held events taken .elapsed middle between)
    (later : Takes limit middle between more arrived buffer left) :
    Takes limit held events (taken ++ more) arrived buffer left := by
  obtain ⟨rfl, incomplete⟩ := earlier.elapsed rfl
  have joined : held ++ bytes (taken ++ more) = held ++ bytes taken ++ bytes more := by
    rw [Timeline.bytes_append, List.append_assoc]
  refine ⟨?_, ?_, ?_⟩
  · rw [List.append_assoc, ← later.events]
    exact earlier.events
  · rw [joined]
    exact later.elapsed
  · intro payload found
    obtain ⟨fits, whole, last⟩ := later.found payload found
    rw [joined]
    refine ⟨fits, whole, .inr ?_⟩
    rcases last with rfl | completes
    · -- The frame would have been there before the deadline.
      rw [Timeline.bytes_nil, List.append_nil] at whole
      have present : take (effectiveLimit limit) (held ++ bytes taken) = .ok (some (payload, buffer)) :=
        (Frame.take_eq_some_iff (Nat.min_le_right ..)).mpr ⟨fits, whole⟩
      rw [present] at incomplete
      simp at incomplete
    · exact completes.append_left

end Takes

namespace Awaited

variable {limit : Nat} {held : Bytes}

/-- At the end of the stream no frame arrives that is not complete already. -/
theorem takes_atEnd (incomplete : take (effectiveLimit limit) held = .ok none) (time : Nat)
    {events taken left : List (Nat × TimedEvent)} (split : events = taken ++ left) :
    Takes limit held events taken (atEnd limit time held left).arrived
      (atEnd limit time held left).buffer (atEnd limit time held left).events := by
  rw [events_atEnd]
  apply Takes.of_ne split
  all_goals
    simp only [atEnd, Frame.Buffered.last_of_next, incomplete]
    cases held.isEmpty <;> simp

theorem takes_cut (incomplete : take (effectiveLimit limit) held = .ok none)
    (deadline : Option Nat) (now : Nat) (events : List (Nat × TimedEvent)) :
    Takes limit held events [] (cut deadline now held events).arrived
      (cut deadline now held events).buffer (cut deadline now held events).events := by
  cases deadline with
  | none => exact .of_ne rfl (by simp [cut]) (by simp [cut])
  | some time => exact ⟨rfl, fun _ => ⟨List.append_nil _, incomplete⟩, by simp [cut]⟩

theorem takes_waitFrom (limit : Nat) (hangs : Bool) (deadline : Option Nat) (now : Nat) (held : Bytes)
    (events : List (Nat × TimedEvent)) :
    let awaited := waitFrom limit hangs deadline now held events
    ∃ taken, Takes limit held events taken awaited.arrived awaited.buffer awaited.events := by
  fun_induction waitFrom limit hangs deadline now held events with
  | case1 now held events payload rest found =>
    obtain ⟨fits, whole⟩ := (Frame.take_eq_some_iff (Nat.min_le_right ..)).mp
      (Frame.Buffered.take_of_next_some found)
    refine ⟨[], rfl, by simp, ?_⟩
    rintro _ ⟨⟩
    exact ⟨fits, (List.append_nil _).trans whole, .inl rfl⟩
  | case2 => exact ⟨[], .of_ne rfl (by simp) (by simp)⟩
  | case3 now held rest found =>
    exact ⟨[], takes_cut (Frame.Buffered.take_of_next_none found).1 ..⟩
  | case4 now held rest found =>
    exact ⟨[], takes_atEnd (Frame.Buffered.take_of_next_none found).1 now rfl⟩
  | case5 now held rest found =>
    exact ⟨[], takes_cut (Frame.Buffered.take_of_next_none found).1 ..⟩
  | case6 now held rest found time later past piece ih =>
    obtain ⟨taken, takes⟩ := ih
    exact ⟨_, takes.data (Frame.Buffered.take_of_next_none found).1⟩
  | case7 now held rest found time later past fault =>
    exact ⟨[(time, .fault fault)], .of_ne rfl (by simp) (by simp)⟩
  | case8 now held rest found time later =>
    exact ⟨[(time, .closed)], takes_atEnd (Frame.Buffered.take_of_next_none found).1 _ rfl⟩

end Awaited

namespace TimedWorker

variable {σ : Type} {origin worker : TimedWorker} {processor : TaskProcessor σ}

theorem takes_receive (worker : TimedWorker) (deadline : Option Nat) :
    ∃ taken, Takes worker.config.limit worker.link.buffer worker.link.stream.events taken
      (worker.receive deadline).1 (worker.receive deadline).2.link.buffer
      (worker.receive deadline).2.link.stream.events := by
  have passes := passes_passTo (worker.taking (worker.wait deadline)) (worker.wait deadline).time
  rw [receive_eq, passes.stream, passes.buffer]
  exact Awaited.takes_waitFrom ..

theorem takes_awaitRequest (worker : TimedWorker) :
    ∃ taken, Takes worker.config.limit worker.link.buffer worker.link.stream.events taken
      worker.awaitRequest.1 worker.awaitRequest.2.link.buffer
      worker.awaitRequest.2.link.stream.events := by
  obtain ⟨taken, takes⟩ := takes_receive worker (some (worker.link.clock + worker.interval.millis))
  have kept := kept_receive worker (some (worker.link.clock + worker.interval.millis))
  simp only [TimedWorker.awaitRequest]
  split
  · next waited outcome =>
    rw [outcome] at takes kept
    split
    · exact ⟨taken, takes⟩
    · obtain ⟨more, later⟩ := takes_receive waited none
      rw [kept.config] at later
      exact ⟨taken ++ more, takes.append later⟩
  · exact ⟨taken, takes⟩

/-- A wait that runs out of time leaves nothing in the buffer. -/
theorem buffer_of_elapsed (elapsed : worker.awaitRequest.1 = .elapsed) :
    worker.awaitRequest.2.link.buffer = [] := by
  revert elapsed
  simp only [TimedWorker.awaitRequest]
  split
  · next waited outcome =>
    split
    · next empty =>
      intro _
      exact List.isEmpty_iff.mp empty
    · intro elapsed
      obtain ⟨_, impossible, _⟩ := (progress_receive waited none).2.2 elapsed
      contradiction
  · next other =>
    intro elapsed
    exact (other _ (Prod.ext elapsed rfl)).elim

/-- A request that was decoded and answered, the reply being sent completely. -/
structure Answered (worker : TimedWorker) (payload : Bytes) (after : TimedWorker) : Prop where
  exchange : ∃ task reply, (worker.config.codec.decode payload : Except CodecError InputTask) = .ok task ∧
    after.exchanges = worker.exchanges ++ [(task, reply)] ∧
    after.link.sink.taken = worker.link.sink.taken ++ wire (worker.config.codec.encode reply)
  stream : after.link.stream = worker.link.stream
  buffer : after.link.buffer = worker.link.buffer
  config : after.config = worker.config

/-- A reply that was sent is out completely, whatever the stream takes at a time. -/
theorem sendReply_of_ok {reply : OutputTask} (sent : (worker.sendReply reply).1 = .ok ()) :
    ∃ sink, (worker.sendReply reply).2 = worker.withSink sink ∧
      sink.taken = worker.link.sink.taken ++ wire (worker.config.codec.encode reply) := by
  by_cases excess : effectiveLimit worker.config.limit < (worker.config.codec.encode reply).length
  · rw [sendReply_of_excess excess] at sent
    simp at sent
  · have put := Frame.Buffered.put_of_fits (Nat.not_lt.mp excess) []
    obtain ⟨part, -, taken, whole⟩ :=
      worker.link.sink.deliver_taken (wire (worker.config.codec.encode reply)) Sink.direct
    simp only [sendReply, put, List.nil_append] at sent ⊢
    refine ⟨_, rfl, ?_⟩
    rw [taken, whole]
    revert sent
    cases (worker.link.sink.deliver (wire (worker.config.codec.encode reply)) Sink.direct).1 with
    | error fault => simp [Except.mapError]
    | ok => simp

theorem answered_serve {state : σ} {payload : Bytes}
    (served : (worker.serve processor state payload).1 = .ok ()) :
    Answered worker payload (worker.serve processor state payload).2.2 := by
  cases read : (worker.config.codec.decode payload : Except CodecError InputTask) with
  | error error =>
    rw [serve_of_error read] at served
    simp at served
  | ok task =>
    obtain ⟨exchanges, sink, stream, buffer, config⟩ := worker.replying_replying processor state task
    rw [serve_of_ok read] at served ⊢
    obtain ⟨sink', same, taken⟩ := sendReply_of_ok served
    simp only [same]
    refine ⟨⟨task, (processor state task).answer.toReply, read, exchanges, ?_⟩, stream, buffer, config⟩
    rw [← sink, ← config]
    exact taken

/-- Between two requests, the bytes taken are those of the requests that were answered and those in
the buffer, and every reply is out. Bytes that were read ahead came with the last of the pieces,
which the answered requests had not been complete without, and the worker has not waited since. -/
structure Ledger (origin : TimedWorker) (taken : List (Nat × TimedEvent)) (payloads : List Bytes)
    (worker : TimedWorker) : Prop where
  events : origin.link.stream.events = taken ++ worker.link.stream.events
  whole : bytes taken = wires payloads ++ worker.link.buffer
  decoded : payloads.map origin.config.codec.decode =
    worker.exchanges.map fun exchange => (.ok exchange.1 : Except CodecError InputTask)
  replied : worker.link.sink.taken =
    origin.link.sink.taken ++ (replyFrames origin.config.codec worker.exchanges).flatten
  config : worker.config = origin.config
  ahead : worker.link.buffer = [] ∨
    Completes [] taken (wires payloads).length ∧ worker.journal.head? = some (.entered .idle)

namespace Ledger

variable {taken more : List (Nat × TimedEvent)} {payloads : List Bytes} {after served : TimedWorker}
  {arrived : Arrived}

/-- A wait leaves alone what was exchanged, the replies and the settings. -/
theorem kept_of_run (awaited : TimedWorker.awaitRequest (worker.enter .awaitingRequest) = (arrived, after)) :
    after.exchanges = worker.exchanges ∧ after.link.sink = worker.link.sink ∧
      after.config = worker.config := by
  have kept := kept_awaitRequest (worker.enter .awaitingRequest)
  rw [awaited] at kept
  refine ⟨?_, kept.sink, kept.config⟩
  rw [Worker.exchanges_of_journal after kept.journal, Worker.exchanges_enter]

/-- A wait that runs out of time leaves every request answered that was begun. -/
theorem elapsed (ledger : Ledger origin taken payloads worker)
    (awaited : TimedWorker.awaitRequest (worker.enter .awaitingRequest) = (.elapsed, after)) :
    ∃ taken, Ledger origin taken payloads after := by
  obtain ⟨more, takes⟩ := takes_awaitRequest (worker.enter .awaitingRequest)
  have empty := @buffer_of_elapsed (worker.enter .awaitingRequest) (by rw [awaited])
  obtain ⟨exchanges, sink, config⟩ := kept_of_run awaited
  rw [awaited] at takes empty
  have held : worker.link.buffer ++ bytes more = after.link.buffer := (takes.elapsed rfl).1
  refine ⟨taken ++ more, ?_, ?_, ?_, ?_, config.trans ledger.config, .inl empty⟩
  · rw [List.append_assoc, ← takes.events]
    exact ledger.events
  · rw [Timeline.bytes_append, ledger.whole, List.append_assoc, held]
  · rw [exchanges]
    exact ledger.decoded
  · rw [sink, exchanges]
    exact ledger.replied

/-- A request that arrives and is answered is one more, and what came behind it is read ahead. -/
theorem answered {payload : Bytes} (ledger : Ledger origin taken payloads worker)
    (awaited : TimedWorker.awaitRequest (worker.enter .awaitingRequest) = (.payload payload, after))
    (answered : Answered after payload served) :
    ∃ taken, Ledger origin taken (payloads ++ [payload]) (served.enter .idle) := by
  obtain ⟨more, takes⟩ := takes_awaitRequest (worker.enter .awaitingRequest)
  obtain ⟨exchanges, sink, config⟩ := kept_of_run awaited
  rw [awaited] at takes
  obtain ⟨fits, whole, last⟩ := takes.found payload rfl
  obtain ⟨⟨task, reply, decoded, exchanged, sent⟩, stream, buffer, config'⟩ := answered
  have codec : after.config.codec = origin.config.codec :=
    congrArg (·.codec) (config.trans ledger.config)
  have total : wires (payloads ++ [payload]) = wires payloads ++ wire payload := by
    rw [Frame.wires_append, Frame.wires_cons, Frame.wires_nil, List.append_nil]
  refine ⟨taken ++ more, ?_, ?_, ?_, ?_, config'.trans (config.trans ledger.config), .inr ⟨?_, rfl⟩⟩
  · rw [Worker.link_enter, stream, List.append_assoc, ← takes.events]
    exact ledger.events
  · rw [Worker.link_enter, buffer, Timeline.bytes_append, ledger.whole, total, List.append_assoc,
      List.append_assoc]
    exact congrArg _ whole
  · rw [Worker.exchanges_enter, exchanged, exchanges, List.map_append, List.map_append,
      ledger.decoded, ← codec]
    simp [decoded]
  · rw [Worker.link_enter, Worker.exchanges_enter, exchanged, exchanges, replyFrames_append, sent, sink,
      ledger.replied, codec]
    simp [replyFrames]
  · rcases last with rfl | completes
    · -- The request was in the buffer already, behind another one.
      rw [List.append_nil]
      have held : worker.link.buffer ≠ [] := by
        intro empty
        have lengths := congrArg List.length whole
        simp [empty, Frame.headerSize] at lengths
        omega
      obtain ⟨completes, -⟩ := ledger.ahead.resolve_left held
      apply completes.mono
      rw [total, List.length_append]
      omega
    · apply Completes.append_left
      rw [List.nil_append, ledger.whole, total, List.length_append]
      exact completes.behind (wires payloads)

/-- A run that stops does so between two requests. -/
theorem run (ledger : Ledger origin taken payloads worker) (horizon : Nat) (state : σ)
    (stopped : (worker.run horizon processor state).1 = some (.ok .shutdown)) :
    ∃ taken payloads last, Ledger origin taken payloads last ∧
      (worker.run horizon processor state).2.2 = last.enter .shuttingDown := by
  fun_induction TimedWorker.run horizon worker processor state generalizing taken payloads with
  | case1 worker state stops => exact ⟨taken, payloads, worker, ledger, rfl⟩
  | case2 => simp at stopped
  | case3 => simp at stopped
  | case4 => simp at stopped
  | case5 worker state clear after awaited early ih =>
    obtain ⟨taken, ledger⟩ := ledger.elapsed awaited
    exact ih ledger stopped
  | case6 => simp at stopped
  | case7 => simp at stopped
  | case8 worker state clear payload after awaited state' served answer ih =>
    have answered := @answered_serve σ after processor state payload (by rw [answer])
    rw [answer] at answered
    obtain ⟨taken, ledger⟩ := ledger.answered awaited answered
    exact ih ledger stopped

end Ledger

theorem run_of_answered {after served : TimedWorker} {payload : Bytes} {state state' : σ}
    (clear : worker.flag.isSet = false)
    (awaited : TimedWorker.awaitRequest (worker.enter .awaitingRequest) = (.payload payload, after))
    (answered : after.serve processor state payload = (.ok (), state', served)) (horizon : Nat) :
    worker.run horizon processor state =
      TimedWorker.run horizon (served.enter .idle) processor state' := by
  rw [TimedWorker.run, if_neg (by simp [clear])]
  split
  · next outcome => simp [awaited] at outcome
  · next outcome => simp [awaited] at outcome
  · next outcome => simp [awaited] at outcome
  · next outcome => simp [awaited] at outcome
  · next outcome =>
    rw [awaited] at outcome
    obtain ⟨rfl, rfl⟩ : payload = _ ∧ after = _ := by simpa using outcome
    split
    · next served => simp [answered] at served
    · next served =>
      rw [answered] at served
      obtain ⟨rfl, rfl⟩ : state' = _ ∧ _ = _ := by simpa using served
      rfl

/-- A worker that ends in order has gone through a run that did. -/
theorem run_of_doWork {termination : Termination} {state : σ}
    (ordered : (worker.doWork processor state).1 = some (.ok termination)) :
    (worker.run worker.horizon processor state).1 = some (.ok termination) ∧
      (worker.doWork processor state).2.2 =
        leaving (worker.run worker.horizon processor state).2.2 := by
  by_cases gone : worker.stage = .terminated
  · simp [doWork_of_terminated gone] at ordered
  cases listens : worker.link.listener.isNone with
  | true =>
    simp [doWork_of_uninitialized gone listens] at ordered
  | false =>
    obtain ⟨cycles, ran, concluded, left⟩ := doWork_of_listening gone listens ordered
    rw [Worker.eq_ok_of_concluded concluded.symm] at ran
    exact ⟨ran, left⟩

/-- A worker that stops has answered the requests whose bytes it has taken from its stream, each
reply being out completely, and holds the bytes behind them. It holds some only if they came with the
end of a request that it has answered, and if it has looked at the flag directly after a reply. -/
theorem stops_after_replies {worker : TimedWorker} (fresh : worker.journal = [])
    (unread : worker.link.buffer = []) {processor : TaskProcessor σ} {state : σ}
    (stopped : (worker.doWork processor state).1 = some (.ok .shutdown)) :
    let last := (worker.doWork processor state).2.2
    ∃ taken payloads, worker.link.stream.events = taken ++ last.link.stream.events ∧
      bytes taken = wires payloads ++ last.link.buffer ∧
      payloads.map worker.config.codec.decode =
        last.exchanges.map (fun exchange => (.ok exchange.1 : Except CodecError InputTask)) ∧
      last.link.sink.taken =
        worker.link.sink.taken ++ (replyFrames worker.config.codec last.exchanges).flatten ∧
      (last.link.buffer = [] ∨ Completes [] taken (wires payloads).length ∧
        ∃ earlier, last.journal =
          .entered .terminated :: .entered .shuttingDown :: .entered .idle :: earlier) := by
  have begun : Ledger worker [] [] worker := by
    have exchanges : worker.exchanges = [] := by simp [Worker.exchanges, fresh]
    exact ⟨rfl, by simp [unread], by simp [exchanges], by simp [exchanges, replyFrames], rfl,
      .inl unread⟩
  obtain ⟨ran, done⟩ := run_of_doWork stopped
  obtain ⟨taken, payloads, last, ledger, stops⟩ := begun.run worker.horizon state ran
  rw [stops] at done
  intro final
  simp only [final, done, exchanges_leaving, stream_leaving, buffer_leaving, sink_leaving, journal_leaving,
    Worker.exchanges_enter, Worker.link_enter]
  refine ⟨taken, payloads, ledger.events, ledger.whole, ledger.decoded, ledger.replied, ?_⟩
  rcases ledger.ahead with empty | ⟨completes, journal⟩
  · exact .inl empty
  · obtain ⟨earlier, same⟩ := List.head?_eq_some_iff.mp journal
    exact .inr ⟨completes, earlier,
      congrArg (Deed.entered .terminated :: Deed.entered .shuttingDown :: ·) same⟩

/-- A worker that is asked to stop while it answers its first request; the first bytes of the second
one have come with it, and the others come later. -/
def begun : TimedWorker :=
  let stream : Timeline :=
    { events := [(1, .data [0, 0, 0, 5, 0x81, 0xA1, 0x30, 0xA1, 0x61, 0, 0, 0]),
        (50, .data [5, 0x81, 0xA1, 0x30, 0xA1, 0x62])]
      hangs := true }
  (TimedWorker.initial { link := { stream, trigger := some 10 } } { events := [], hangs := true }).2

def slowEcho : TaskProcessor Unit := fun _ task =>
  { answer := .reply (.done task.message), state := (), delay := 20 }

theorem doWork_begun :
    (begun.doWork slowEcho ()).1 = some (.ok .shutdown) ∧
      (begun.doWork slowEcho ()).2.2.link.buffer = [0, 0, 0] := by
  let payload : Bytes := [0x81, 0xA1, 0x30, 0xA1, 0x61]
  rcases awaited : TimedWorker.awaitRequest (begun.enter .awaitingRequest) with ⟨arrived, after⟩
  have arrives : (TimedWorker.awaitRequest (begun.enter .awaitingRequest)).1 = .payload payload := by cbv
  have answers : ((TimedWorker.awaitRequest (begun.enter .awaitingRequest)).2.serve slowEcho ()
      payload).1 = .ok () := by cbv
  have set : ((TimedWorker.awaitRequest (begun.enter .awaitingRequest)).2.serve slowEcho ()
      payload).2.2.flag.isSet = true := by cbv
  have held : ((TimedWorker.awaitRequest (begun.enter .awaitingRequest)).2.serve slowEcho ()
      payload).2.2.link.buffer = [0, 0, 0] := by cbv
  rw [awaited] at arrives answers set held
  obtain rfl : arrived = .payload payload := arrives
  rcases answer : after.serve slowEcho () payload with ⟨result, state, served⟩
  rw [answer] at answers set held
  obtain rfl : result = .ok () := answers
  have ran := (run_of_answered rfl awaited answer begun.horizon).trans
    (@run_of_set _ (served.enter .idle) slowEcho set ..)
  rw [doWork_of_run Stage.noConfusion rfl rfl ran]
  exact ⟨rfl, (buffer_leaving _).trans held⟩

/-- The bytes that are given up came with the end of the first request. -/
theorem stops_after_replies_begun :
    begun.journal = [] ∧ begun.link.buffer = [] ∧
      (begun.doWork slowEcho ()).1 = some (.ok .shutdown) ∧
      ∃ taken payloads, bytes taken = wires payloads ++ [0, 0, 0] ∧
        Completes [] taken (wires payloads).length := by
  obtain ⟨stopped, held⟩ := doWork_begun
  obtain ⟨taken, payloads, -, whole, -, -, ahead⟩ :=
    @stops_after_replies Unit begun rfl rfl slowEcho () stopped
  rw [held] at whole ahead
  obtain ⟨completes, -⟩ := ahead.resolve_left (by simp)
  exact ⟨rfl, rfl, stopped, taken, payloads, whole, completes⟩

/-- It is not so that a worker stops only when its buffer is empty. -/
theorem stops_inside_request :
    ¬ ∀ (worker : TimedWorker) (processor : TaskProcessor Unit),
      worker.journal = [] → worker.link.buffer = [] →
      (worker.doWork processor ()).1 = some (.ok .shutdown) →
      (worker.doWork processor ()).2.2.link.buffer = [] := by
  intro empties
  obtain ⟨stopped, held⟩ := doWork_begun
  have empty := empties begun slowEcho rfl rfl stopped
  rw [held] at empty
  contradiction

end TimedWorker

end FramedTasks
