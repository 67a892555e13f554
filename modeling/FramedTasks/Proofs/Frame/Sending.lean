import FramedTasks.Frame.Writer
import FramedTasks.Proofs.Frame.Wire

/-! # Sending frames, whatever the writes take

A write of all bytes leaves a part of them in the stream, and the whole if it succeeds. `Sending`
says what sending a frame may come to, and `Sink.Delivers` that several runs of bytes were written
in full, each followed by a flush that succeeded.
-/

namespace FramedTasks

namespace Sink

/-- What was taken before stays in front, and what is added is a part of the bytes offered. -/
theorem writeAll_taken (manner : Manner) (writes : List WriteEvent) (taken : Bytes)
    (offered : List Nat) (bytes : Bytes) :
    ∃ part, part <+: bytes ∧ (writeAll manner writes taken offered bytes).2.2.1 = taken ++ part ∧
      ((writeAll manner writes taken offered bytes).1 = .ok () → part = bytes) := by
  induction writes generalizing taken offered bytes with
  | nil => cases bytes with
    | nil => exact ⟨[], List.nil_prefix, (List.append_nil _).symm, fun _ => rfl⟩
    | cons byte bytes => exact ⟨byte :: bytes, List.prefix_rfl, rfl, fun _ => rfl⟩
  | cons event rest ih => cases bytes with
    | nil => exact ⟨[], List.nil_prefix, (List.append_nil _).symm, fun _ => rfl⟩
    | cons byte bytes => cases event with
      | accept count =>
        simp only [writeAll]
        split
        · exact ⟨[], List.nil_prefix, (List.append_nil _).symm, by simp⟩
        · have rejoined := List.take_append_drop count (byte :: bytes)
          obtain ⟨part, ⟨missing, remaining⟩, total, whole⟩ :=
            ih (taken ++ (byte :: bytes).take count) ((byte :: bytes).length :: offered)
              ((byte :: bytes).drop count)
          refine ⟨(byte :: bytes).take count ++ part, ⟨missing, ?_⟩, ?_, ?_⟩
          · rw [List.append_assoc, remaining, rejoined]
          · rw [total, List.append_assoc]
          · intro succeeded
            rw [whole succeeded, rejoined]
      | fault fault =>
        simp only [writeAll]
        split
        · exact ih taken _ (byte :: bytes)
        · exact ⟨[], List.nil_prefix, (List.append_nil _).symm, by simp⟩

theorem write_taken (sink : Sink) (bytes : Bytes) (manner : Manner) :
    ∃ part, part <+: bytes ∧ (sink.write bytes manner).2.taken = sink.taken ++ part ∧
      ((sink.write bytes manner).1 = .ok () → part = bytes) :=
  writeAll_taken manner sink.writes sink.taken sink.offered bytes

theorem deliver_taken (sink : Sink) (bytes : Bytes) (manner : Manner) :
    ∃ part, part <+: bytes ∧ (sink.deliver bytes manner).2.taken = sink.taken ++ part ∧
      ((sink.deliver bytes manner).1 = .ok () → part = bytes) := by
  obtain ⟨part, within, total, whole⟩ := sink.write_taken bytes manner
  simp only [deliver]
  rcases wrote : sink.write bytes manner with ⟨_ | _, written⟩ <;> rw [wrote] at total whole
  · exact ⟨part, within, total, by simp⟩
  · exact ⟨part, within, total, fun _ => whole rfl⟩

/-- A stream that takes every write in full, and every flush. -/
structure Open (sink : Sink) : Prop where
  writes : sink.writes = []
  flushes : sink.flushes = []

theorem Open.write {sink : Sink} (isOpen : sink.Open) (bytes : Bytes) (manner : Manner) :
    (sink.write bytes manner).1 = .ok () ∧
      (sink.write bytes manner).2.taken = sink.taken ++ bytes ∧ (sink.write bytes manner).2.Open := by
  have all : writeAll manner sink.writes sink.taken sink.offered bytes =
      (.ok (), [], sink.taken ++ bytes,
        if bytes.isEmpty then sink.offered else bytes.length :: sink.offered) := by
    rw [isOpen.writes]
    cases bytes with
    | nil => simp [writeAll]
    | cons byte bytes => rfl
  simp only [Sink.write, all, true_and]
  exact ⟨rfl, isOpen.flushes⟩

theorem Open.flush {sink : Sink} (isOpen : sink.Open) (manner : Manner) :
    (sink.flush manner).1 = .ok () ∧ (sink.flush manner).2.Open := by
  simp only [Sink.flush, isOpen.flushes, flushAll, true_and]
  exact ⟨isOpen.writes, rfl⟩

theorem Open.deliver {sink : Sink} (isOpen : sink.Open) (bytes : Bytes) (manner : Manner) :
    (sink.deliver bytes manner).1 = .ok () ∧
      (sink.deliver bytes manner).2.taken = sink.taken ++ bytes ∧
      (sink.deliver bytes manner).2.Open := by
  obtain ⟨wrote, taken, stays⟩ := isOpen.write bytes manner
  obtain ⟨flushed, still⟩ := stays.flush manner
  have written : sink.write bytes manner = (.ok (), (sink.write bytes manner).2) :=
    Prod.ext wrote rfl
  simp only [Sink.deliver]
  rw [written]
  exact ⟨flushed, taken, still⟩

/-- Runs of bytes were written in full one after another, a flush succeeding after each. -/
inductive Delivers : Sink → List Bytes → Sink → Prop
  | nil (sink : Sink) : Delivers sink [] sink
  | cons {sink written flushed last : Sink} {bytes : Bytes} {rest : List Bytes} :
      sink.write bytes = (.ok (), written) → written.flush = (.ok (), flushed) →
      Delivers flushed rest last → Delivers sink (bytes :: rest) last

namespace Delivers

variable {sink middle last : Sink} {first second : List Bytes}

theorem append (earlier : Delivers sink first middle) (later : Delivers middle second last) :
    Delivers sink (first ++ second) last := by
  induction earlier with
  | nil => exact later
  | cons written flushed _ ih => exact .cons written flushed (ih later)

theorem taken (delivers : Delivers sink first last) : last.taken = sink.taken ++ first.flatten := by
  induction delivers with
  | nil => simp
  | @cons sink written flushed last bytes rest wrote flush _ ih =>
    obtain ⟨part, -, total, whole⟩ := sink.write_taken bytes persistent
    rw [wrote] at total whole
    have kept : flushed.taken = written.taken := congrArg (·.2.taken) flush.symm
    rw [ih, kept, total, whole rfl, List.flatten_cons, List.append_assoc]

end Delivers

end Sink

namespace Frame.Writer

/-- What sending a payload may come to. -/
inductive Sending (limit : Nat) (sink : Sink) (payload : Bytes) :
    Except FrameError Unit → Sink → Prop
  | delivered {after : Sink} : payload.length ≤ limit → sink.Delivers [wire payload] after →
      Sending limit sink payload (.ok ()) after
  /-- The payload is too large, and the stream is left alone. -/
  | refused : limit < payload.length →
      Sending limit sink payload (.error (.payloadTooLarge payload.length limit)) sink
  /-- A write or a flush failed, and a part of the frame is out. -/
  | broken {after : Sink} {fault : Fault} {part : Bytes} : payload.length ≤ limit →
      part <+: wire payload → after.taken = sink.taken ++ part →
      Sending limit sink payload (.error (.io fault)) after

/-- Whatever comes of it, nothing that the stream has taken is lost. -/
theorem Sending.taken_prefix {limit : Nat} {sink after : Sink} {payload : Bytes}
    {result : Except FrameError Unit} (sending : Sending limit sink payload result after) :
    sink.taken <+: after.taken := by
  cases sending with
  | delivered _ delivers =>
    rw [delivers.taken]
    exact List.prefix_append _ _
  | refused => exact List.prefix_rfl
  | broken _ _ taken =>
    rw [taken]
    exact List.prefix_append _ _

theorem sending_send (writer : Writer) (payload : Bytes) :
    Sending (effectiveLimit writer.limit) writer.sink payload (writer.send payload).1
      (writer.send payload).2.sink := by
  unfold send
  by_cases excess : effectiveLimit writer.limit < payload.length
  · simp only [if_pos excess]
    exact .refused excess
  · have fits : payload.length ≤ effectiveLimit writer.limit := by omega
    simp only [if_neg excess]
    obtain ⟨part, within, total, whole⟩ := writer.sink.write_taken (wire payload) Sink.persistent
    rcases wrote : writer.sink.write (wire payload) with ⟨_ | _, sink⟩
    · rw [wrote] at total
      exact .broken fits within total
    · rw [wrote] at total whole
      rcases flushed : sink.flush with ⟨_ | _, after⟩
      · have kept : after.taken = sink.taken := congrArg (·.2.taken) flushed.symm
        simp only [flush, flushed]
        exact .broken fits within (kept.trans total)
      · simp only [flush, flushed]
        exact .delivered fits (.cons wrote flushed (.nil after))

/-- Over a stream that takes everything, a payload within the limit goes out as its frame. -/
theorem send_of_open {writer : Writer} (isOpen : writer.sink.Open) {payload : Bytes}
    (fits : payload.length ≤ effectiveLimit writer.limit) :
    (writer.send payload).1 = .ok () ∧
      (writer.send payload).2.sink.taken = writer.sink.taken ++ wire payload ∧
      (writer.send payload).2.sink.Open := by
  obtain ⟨wrote, taken, stays⟩ := isOpen.write (wire payload) Sink.persistent
  rcases outcome : writer.sink.write (wire payload) with ⟨result, sink⟩
  rw [outcome] at wrote taken stays
  obtain ⟨flushed, still⟩ := stays.flush Sink.persistent
  simp only [send, if_neg (Nat.not_lt.mpr fits), outcome, show result = .ok () from wrote, flush,
    flushed, Except.mapError, true_and]
  exact ⟨taken, still⟩

/-- A payload above the limit leaves the stream alone. -/
theorem send_of_excess {writer : Writer} {payload : Bytes}
    (excess : effectiveLimit writer.limit < payload.length) :
    writer.send payload =
      (.error (.payloadTooLarge payload.length (effectiveLimit writer.limit)), writer) := by
  simp only [send, if_pos excess]

/-- Where the first write fails, nothing goes out. -/
theorem taken_send_of_fault {writer : Writer} {fault : Fault} {rest : List WriteEvent}
    (fails : writer.sink.writes = .fault fault :: rest) (plain : fault.isInterrupted = false)
    (payload : Bytes) : (writer.send payload).2.sink.taken = writer.sink.taken := by
  by_cases excess : effectiveLimit writer.limit < payload.length
  · rw [send_of_excess excess]
  · obtain ⟨byte, bytes, frame⟩ := List.exists_cons_of_ne_nil (wire_ne_nil payload)
    have failed : (writer.sink.write (wire payload)).1 = .error fault ∧
        (writer.sink.write (wire payload)).2.taken = writer.sink.taken := by
      simp [Sink.write, fails, frame, Sink.writeAll, Sink.persistent, plain]
    rcases outcome : writer.sink.write (wire payload) with ⟨result, sink⟩
    rw [outcome] at failed
    obtain ⟨rfl, taken⟩ := failed
    simpa only [send, if_neg excess, outcome] using taken

@[simp] theorem limit_send (writer : Writer) (payload : Bytes) :
    (writer.send payload).2.limit = writer.limit := by
  by_cases excess : effectiveLimit writer.limit < payload.length
  · simp only [send, if_pos excess]
  · simp only [send, if_neg excess]
    split <;> rfl

end Frame.Writer

end FramedTasks
