import FramedTasks.Proofs.Frame.Sending

/-! # The calls that sending makes

Writing all bytes and flushing are loops over single calls of the stream (`Sink.write_eq`,
`Sink.flush_eq`). The call that is due is a write of exactly the bytes that the stream has not taken
yet, or a flush once it has taken all of them (`SinkCall.IsDue`), and the first call with a verdict is
the last one. `Attempt` is what this makes of sending a frame, whatever the stream answers, and
`Writer.taken_sends` adds up several frames.
-/

namespace FramedTasks

/-- A call of a stream, with the answer of the stream. -/
inductive SinkCall where
  /-- Some bytes are offered, and so many of them are taken. -/
  | write (offered : Bytes) (answer : Except Fault Nat)
  | flush (answer : Except Fault Unit)

namespace SinkCall

def taken : SinkCall → Bytes
  | .write offered (.ok count) => offered.take count
  | .write _ (.error _) | .flush _ => []

def offered? : SinkCall → Option Nat
  | .write offered _ => some offered.length
  | .flush _ => none

def isFlush : SinkCall → Bool
  | .write .. => false
  | .flush _ => true

/-- Whether a call is the one to make when some bytes have not been taken yet. -/
def IsDue (rest : Bytes) : SinkCall → Prop
  | .write offered _ => offered = rest ∧ rest ≠ []
  | .flush _ => rest = []

/-- What a call decides about the sending: nothing if it was interrupted, or if some bytes were
taken. -/
def verdict? : SinkCall → Option (Except Fault Unit)
  | .write _ (.ok 0) => some (.error ⟨.writeZero, none⟩)
  | .write _ (.ok (_ + 1)) => none
  | .write _ (.error fault) | .flush (.error fault) =>
    if fault.isInterrupted then none else some (.error fault)
  | .flush (.ok ()) => some (.ok ())

/-- Only a flush concludes with success. -/
theorem eq_flush_of_verdict? {call : SinkCall} (decided : call.verdict? = some (.ok ())) :
    call = .flush (.ok ()) := by
  rcases call with ⟨offered, fault | _ | count⟩ | ⟨fault | _⟩
  · simp only [verdict?] at decided
    split at decided <;> simp at decided
  · simp [verdict?] at decided
  · simp [verdict?] at decided
  · simp only [verdict?] at decided
    split at decided <;> simp at decided
  · rfl

/-- A failure is what the stream answered, or a write that took nothing. -/
theorem cause_of_verdict? {call : SinkCall} {fault : Fault}
    (decided : call.verdict? = some (.error fault)) :
    fault.isInterrupted = false ∧ ((∃ bytes, call = .write bytes (.error fault)) ∨
      (∃ bytes, call = .write bytes (.ok 0) ∧ fault = ⟨.writeZero, none⟩) ∨
      call = .flush (.error fault)) := by
  rcases call with ⟨offered, cause | _ | count⟩ | ⟨cause | _⟩
  · simp only [verdict?] at decided
    split at decided
    · simp at decided
    · next plain =>
      obtain rfl : cause = fault := by simpa using decided
      exact ⟨by simpa using plain, .inl ⟨offered, rfl⟩⟩
  · obtain rfl : ⟨.writeZero, none⟩ = fault := by simpa [verdict?] using decided
    exact ⟨rfl, .inr (.inl ⟨offered, rfl, rfl⟩)⟩
  · simp [verdict?] at decided
  · simp only [verdict?] at decided
    split at decided
    · simp at decided
    · next plain =>
      obtain rfl : cause = fault := by simpa using decided
      exact ⟨by simpa using plain, .inr (.inr rfl)⟩
  · simp [verdict?] at decided

end SinkCall

/-- The bytes that several calls have put into the stream, in order. -/
def takenBy (calls : List SinkCall) : Bytes := calls.flatMap SinkCall.taken

section TakenBy

@[simp] theorem takenBy_nil : takenBy [] = [] := rfl

@[simp] theorem takenBy_cons (call : SinkCall) (calls : List SinkCall) :
    takenBy (call :: calls) = call.taken ++ takenBy calls := rfl

@[simp] theorem takenBy_append (first second : List SinkCall) :
    takenBy (first ++ second) = takenBy first ++ takenBy second := by
  simp [takenBy]

end TakenBy

namespace Sink

/-! ## Single calls -/

/-- One write: how many of the bytes the stream takes. -/
def offer (sink : Sink) (bytes : Bytes) : Except Fault Nat × Sink :=
  let asked := { sink with offered := bytes.length :: sink.offered }
  match sink.writes with
  | [] => (.ok bytes.length, { asked with taken := sink.taken ++ bytes })
  | .accept count :: writes =>
    (.ok (min count bytes.length), { asked with writes, taken := sink.taken ++ bytes.take count })
  | .fault fault :: writes => (.error fault, { asked with writes })

def flushOnce (sink : Sink) : Except Fault Unit × Sink :=
  let asked := { sink with flushCount := sink.flushCount + 1 }
  match sink.flushes with
  | [] => (.ok (), asked)
  | .done :: flushes => (.ok (), { asked with flushes })
  | .fault fault :: flushes => (.error fault, { asked with flushes })

/-- The given calls, and no others, lead from one stream to another. -/
inductive Calls : Sink → List SinkCall → Sink → Prop
  | none (sink : Sink) : Calls sink [] sink
  | write {sink next last : Sink} {bytes : Bytes} {answer : Except Fault Nat}
      {calls : List SinkCall} :
      sink.offer bytes = (answer, next) → Calls next calls last →
      Calls sink (.write bytes answer :: calls) last
  | flush {sink next last : Sink} {answer : Except Fault Unit} {calls : List SinkCall} :
      sink.flushOnce = (answer, next) → Calls next calls last →
      Calls sink (.flush answer :: calls) last

section Offer

variable (sink : Sink) (bytes : Bytes)

theorem taken_offer :
    (sink.offer bytes).2.taken = sink.taken ++ (SinkCall.write bytes (sink.offer bytes).1).taken := by
  unfold offer
  split
  · simp [SinkCall.taken]
  · next count _ _ =>
    have all : bytes.take (min count bytes.length) = bytes.take count := by
      rw [← List.take_take, List.take_length]
    simp [SinkCall.taken, all]
  · simp [SinkCall.taken]

theorem record_offer : (sink.offer bytes).2.offered = bytes.length :: sink.offered ∧
    (sink.offer bytes).2.flushCount = sink.flushCount := by
  unfold offer
  split <;> exact ⟨rfl, rfl⟩

theorem record_flushOnce : sink.flushOnce.2.taken = sink.taken ∧
    sink.flushOnce.2.offered = sink.offered ∧ sink.flushOnce.2.flushCount = sink.flushCount + 1 := by
  unfold flushOnce
  split <;> exact ⟨rfl, rfl, rfl⟩

end Offer

namespace Calls

variable {sink middle last : Sink} {first second : List SinkCall}

theorem append (earlier : Calls sink first middle) (later : Calls middle second last) :
    Calls sink (first ++ second) last := by
  induction earlier with
  | none => exact later
  | write outcome _ ih => exact .write outcome (ih later)
  | flush outcome _ ih => exact .flush outcome (ih later)

theorem taken (calls : Calls sink first last) : last.taken = sink.taken ++ takenBy first := by
  induction calls with
  | none => simp
  | @write sink next last bytes answer calls outcome _ ih =>
    have taken := sink.taken_offer bytes
    rw [outcome] at taken
    rw [ih, taken, takenBy_cons, List.append_assoc]
  | @flush sink next last answer calls outcome _ ih =>
    have taken := sink.record_flushOnce.1
    rw [outcome] at taken
    rw [ih, taken]
    rfl

/-- The record of a stream tells how many calls there were, and what the writes offered. -/
theorem record (calls : Calls sink first last) :
    last.offered = (first.filterMap SinkCall.offered?).reverse ++ sink.offered ∧
      last.flushCount = sink.flushCount + first.countP SinkCall.isFlush := by
  induction calls with
  | none => simp
  | @write sink next last bytes answer calls outcome _ ih =>
    have kept := sink.record_offer bytes
    rw [outcome] at kept
    rw [ih.1, ih.2, kept.1, kept.2]
    simp [SinkCall.offered?, SinkCall.isFlush]
  | @flush sink next last answer calls outcome _ ih =>
    have kept := sink.record_flushOnce
    rw [outcome] at kept
    refine ⟨?_, ?_⟩
    · rw [ih.1, kept.2.1]
      rfl
    · have one : (SinkCall.flush answer :: calls).countP SinkCall.isFlush =
          calls.countP SinkCall.isFlush + 1 := List.countP_cons_of_pos rfl
      rw [ih.2, kept.2.2, one]
      omega

end Calls

/-! ## Loops over single calls -/

theorem write_nil (sink : Sink) : sink.write [] = (.ok (), sink) := by
  simp [write, writeAll]

/-- Writing all bytes is a write, and then writing what it left. -/
theorem write_eq (sink : Sink) {bytes : Bytes} (filled : bytes ≠ []) :
    sink.write bytes =
      match sink.offer bytes with
      | (.ok 0, next) => (.error ⟨.writeZero, none⟩, next)
      | (.ok (count + 1), next) => next.write (bytes.drop (count + 1))
      | (.error fault, next) =>
        if fault.isInterrupted then next.write bytes else (.error fault, next) := by
  obtain ⟨byte, rest, rfl⟩ := List.exists_cons_of_ne_nil filled
  obtain ⟨writes, flushes, taken, offered, flushCount⟩ := sink
  cases writes with
  | nil => simp [write, writeAll, offer]
  | cons event writes =>
    cases event with
    | accept count =>
      cases count with
      | zero => simp [write, writeAll, offer, persistent]
      | succ count =>
        have some : min (count + 1) (rest.length + 1) = min count rest.length + 1 := by omega
        have left : rest.drop count = rest.drop (min count rest.length) := by
          rcases Nat.le_total count rest.length with within | beyond
          · rw [Nat.min_eq_left within]
          · rw [Nat.min_eq_right beyond, List.drop_length, List.drop_eq_nil_of_le beyond]
        simp [write, writeAll, offer, some, left]
    | fault fault =>
      by_cases interrupted : fault.isInterrupted = true
      · simp [write, writeAll, offer, persistent, interrupted]
      · simp [write, writeAll, offer, persistent, interrupted]

theorem flush_eq (sink : Sink) :
    sink.flush =
      match sink.flushOnce with
      | (.ok (), next) => (.ok (), next)
      | (.error fault, next) => if fault.isInterrupted then next.flush else (.error fault, next) := by
  obtain ⟨writes, flushes, taken, offered, flushCount⟩ := sink
  cases flushes with
  | nil => simp [flush, flushAll, flushOnce]
  | cons event flushes =>
    cases event with
    | done => simp [flush, flushAll, flushOnce]
    | fault fault =>
      by_cases interrupted : fault.isInterrupted = true
      · simp [flush, flushAll, flushOnce, persistent, interrupted]
      · simp [flush, flushAll, flushOnce, persistent, interrupted]

/-! ## Calls that are due -/

/-- Calls without a verdict, each the one that is due, by the bytes that have not been taken before
the first and after the last of them. -/
inductive Advances : Bytes → List SinkCall → Bytes → Prop
  | refl (rest : Bytes) : Advances rest [] rest
  | step {rest last : Bytes} {call : SinkCall} {calls : List SinkCall} :
      call.IsDue rest → call.verdict? = none → Advances (rest.drop call.taken.length) calls last →
      Advances rest (call :: calls) last

/-- Calls of which the last is the first one with a verdict. -/
structure Concludes (rest : Bytes) (calls : List SinkCall) (verdict : Except Fault Unit) : Prop where
  split : ∃ front call last, calls = front ++ [call] ∧ Advances rest front last ∧ call.IsDue last ∧
    call.verdict? = some verdict

section Due

variable {rest middle last : Bytes} {call : SinkCall} {calls first second : List SinkCall}
  {verdict : Except Fault Unit}

/-- A call that is due takes bytes from the front of those that have not been taken. -/
theorem taken_append_drop (due : call.IsDue rest) :
    call.taken ++ rest.drop call.taken.length = rest := by
  cases call with
  | write offered answer =>
    obtain ⟨rfl, -⟩ := due
    cases answer with
    | error fault => rfl
    | ok count =>
      rw [SinkCall.taken, List.length_take]
      rcases Nat.le_total count offered.length with within | beyond
      · rw [Nat.min_eq_left within, List.take_append_drop]
      · rw [Nat.min_eq_right beyond, List.take_of_length_le beyond, List.drop_length, List.append_nil]
  | flush answer => rfl

theorem Advances.taken (advances : Advances rest calls last) : takenBy calls ++ last = rest := by
  induction advances with
  | refl rest => rfl
  | step due _ _ ih => rw [takenBy_cons, List.append_assoc, ih, taken_append_drop due]

theorem Advances.append (earlier : Advances rest first middle)
    (later : Advances middle second last) : Advances rest (first ++ second) last := by
  induction earlier with
  | refl => exact later
  | step due silent _ ih => exact .step due silent (ih later)

theorem Advances.concludes (advances : Advances rest first middle)
    (concludes : Concludes middle second verdict) : Concludes rest (first ++ second) verdict := by
  obtain ⟨front, call, last, rfl, behind, due, decided⟩ := concludes.split
  exact ⟨first ++ front, call, last, by simp, advances.append behind, due, decided⟩

theorem concludes_singleton (due : call.IsDue rest) (decided : call.verdict? = some verdict) :
    Concludes rest [call] verdict :=
  ⟨[], call, rest, rfl, .refl rest, due, decided⟩

/-- The call at any place is the one that is due there. -/
theorem Advances.at_place {earlier later : List SinkCall} (advances : Advances rest calls last)
    (place : calls = earlier ++ call :: later) :
    ∃ middle, takenBy earlier ++ middle = rest ∧ call.IsDue middle ∧ call.verdict? = none := by
  induction advances generalizing earlier with
  | refl rest => simp at place
  | @step rest last head calls due silent advances ih =>
    cases earlier with
    | nil =>
      obtain ⟨rfl, rfl⟩ := List.cons.inj place
      exact ⟨rest, rfl, due, silent⟩
    | cons first earlier =>
      obtain ⟨rfl, behind⟩ := List.cons.inj place
      obtain ⟨middle, whole, due', silent'⟩ := ih behind
      refine ⟨middle, ?_, due', silent'⟩
      rw [takenBy_cons, List.append_assoc, whole, taken_append_drop due]

theorem Concludes.at_place {earlier later : List SinkCall} (concludes : Concludes rest calls verdict)
    (place : calls = earlier ++ call :: later) :
    ∃ middle, takenBy earlier ++ middle = rest ∧ call.IsDue middle ∧
      (later = [] → call.verdict? = some verdict) ∧ (later ≠ [] → call.verdict? = none) := by
  obtain ⟨front, decisive, last, rfl, advances, due, decided⟩ := concludes.split
  rcases List.eq_nil_or_concat later with rfl | ⟨others, final, rfl⟩
  · obtain ⟨rfl, same⟩ := List.append_inj' place rfl
    obtain rfl := List.singleton_inj.mp same
    exact ⟨last, advances.taken, due, fun _ => decided, fun some => absurd rfl some⟩
  · have split : front ++ [decisive] = (earlier ++ call :: others) ++ [final] := by
      simpa using place
    obtain ⟨behind, -⟩ := List.append_inj' split rfl
    obtain ⟨middle, whole, due, silent⟩ := advances.at_place behind
    exact ⟨middle, whole, due, by simp, fun _ => silent⟩

/-- Bytes are taken in the order in which they are due, and no byte twice. -/
theorem Concludes.taken_isPrefix (concludes : Concludes rest calls verdict) :
    takenBy calls <+: rest := by
  obtain ⟨front, decisive, last, rfl, advances, due, -⟩ := concludes.split
  refine ⟨last.drop decisive.taken.length, ?_⟩
  rw [takenBy_append, takenBy_cons, takenBy_nil, List.append_nil, List.append_assoc,
    taken_append_drop due, advances.taken]

end Due

/-! ## The calls of a write with a flush behind it -/

/-- A loop goes on with the next call where the last one had no verdict. -/
theorem concludes_cons {sink next last : Sink} {rest : Bytes} {call : SinkCall}
    {result : Except Fault Unit} (made : sink.Calls [call] next) (due : call.IsDue rest)
    (silent : call.verdict? = none)
    (later : ∃ calls, next.Calls calls last ∧ Concludes (rest.drop call.taken.length) calls result) :
    ∃ calls, sink.Calls calls last ∧ Concludes rest calls result := by
  obtain ⟨calls, others, concludes⟩ := later
  exact ⟨call :: calls, made.append others,
    Advances.concludes (.step due silent (.refl _)) concludes⟩

theorem concludes_flush (sink : Sink) :
    ∃ calls, sink.Calls calls sink.flush.2 ∧ Concludes [] calls sink.flush.1 := by
  generalize events : sink.flushes = flushes
  induction flushes generalizing sink with
  | nil =>
    have once : sink.flushOnce = (.ok (), sink.flushOnce.2) := by simp [flushOnce, events]
    rw [flush_eq, once]
    exact ⟨_, .flush once (.none _), concludes_singleton rfl rfl⟩
  | cons event flushes ih =>
    cases event with
    | done =>
      have once : sink.flushOnce = (.ok (), sink.flushOnce.2) := by simp [flushOnce, events]
      rw [flush_eq, once]
      exact ⟨_, .flush once (.none _), concludes_singleton rfl rfl⟩
    | fault fault =>
      have once : sink.flushOnce = (.error fault, sink.flushOnce.2) := by simp [flushOnce, events]
      rw [flush_eq, once]
      by_cases interrupted : fault.isInterrupted = true
      · have later := ih sink.flushOnce.2 (by simp [flushOnce, events])
        simp only [if_pos interrupted]
        exact concludes_cons (.flush once (.none _)) rfl (if_pos interrupted) later
      · simp only [if_neg interrupted]
        exact ⟨_, .flush once (.none _), concludes_singleton rfl (if_neg interrupted)⟩

theorem deliver_nil (sink : Sink) : sink.deliver [] = sink.flush := by
  rw [deliver, write_nil]

theorem deliver_eq (sink : Sink) {bytes : Bytes} (filled : bytes ≠ []) :
    sink.deliver bytes =
      match sink.offer bytes with
      | (.ok 0, next) => (.error ⟨.writeZero, none⟩, next)
      | (.ok (count + 1), next) => next.deliver (bytes.drop (count + 1))
      | (.error fault, next) =>
        if fault.isInterrupted then next.deliver bytes else (.error fault, next) := by
  rw [deliver, write_eq sink filled]
  rcases sink.offer bytes with ⟨fault | _ | count, next⟩
  · by_cases interrupted : fault.isInterrupted = true
    · simp only [if_pos interrupted, deliver]
    · simp only [if_neg interrupted]
  · rfl
  · rfl

/-- A write that fails was foreseen, and uses up what was. -/
theorem length_writes_offer (sink : Sink) (bytes : Bytes) :
    (sink.offer bytes).2.writes.length ≤ sink.writes.length ∧
      ∀ fault, (sink.offer bytes).1 = .error fault →
        (sink.offer bytes).2.writes.length < sink.writes.length := by
  unfold offer
  split
  · next none => simp [none]
  · next count writes foreseen => simp [foreseen]
  · next fault writes foreseen => simp [foreseen]

theorem concludes_deliver (sink : Sink) (bytes : Bytes) :
    ∃ calls, sink.Calls calls (sink.deliver bytes).2 ∧ Concludes bytes calls (sink.deliver bytes).1 := by
  -- every call that has no verdict takes bytes or uses up a write that was foreseen
  induction size : sink.writes.length + bytes.length using Nat.strongRecOn
    generalizing sink bytes with
  | _ size ih =>
    subst size
    by_cases filled : bytes = []
    · subst filled
      rw [deliver_nil]
      exact sink.concludes_flush
    · obtain ⟨noLonger, shorter⟩ := sink.length_writes_offer bytes
      rcases outcome : sink.offer bytes with ⟨fault | _ | count, next⟩
      · rw [outcome] at shorter
        have due : (SinkCall.write bytes (.error fault)).IsDue bytes := ⟨rfl, filled⟩
        rw [deliver_eq sink filled, outcome]
        by_cases interrupted : fault.isInterrupted = true
        · have lighter : next.writes.length < sink.writes.length := shorter fault rfl
          have later := ih _ (by omega) next bytes rfl
          simp only [if_pos interrupted]
          exact concludes_cons (.write outcome (.none _)) due (if_pos interrupted) later
        · simp only [if_neg interrupted]
          exact ⟨_, .write outcome (.none _), concludes_singleton due (if_neg interrupted)⟩
      · rw [deliver_eq sink filled, outcome]
        exact ⟨_, .write outcome (.none _), concludes_singleton ⟨rfl, filled⟩ rfl⟩
      · rw [outcome] at noLonger
        have some := List.length_pos_iff.mpr filled
        have lighter : next.writes.length + (bytes.drop (count + 1)).length <
            sink.writes.length + bytes.length := by
          simp only [List.length_drop] at noLonger ⊢
          omega
        have taken : bytes.drop (SinkCall.write bytes (.ok (count + 1))).taken.length =
            bytes.drop (count + 1) := by
          rw [SinkCall.taken, List.length_take]
          rcases Nat.le_total (count + 1) bytes.length with within | beyond
          · rw [Nat.min_eq_left within]
          · rw [Nat.min_eq_right beyond, List.drop_length, List.drop_eq_nil_of_le beyond]
        rw [deliver_eq sink filled, outcome]
        refine concludes_cons (.write outcome (.none _)) ⟨rfl, filled⟩ rfl ?_
        rw [taken]
        exact ih _ lighter next _ rfl

end Sink

namespace Frame.Writer

/-- What sending a payload makes of the calls of the stream, by the clauses of the discipline. -/
structure Attempt (limit : Nat) (payload : Bytes) (calls : List SinkCall)
    (result : Except FrameError Unit) : Prop where
  /-- A payload that is too large is refused before any call. -/
  refused : limit < payload.length →
    calls = [] ∧ result = .error (.payloadTooLarge payload.length limit)
  taken_isPrefix : takenBy calls <+: wire payload
  /-- A write offers what has not been taken, and nothing else. -/
  writes : ∀ earlier bytes answer later, calls = earlier ++ .write bytes answer :: later →
    takenBy earlier ++ bytes = wire payload ∧ bytes ≠ []
  /-- A flush follows the whole frame. -/
  flushes : ∀ earlier answer later, calls = earlier ++ .flush answer :: later →
    takenBy earlier = wire payload
  ok_iff : result = .ok () ↔ takenBy calls = wire payload ∧ .flush (.ok ()) ∈ calls
  /-- A failure of a send that was not refused is the one that the last call met. -/
  failed : payload.length ≤ limit → ∀ error, result = .error error →
    ∃ fault earlier call, error = .io fault ∧ fault.isInterrupted = false ∧ calls = earlier ++ [call] ∧
      ((∃ bytes, call = .write bytes (.error fault)) ∨
        (∃ bytes, call = .write bytes (.ok 0) ∧ fault = ⟨.writeZero, none⟩) ∨
        call = .flush (.error fault))

/-- Sending a payload that is not too large is writing and flushing its frame. -/
theorem send_of_fits {writer : Writer} {payload : Bytes}
    (fits : ¬ effectiveLimit writer.limit < payload.length) :
    writer.send payload =
      ((writer.sink.deliver (wire payload)).1.mapError .io,
        { writer with sink := (writer.sink.deliver (wire payload)).2 }) := by
  simp only [send, if_neg fits, Sink.deliver]
  rcases writer.sink.write (wire payload) with ⟨_ | _, written⟩ <;> rfl

/-- Calls for a frame within the limit, of which the last one concludes, are an attempt. -/
theorem attempt_of_concludes {limit : Nat} {payload : Bytes} {calls : List SinkCall}
    {verdict : Except Fault Unit} (fits : ¬ limit < payload.length)
    (concludes : Sink.Concludes (wire payload) calls verdict) :
    Attempt limit payload calls (verdict.mapError .io) := by
  refine ⟨fun excess => absurd excess fits, concludes.taken_isPrefix, ?_, ?_, ?_, ?_⟩
  · intro earlier bytes answer later place
    obtain ⟨middle, whole, ⟨rfl, filled⟩, -⟩ := concludes.at_place place
    exact ⟨whole, filled⟩
  · intro earlier answer later place
    obtain ⟨middle, whole, rfl, -⟩ := concludes.at_place place
    rwa [List.append_nil] at whole
  · obtain ⟨front, call, last, place, advances, due, decided⟩ := concludes.split
    constructor
    · intro succeeded
      have well : verdict = .ok () := by
        cases verdict with
        | ok => rfl
        | error fault => simp [Except.mapError] at succeeded
      obtain rfl := SinkCall.eq_flush_of_verdict? (well ▸ decided)
      obtain rfl : last = [] := due
      have whole := advances.taken
      rw [List.append_nil] at whole
      exact ⟨by simp [place, SinkCall.taken, whole], by simp [place]⟩
    · rintro ⟨-, flushed⟩
      obtain ⟨earlier, later, place⟩ := List.append_of_mem flushed
      obtain ⟨middle, -, -, final, silent⟩ := concludes.at_place place
      have nothing : later = [] := by
        by_contra others
        simpa [SinkCall.verdict?] using silent others
      obtain rfl : .ok () = verdict := by simpa [SinkCall.verdict?] using final nothing
      rfl
  · intro _ error broke
    cases verdict with
    | ok => simp [Except.mapError] at broke
    | error fault =>
      obtain ⟨front, call, last, place, -, -, decided⟩ := concludes.split
      obtain ⟨plain, cause⟩ := SinkCall.cause_of_verdict? decided
      exact ⟨fault, front, call, (Except.error.inj broke).symm, plain, place, cause⟩

theorem attempt_send (writer : Writer) (payload : Bytes) :
    ∃ calls, writer.sink.Calls calls (writer.send payload).2.sink ∧
      Attempt (effectiveLimit writer.limit) payload calls (writer.send payload).1 := by
  by_cases excess : effectiveLimit writer.limit < payload.length
  · rw [send_of_excess excess]
    exact ⟨[], .none _, fun _ => ⟨rfl, rfl⟩, List.nil_prefix, by simp, by simp, by simp,
      fun fits => absurd excess (Nat.not_lt.mpr fits)⟩
  · obtain ⟨calls, made, concludes⟩ := writer.sink.concludes_deliver (wire payload)
    rw [send_of_fits excess]
    exact ⟨calls, made, attempt_of_concludes excess concludes⟩

/-! ## Several frames -/

/-- The results of sending several payloads one after another, and the writer after them. -/
def sends (writer : Writer) : List Bytes → List (Except FrameError Unit) × Writer
  | [] => ([], writer)
  | payload :: rest =>
    let (result, next) := writer.send payload
    let (results, last) := sends next rest
    (result :: results, last)

/-- Whether a send left no part of a frame behind: it went out in full, or was refused. -/
def isClean : Except FrameError Unit → Bool
  | .ok () | .error (.payloadTooLarge ..) => true
  | .error _ => false

def sent (payloads : List Bytes) (results : List (Except FrameError Unit)) : List Bytes :=
  ((payloads.zip results).filter fun send => send.2.isOk).map Prod.fst

theorem taken_send {writer : Writer} {payload : Bytes} (clean : isClean (writer.send payload).1) :
    (writer.send payload).2.sink.taken =
      writer.sink.taken ++ wires (sent [payload] [(writer.send payload).1]) := by
  have sending := sending_send writer payload
  generalize writer.send payload = outcome at clean sending ⊢
  obtain ⟨result, next⟩ := outcome
  generalize reached : next.sink = sink at sending ⊢
  cases sending with
  | delivered _ delivers => 
    rw [delivers.taken]
    simp [sent, wires, Except.isOk, Except.toBool]
  | refused => simp [sent, wires, Except.isOk, Except.toBool]
  | broken => contradiction

/-- Where no send was cut off, the stream has taken the frames of those that succeeded. -/
theorem taken_sends {writer : Writer} {payloads : List Bytes}
    (clean : ∀ result ∈ (writer.sends payloads).1, isClean result) :
    (writer.sends payloads).2.sink.taken =
      writer.sink.taken ++ wires (sent payloads (writer.sends payloads).1) := by
  induction payloads generalizing writer with
  | nil => simp [sends, sent, wires]
  | cons payload rest ih =>
    have first := taken_send (clean _ (List.mem_cons_self ..))
    have others := @ih (writer.send payload).2 fun result member =>
      clean result (List.mem_cons_of_mem _ member)
    have both : sent (payload :: rest) (writer.sends (payload :: rest)).1 =
        sent [payload] [(writer.send payload).1] ++
          sent rest ((writer.send payload).2.sends rest).1 := by
      simp only [sent, sends, ← List.map_append, ← List.filter_append]
      rfl
    rw [both, wires_append, ← List.append_assoc, ← first, ← others]
    rfl

/-- A send calls the stream as `Attempt` says, whatever the stream answers, and no other calls reach
the stream. After several sends of which none was cut off, the stream has taken the frames of those
that succeeded, in order. -/
theorem sends_exactly (writer : Writer) (payload : Bytes) (payloads : List Bytes) :
    (let (result, next) := writer.send payload
      ∃ calls, writer.sink.Calls calls next.sink ∧
        next.sink.taken = writer.sink.taken ++ takenBy calls ∧
        next.sink.offered = (calls.filterMap SinkCall.offered?).reverse ++ writer.sink.offered ∧
        next.sink.flushCount = writer.sink.flushCount + calls.countP SinkCall.isFlush ∧
        Attempt (effectiveLimit writer.limit) payload calls result) ∧
      let (results, last) := writer.sends payloads
      (∀ result ∈ results, isClean result) →
        last.sink.taken = writer.sink.taken ++ wires (sent payloads results) := by
  constructor
  · obtain ⟨calls, made, attempt⟩ := attempt_send writer payload
    exact ⟨calls, made, made.taken, made.record.1, made.record.2, attempt⟩
  · intro clean
    exact taken_sends clean

end Frame.Writer

end FramedTasks
