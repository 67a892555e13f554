import FramedTasks.Frame.Reader
import FramedTasks.Proofs.Frame.Wire
import FramedTasks.Proofs.Stream.Reads
import Mathlib.Data.List.Count

/-! # Receiving frames, whatever the reads bring

`Receiving` says what a call of a reader may come to: the outcomes of its reads, its result and the
buffer after it. A call reads on over bytes and interruptions and ends with the first read that is
something else, unless the buffer decides before. `Account` adds up successive calls, and
`receive_after_calls` says that every reader keeps both, after any number of calls.
-/

namespace FramedTasks.Frame.Reader

variable {ε : Type}

/-- What a call may come to that starts with the given buffer. -/
inductive Receiving (limit : Nat) (buffer : Bytes) :
    List Reading → Except FrameError Bytes → Bytes → Prop
  /-- The frame is complete, and nothing of the next one is held. -/
  | received {readings : List Reading} {payload : Bytes} :
      (∀ reading ∈ readings, reading.goesOn) → payload.length ≤ limit →
      buffer ++ arrivals readings = wire payload → Receiving limit buffer readings (.ok payload) []
  /-- The header is complete and declares too much. -/
  | refused {readings : List Reading} {size : Nat} :
      (∀ reading ∈ readings, reading.goesOn) →
      declared? (buffer ++ arrivals readings) = some size → limit < size →
      Receiving limit buffer readings (.error (.payloadTooLarge size limit)) (buffer ++ arrivals readings)
  /-- A read ran out of time, and everything that had arrived is kept. -/
  | timedOut {readings : List Reading} {fault : Fault} :
      (∀ reading ∈ readings, reading.goesOn) → fault.isTimeout → fault.isInterrupted = false →
      Receiving limit buffer (readings ++ [.fault fault]) (.error .timeout) (buffer ++ arrivals readings)
  /-- A read failed, and everything that had arrived is kept. -/
  | failed {readings : List Reading} {fault : Fault} :
      (∀ reading ∈ readings, reading.goesOn) → fault.isTimeout = false →
      fault.isInterrupted = false →
      Receiving limit buffer (readings ++ [.fault fault]) (.error (.io fault)) (buffer ++ arrivals readings)
  /-- The stream ended, and nothing was held. -/
  | ended {readings : List Reading} :
      (∀ reading ∈ readings, reading.goesOn) → buffer ++ arrivals readings = [] →
      Receiving limit buffer (readings ++ [.closed]) (.error .endOfStream) []
  /-- The stream ended inside a frame. -/
  | cut {readings : List Reading} {held : Bytes} :
      (∀ reading ∈ readings, reading.goesOn) → buffer ++ arrivals readings = held → held ≠ [] →
      Receiving limit buffer (readings ++ [.closed])
        (.error (.truncated
          (if held.length < headerSize then headerSize
            else headerSize + Bytes.toNat (held.take headerSize)) held.length)) held

/-- A call may begin with a read that it reads on over. -/
theorem Receiving.cons {limit : Nat} {buffer after : Bytes} {reading : Reading}
    {readings : List Reading} {result : Except FrameError Bytes} (goes : reading.goesOn)
    (call : Receiving limit (buffer ++ reading.arrived) readings result after) :
    Receiving limit buffer (reading :: readings) result after := by
  have extend : ∀ {others : List Reading}, (∀ other ∈ others, other.goesOn) →
      ∀ other ∈ reading :: others, other.goesOn := by
    intro others going other member
    rcases List.mem_cons.mp member with rfl | member
    · exact goes
    · exact going other member
  have joined (others : List Reading) :
      buffer ++ reading.arrived ++ arrivals others = buffer ++ arrivals (reading :: others) := by
    rw [arrivals_cons, List.append_assoc]
  cases call with
  | received going fits whole => exact .received (extend going) fits (joined _ ▸ whole)
  | refused going known excess =>
    rw [joined] at known ⊢
    exact .refused (extend going) known excess
  | timedOut going timeout plain =>
    rw [joined]
    exact .timedOut (extend going) timeout plain
  | failed going timeout plain =>
    rw [joined]
    exact .failed (extend going) timeout plain
  | ended going empty => exact .ended (extend going) (joined _ ▸ empty)
  | cut going whole nonempty => exact .cut (extend going) (joined _ ▸ whole) nonempty

/-- A call may begin with any number of reads that it reads on over. -/
theorem Receiving.append {limit : Nat} {buffer after : Bytes} {first later : List Reading}
    {result : Except FrameError Bytes} (going : ∀ reading ∈ first, reading.goesOn)
    (call : Receiving limit (buffer ++ arrivals first) later result after) :
    Receiving limit buffer (first ++ later) result after := by
  induction first generalizing buffer with
  | nil => simpa using call
  | cons reading rest ih =>
    refine .cons (going reading (List.mem_cons_self ..)) (ih ?_ ?_)
    · exact fun other member => going other (List.mem_cons_of_mem _ member)
    · rwa [arrivals_cons, ← List.append_assoc] at call

/-- A call that ran out of time and the next one come to what one call comes to. -/
theorem Receiving.resumed {limit : Nat} {buffer held after : Bytes} {first later : List Reading}
    {fault : Fault} {result : Except FrameError Bytes}
    (paused : Receiving limit buffer (first ++ [.fault fault]) (.error .timeout) held)
    (call : Receiving limit held later result after) :
    Receiving limit buffer (first ++ later) result after := by
  generalize whole : first ++ [.fault fault] = readings at paused
  cases paused with
  | timedOut going timeout plain =>
    obtain ⟨rfl, -⟩ := List.append_inj' whole rfl
    exact .append going call

/-- The bytes of a reader belong to one frame. -/
def WithinFrame (buffer : Bytes) : Prop := buffer.length ≤ expectedLength buffer

theorem withinFrame_nil : WithinFrame [] := Nat.zero_le _

/-- A read that asks for what is wanted stays within the frame. -/
theorem withinFrame_read (source : Source ε) {buffer : Bytes} (within : WithinFrame buffer) :
    WithinFrame (buffer ++ (source.read (wanted buffer)).1.arrived) := by
  have most := source.length_arrived_read (wanted buffer)
  have room : wanted buffer + buffer.length ≤ expectedLength buffer := by
    simp only [WithinFrame, wanted] at *
    omega
  exact expectedLength_append_le (by omega)

/-- What is left behind a frame is nothing, if the bytes belong to one frame. -/
theorem rest_of_withinFrame {payload rest : Bytes} (fits : payload.length ≤ wireLimit)
    (within : WithinFrame (wire payload ++ rest)) : rest = [] := by
  have length : expectedLength (wire payload ++ rest) = headerSize + payload.length :=
    expectedLength_of_declared? (declared?_wire fits)
  simp only [WithinFrame, length, List.length_append, length_wire] at within
  exact List.eq_nil_of_length_eq_zero (by omega)

theorem receiving_closed {limit : Nat} (buffer : Bytes) :
    Receiving limit buffer [.closed] (.error (closedError buffer)) buffer := by
  have silent : ∀ reading ∈ ([] : List Reading), reading.goesOn := by simp
  cases buffer with
  | nil => exact .ended silent rfl
  | cons byte rest =>
    have closed : closedError (byte :: rest) = .truncated
        (if (byte :: rest).length < headerSize then headerSize
          else headerSize + Bytes.toNat ((byte :: rest).take headerSize)) (byte :: rest).length := by
      simp only [closedError, List.isEmpty_cons, Bool.false_eq_true, if_false, expectedLength_eq]
    rw [closed]
    exact .cut silent (List.append_nil _) (List.cons_ne_nil _ _)

/-- Every call is one of those that `Receiving` describes, and its reads stay within the frame. -/
theorem receiving_receiveFrom {limit : Nat} {buffer : Bytes} {source : Source ε}
    (small : limit ≤ wireLimit) (within : WithinFrame buffer) :
    ∃ readings, source.Reads readings (receiveFrom limit buffer source).2.2 ∧
      Receiving limit buffer readings (receiveFrom limit buffer source).1
        (receiveFrom limit buffer source).2.1 ∧
      WithinFrame (receiveFrom limit buffer source).2.1 := by
  have silent : ∀ reading ∈ ([] : List Reading), reading.goesOn := by simp
  fun_induction receiveFrom limit buffer source with
  | case1 buffer source error refused =>
    obtain ⟨size, known, excess, rfl⟩ := take_eq_error_iff.mp refused
    have call := @Receiving.refused limit buffer [] size silent (by simpa using known) excess
    exact ⟨[], .refl source, by simpa using call, within⟩
  | case2 buffer source payload rest found =>
    obtain ⟨fits, rfl⟩ := (take_eq_some_iff small).mp found
    obtain rfl := rest_of_withinFrame (Nat.le_trans fits small) within
    exact ⟨[], .refl source, .received silent fits (by simp), withinFrame_nil⟩
  | case3 buffer source _ bytes source' outcome ih =>
    have after := withinFrame_read source within
    rw [outcome] at after
    obtain ⟨readings, reads, call, within⟩ := ih after
    exact ⟨.bytes bytes :: readings, .read outcome reads, call.cons rfl, within⟩
  | case4 buffer source _ fault source' outcome interrupted ih =>
    obtain ⟨readings, reads, call, within⟩ := ih within
    have resumed := @Receiving.cons limit buffer _ (.fault fault) readings _ interrupted
      (by simpa only [Reading.arrived, List.append_nil] using call)
    exact ⟨.fault fault :: readings, .read outcome reads, resumed, within⟩
  | case5 buffer source _ fault source' outcome plain timeout =>
    have call := @Receiving.timedOut limit buffer [] fault silent timeout (by simpa using plain)
    exact ⟨[.fault fault], .read outcome (.refl source'), by simpa using call, within⟩
  | case6 buffer source _ fault source' outcome plain timeout =>
    have call := @Receiving.failed limit buffer [] fault silent (by simpa using timeout) (by simpa using plain)
    exact ⟨[.fault fault], .read outcome (.refl source'), by simpa using call, within⟩
  | case7 buffer source _ source' outcome =>
    exact ⟨[.closed], .read outcome (.refl source'), receiving_closed buffer, within⟩

theorem receiving_receive {reader : Reader ε} (within : WithinFrame reader.buffer) :
    ∃ readings, reader.source.Reads readings reader.receive.2.source ∧
      Receiving (effectiveLimit reader.limit) reader.buffer readings reader.receive.1
        reader.receive.2.buffer ∧
      WithinFrame reader.receive.2.buffer :=
  receiving_receiveFrom (Nat.min_le_right ..) within

/-- The results of successive calls, and the reader after them. -/
def calls : Nat → Reader ε → List (Except FrameError Bytes) × Reader ε
  | 0, reader => ([], reader)
  | count + 1, reader =>
    let (result, next) := reader.receive
    let (results, last) := calls count next
    (result :: results, last)

def payloads (results : List (Except FrameError Bytes)) : List Bytes :=
  results.filterMap Except.toOption

@[simp] theorem payloads_nil : payloads [] = [] := rfl

@[simp] theorem payloads_ok_cons (payload : Bytes) (results : List (Except FrameError Bytes)) :
    payloads (.ok payload :: results) = payload :: payloads results := rfl

@[simp] theorem payloads_error_cons (error : FrameError) (results : List (Except FrameError Bytes)) :
    payloads (.error error :: results) = payloads results := rfl

/-- Whether a call reports that a read ran out of time. -/
def reportsTimeout : Except FrameError Bytes → Bool
  | .error .timeout => true
  | _ => false

def reportedFault? : Except FrameError Bytes → Option Fault
  | .error (.io fault) => some fault
  | _ => none

def reportsEnd : Except FrameError Bytes → Bool
  | .error .endOfStream | .error (.truncated ..) => true
  | _ => false

/-- The account of successive calls, between the buffers before and after them. -/
structure Account (limit : Nat) (buffer : Bytes) (readings : List Reading)
    (results : List (Except FrameError Bytes)) (after : Bytes) : Prop where
  /-- The bytes that arrived are those of the frames returned, and those still held. -/
  conserved : buffer ++ arrivals readings = wires (payloads results) ++ after
  within : ∀ payload ∈ payloads results, payload.length ≤ limit
  /-- Every read that ran out of time is reported once. -/
  timeouts : results.countP reportsTimeout = readings.countP Reading.isTimeout
  /-- Every other fault is reported once, in order, and an interruption never. -/
  failures : results.filterMap reportedFault? = readings.filterMap Reading.failure?
  /-- Every read that brought nothing is reported once. -/
  endings : results.countP reportsEnd = readings.count .closed

/-- Accounts add up. -/
theorem Account.append {limit : Nat} {buffer middle after : Bytes} {first second : List Reading}
    {earlier later : List (Except FrameError Bytes)}
    (before : Account limit buffer first earlier middle)
    (behind : Account limit middle second later after) :
    Account limit buffer (first ++ second) (earlier ++ later) after := by
  have joined : payloads (earlier ++ later) = payloads earlier ++ payloads later :=
    List.filterMap_append ..
  refine ⟨?_, ?_, ?_, ?_, ?_⟩
  · calc
      buffer ++ arrivals (first ++ second) = (buffer ++ arrivals first) ++ arrivals second := by
        rw [arrivals_append, List.append_assoc]
      _ = wires (payloads earlier) ++ (middle ++ arrivals second) := by
        rw [before.conserved, List.append_assoc]
      _ = wires (payloads (earlier ++ later)) ++ after := by
        rw [behind.conserved, joined, wires_append, List.append_assoc]
  · intro payload member
    rw [joined] at member
    exact (List.mem_append.mp member).elim (before.within payload) (behind.within payload)
  · rw [List.countP_append, List.countP_append, before.timeouts, behind.timeouts]
  · rw [List.filterMap_append, List.filterMap_append, before.failures, behind.failures]
  · rw [List.countP_append, List.count_append, before.endings, behind.endings]

/-- Reads that a call reads on over change nothing but the bytes held. -/
theorem Account.of_goesOn (limit : Nat) (buffer : Bytes) {readings : List Reading}
    (going : ∀ reading ∈ readings, reading.goesOn) :
    Account limit buffer readings [] (buffer ++ arrivals readings) := by
  refine ⟨rfl, by simp, ?_, ?_, ?_⟩
  · symm
    apply List.countP_eq_zero.mpr
    intro reading member
    have goes := going reading member
    cases reading with
    | bytes bytes => simp [Reading.isTimeout]
    | fault fault => simp [Reading.isTimeout, Fault.not_isTimeout_of_isInterrupted goes]
    | closed => simp [Reading.isTimeout]
  · symm
    apply List.filterMap_eq_nil_iff.mpr
    intro reading member
    have goes := going reading member
    cases reading with
    | bytes bytes => rfl
    | fault fault => simp [Reading.failure?, show fault.isInterrupted = true from goes]
    | closed => rfl
  · symm
    apply List.count_eq_zero.mpr
    exact closed_not_mem_of_goesOn going

/-- The account of one call. -/
theorem Receiving.account {limit : Nat} {buffer after : Bytes} {readings : List Reading}
    {result : Except FrameError Bytes} (call : Receiving limit buffer readings result after) :
    Account limit buffer readings [result] after := by
  cases call with
  | @received _ payload going fits whole =>
    have last : Account limit (buffer ++ arrivals readings) [] [.ok payload] [] :=
      ⟨by simp [whole], by simpa using fits,
        rfl, rfl, rfl⟩
    simpa using (Account.of_goesOn limit buffer going).append last
  | @refused _ size going known excess =>
    have last : Account limit (buffer ++ arrivals readings) []
        [.error (.payloadTooLarge size limit)] (buffer ++ arrivals readings) :=
      ⟨by simp, by simp, rfl, rfl, rfl⟩
    simpa using (Account.of_goesOn limit buffer going).append last
  | @timedOut readings fault going timeout plain =>
    have last : Account limit (buffer ++ arrivals readings) [.fault fault] [.error .timeout]
        (buffer ++ arrivals readings) :=
      ⟨by simp [Reading.arrived], by simp,
        by simp [reportsTimeout, Reading.isTimeout, timeout],
        by simp [reportedFault?, Reading.failure?, timeout], rfl⟩
    exact (Account.of_goesOn limit buffer going).append last
  | @failed readings fault going timeout plain =>
    have last : Account limit (buffer ++ arrivals readings) [.fault fault] [.error (.io fault)]
        (buffer ++ arrivals readings) :=
      ⟨by simp [Reading.arrived], by simp,
        by simp [reportsTimeout, Reading.isTimeout, timeout],
        by simp [reportedFault?, Reading.failure?, timeout, plain], rfl⟩
    exact (Account.of_goesOn limit buffer going).append last
  | @ended readings going empty =>
    have last : Account limit (buffer ++ arrivals readings) [.closed] [.error .endOfStream] [] :=
      ⟨by simp [empty, Reading.arrived],
        by simp, rfl, rfl, rfl⟩
    exact (Account.of_goesOn limit buffer going).append last
  | @cut readings _ going whole nonempty =>
    have last (expected received : Nat) : Account limit (buffer ++ arrivals readings) [.closed]
        [.error (.truncated expected received)] after :=
      ⟨by simp [whole, Reading.arrived],
        by simp, rfl, rfl, rfl⟩
    exact (Account.of_goesOn limit buffer going).append (last ..)

theorem limit_receive (reader : Reader ε) : reader.receive.2.limit = reader.limit := rfl

/-- Any number of calls keeps the account. -/
theorem account_calls {reader : Reader ε} (within : WithinFrame reader.buffer) (count : Nat) :
    ∃ readings, reader.source.Reads readings (calls count reader).2.source ∧
      Account (effectiveLimit reader.limit) reader.buffer readings (calls count reader).1
        (calls count reader).2.buffer ∧
      WithinFrame (calls count reader).2.buffer ∧ (calls count reader).2.limit = reader.limit := by
  induction count generalizing reader with
  | zero =>
    have nothing : Account (effectiveLimit reader.limit) reader.buffer [] [] reader.buffer :=
      ⟨by simp, by simp, rfl, rfl, rfl⟩
    exact ⟨[], .refl _, nothing, within, rfl⟩
  | succ count ih =>
    obtain ⟨first, reads, call, held⟩ := receiving_receive within
    obtain ⟨others, more, account, last, same⟩ := ih held
    rw [limit_receive] at account same
    exact ⟨first ++ others, reads.append more, call.account.append account, last, same⟩

/-- The reader holds a header that declares more than its limit. -/
def Refuses (reader : Reader ε) (size max : Nat) : Prop :=
  declared? reader.buffer = some size ∧ effectiveLimit reader.limit = max ∧ max < size

/-- A reader that refuses stays as it is, and reads nothing. -/
theorem Refuses.receive {reader : Reader ε} {size max : Nat} (refuses : reader.Refuses size max) :
    reader.receive = (.error (.payloadTooLarge size max), reader) := by
  obtain ⟨known, rfl, excess⟩ := refuses
  have refused : take (effectiveLimit reader.limit) reader.buffer =
      .error (.payloadTooLarge size (effectiveLimit reader.limit)) :=
    take_eq_error_iff.mpr ⟨size, known, excess, rfl⟩
  have stuck : receiveFrom (effectiveLimit reader.limit) reader.buffer reader.source =
      (.error (.payloadTooLarge size (effectiveLimit reader.limit)), reader.buffer,
        reader.source) := by
    rw [receiveFrom, refused]
  simp only [Reader.receive, stuck]

theorem Refuses.calls {reader : Reader ε} {size max : Nat} (refuses : reader.Refuses size max)
    (count : Nat) : (reader.calls count).2 = reader := by
  induction count with
  | zero => rfl
  | succ count ih =>
    simp only [Reader.calls, refuses.receive]
    exact ih

theorem refuses_of_receive {reader : Reader ε} (within : WithinFrame reader.buffer) {size max : Nat}
    (refused : reader.receive.1 = .error (.payloadTooLarge size max)) :
    reader.receive.2.Refuses size max := by
  obtain ⟨readings, -, call, -⟩ := receiving_receive within
  rw [refused] at call
  generalize after : reader.receive.2.buffer = buffer at call
  cases call with
  | refused _ known excess => exact ⟨after ▸ known, rfl, excess⟩

/-- A refusal among the results of calls holds on at the end of them. -/
theorem refuses_of_mem_calls {reader : Reader ε} (within : WithinFrame reader.buffer) {count : Nat}
    {size max : Nat} (refused : .error (.payloadTooLarge size max) ∈ (reader.calls count).1) :
    (reader.calls count).2.Refuses size max := by
  induction count generalizing reader with
  | zero => simp [calls] at refused
  | succ count ih =>
    simp only [calls] at refused ⊢
    rcases List.mem_cons.mp refused with now | later
    · have refuses := refuses_of_receive within now.symm
      rwa [refuses.calls]
    · obtain ⟨_, _, _, held⟩ := receiving_receive within
      exact ih held later

/-- After any number of calls on a new reader, the frames returned and the bytes held are exactly
the bytes that the stream has delivered, every fault has been reported once, and the next call is
one of those that `Receiving` describes. Once a frame was refused it stays refused. -/
theorem receive_after_calls (source : Source ε) (limit count : Nat) :
    let reader : Reader ε := { source, limit }
    let (results, present) := reader.calls count
    let (result, next) := present.receive
    ∃ past now, source.Reads past present.source ∧ present.source.Reads now next.source ∧
      Account (effectiveLimit limit) [] past results present.buffer ∧
      Receiving (effectiveLimit limit) present.buffer now result next.buffer ∧
      ∀ size max, .error (.payloadTooLarge size max) ∈ results →
        result = .error (.payloadTooLarge size max) ∧ now = [] ∧ next = present := by
  intro reader
  obtain ⟨past, reads, account, held, same⟩ := @account_calls _ reader withinFrame_nil count
  obtain ⟨now, reading, call, -⟩ := receiving_receive held
  rw [same] at call
  refine ⟨past, now, reads, reading, account, call, ?_⟩
  intro size max refused
  have refuses := refuses_of_mem_calls withinFrame_nil refused
  have stays := refuses.receive
  rw [stays] at reading
  exact ⟨congrArg Prod.fst stays, reading.unique (.refl _), congrArg Prod.snd stays⟩

end FramedTasks.Frame.Reader
