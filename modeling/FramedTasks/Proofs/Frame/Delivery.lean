import FramedTasks.Frame.Run
import FramedTasks.Proofs.Frame.Receiving
import FramedTasks.Proofs.Stream.Brings

/-! # Receiving from a stream that is closed in the end

What calls of a reader return depends on the bytes of the stream alone: the frames at the front of
them in order, and then `ending`, the reason why there is no further frame. How the bytes are cut
and delayed decides only how often a call runs out of time (`Reader.Received`). Where nothing
delays the bytes, the results are those of `split` (`Reader.calls_split`).
-/

namespace FramedTasks.Frame

/-- What is reported of bytes that no frame stands in front of, when no more bytes come. -/
def ending (limit : Nat) (bytes : Bytes) : FrameError :=
  match take limit bytes with
  | .error error => error
  | .ok _ => Reader.closedError bytes

section Take

variable {limit : Nat} {buffer more payload rest : Bytes} {error : FrameError}

/-- A frame stays in front when bytes are put behind it. -/
theorem take_append (small : limit ≤ wireLimit) (found : take limit buffer = .ok (some (payload, rest))) :
    take limit (buffer ++ more) = .ok (some (payload, rest ++ more)) := by
  obtain ⟨fits, rfl⟩ := (take_eq_some_iff small).mp found
  exact (take_eq_some_iff small).mpr ⟨fits, List.append_assoc ..⟩

/-- A buffer that is refused stays refused. -/
theorem take_append_of_error (refused : take limit buffer = .error error) :
    take limit (buffer ++ more) = .error error := by
  obtain ⟨size, known, excess, rfl⟩ := take_eq_error_iff.mp refused
  exact take_eq_error_iff.mpr ⟨size, declared?_append known, excess, rfl⟩

theorem ending_of_error (refused : take limit buffer = .error error) : ending limit buffer = error := by
  simp only [ending, refused]

theorem ending_of_none (incomplete : take limit buffer = .ok none) :
    ending limit buffer = Reader.closedError buffer := by
  simp only [ending, incomplete]

/-- The end of the bytes is final. -/
theorem ending_ne_timeout (limit : Nat) (bytes : Bytes) : ending limit bytes ≠ .timeout := by
  unfold ending
  split
  · next refused =>
    obtain ⟨size, rfl⟩ := error_of_take refused
    simp
  · simp only [Reader.closedError]
    split <;> simp

theorem split_of_take_ne (other : ∀ payload rest, take limit buffer ≠ .ok (some (payload, rest))) :
    split limit buffer = ([], buffer) := by
  rw [split]
  split
  · next payload rest found => exact absurd found (other payload rest)
  · rfl

theorem take_nil (limit : Nat) : take limit [] = .ok none := rfl

theorem split_nil (limit : Nat) : split limit [] = ([], []) :=
  split_of_take_ne (by simp [take_nil])

end Take

theorem wires_ne_nil {payloads : List Bytes} (filled : payloads ≠ []) : wires payloads ≠ [] := by
  obtain ⟨payload, rest, rfl⟩ := List.exists_cons_of_ne_nil filled
  rw [wires_cons]
  exact List.append_ne_nil_of_left_ne_nil (wire_ne_nil payload) _

/-- The frames at the front of a run of frames are the first ones of it. -/
theorem prefix_of_wires_prefix {front payloads : List Bytes}
    (small : ∀ payload ∈ front, payload.length ≤ wireLimit)
    (fits : ∀ payload ∈ payloads, payload.length ≤ wireLimit)
    (ahead : wires front <+: wires payloads) : front <+: payloads := by
  obtain ⟨rest, whole⟩ := ahead
  have all := @split_wires_append wireLimit [] payloads (Nat.le_refl _) fits
  have some := @split_wires_append wireLimit rest front (Nat.le_refl _) small
  rw [List.append_nil, ← whole, some] at all
  rw [split_nil, List.append_nil] at all
  exact ⟨_, congrArg Prod.fst all⟩

namespace Reader

variable {ε : Type}

/-- What a call comes to, by the bytes that the reader holds or has still to come: its result, the
buffer after it and the events to come. -/
inductive Received (limit : Nat) (bytes : Bytes) :
    Except FrameError Bytes → Bytes → List (SourceEvent ε) → Prop
  /-- The first frame, and nothing of the next one is held. -/
  | frame {payload rest : Bytes} {events : List (SourceEvent ε)} :
      take limit bytes = .ok (some (payload, rest)) → Source.Brings events rest →
      Received limit bytes (.ok payload) [] events
  /-- A read ran out of time, and no byte is lost. -/
  | delayed {buffer left : Bytes} {events : List (SourceEvent ε)} :
      bytes = buffer ++ left → WithinFrame buffer → Source.Brings events left →
      Received limit bytes (.error .timeout) buffer events
  | drained {buffer : Bytes} {events : List (SourceEvent ε)} :
      (∀ payload rest, take limit bytes ≠ .ok (some (payload, rest))) →
      Received limit bytes (.error (ending limit bytes)) buffer events

namespace Received

variable {limit : Nat} {bytes payload buffer : Bytes} {error : FrameError}
  {events : List (SourceEvent ε)}

theorem of_ok (received : Received limit bytes (.ok payload) buffer events) :
    ∃ rest, take limit bytes = .ok (some (payload, rest)) ∧ Source.Brings events rest ∧
      buffer = [] := by
  cases received with
  | frame found brings => exact ⟨_, found, brings, rfl⟩

theorem of_timeout (received : Received limit bytes (.error .timeout) buffer events) :
    ∃ left, bytes = buffer ++ left ∧ WithinFrame buffer ∧ Source.Brings events left := by
  generalize failure : (.error .timeout : Except FrameError Bytes) = result at received
  cases received with
  | frame => contradiction
  | delayed whole within brings => exact ⟨_, whole, within, brings⟩
  | drained => exact absurd (Except.error.inj failure).symm (ending_ne_timeout _ _)

theorem of_error (received : Received limit bytes (.error error) buffer events)
    (final : error ≠ .timeout) :
    (∀ payload rest, take limit bytes ≠ .ok (some (payload, rest))) ∧ ending limit bytes = error := by
  generalize failure : (.error error : Except FrameError Bytes) = result at received
  cases received with
  | frame => contradiction
  | delayed => exact absurd (Except.error.inj failure) final
  | drained other => exact ⟨other, (Except.error.inj failure).symm⟩

end Received

/-- A buffer that holds no complete frame wants more bytes. -/
theorem wanted_pos {limit : Nat} {buffer : Bytes} (incomplete : take limit buffer = .ok none) :
    0 < wanted buffer := by
  have short := (take_eq_none_iff.mp incomplete).1
  have positive : 0 < chunkSize := by decide
  simp only [wanted]
  omega

theorem received_receiveFrom {limit : Nat} {buffer left : Bytes} {source : Source ε}
    (small : limit ≤ wireLimit) (within : WithinFrame buffer) (brings : Source.Brings source.events left) :
    Received limit (buffer ++ left) (receiveFrom limit buffer source).1
      (receiveFrom limit buffer source).2.1 (receiveFrom limit buffer source).2.2.events := by
  fun_induction receiveFrom limit buffer source generalizing left with
  | case1 buffer source error refused =>
    have stays := @take_append_of_error limit buffer left error refused
    rw [← ending_of_error stays]
    exact .drained (by simp [stays])
  | case2 buffer source payload rest found =>
    have stays := @take_append limit buffer left payload rest small found
    obtain ⟨fits, rfl⟩ := (take_eq_some_iff small).mp found
    obtain rfl := rest_of_withinFrame (Nat.le_trans fits small) within
    exact .frame stays brings
  | case3 buffer source incomplete bytes source' outcome ih =>
    have read := brings.read (wanted_pos incomplete)
    have after := withinFrame_read source within
    rw [outcome] at read after
    cases read with
    | arrived split brings =>
      rw [split, ← List.append_assoc]
      exact ih after brings
  | case4 buffer source incomplete fault source' outcome interrupted ih =>
    have read := brings.read (wanted_pos incomplete)
    rw [outcome] at read
    cases read with
    | delayed _ brings => exact ih within brings
  | case5 buffer source incomplete fault source' outcome plain timeout =>
    have read := brings.read (wanted_pos incomplete)
    rw [outcome] at read
    cases read with
    | delayed _ brings => exact .delayed rfl within brings
  | case6 buffer source incomplete fault source' outcome plain noTimeout =>
    have read := brings.read (wanted_pos incomplete)
    rw [outcome] at read
    cases read with
    | delayed waits _ => simp [plain, noTimeout] at waits
  | case7 buffer source incomplete source' outcome =>
    have read := brings.read (wanted_pos incomplete)
    rw [outcome] at read
    cases read with
    | closed nothing =>
      rw [nothing, List.append_nil, ← ending_of_none incomplete]
      exact .drained (by simp [incomplete])

theorem received_receive {reader : Reader ε} {left : Bytes} (within : WithinFrame reader.buffer)
    (brings : Source.Brings reader.source.events left) :
    Received (effectiveLimit reader.limit) (reader.buffer ++ left) reader.receive.1
      reader.receive.2.buffer reader.receive.2.source.events :=
  received_receiveFrom (Nat.min_le_right ..) within brings

/-- Receiving keeps to what may happen elsewhere. -/
theorem sees_receiveFrom {kind : ε → Prop} {source : Source ε} (sees : source.Sees kind)
    (limit : Nat) (buffer : Bytes) : (receiveFrom limit buffer source).2.2.Sees kind := by
  fun_induction receiveFrom limit buffer source with
  | case1 => exact sees
  | case2 => exact sees
  | case3 buffer source _ bytes source' outcome ih =>
    have later := sees.read (wanted buffer)
    rw [outcome] at later
    exact ih later
  | case4 buffer source _ fault source' outcome _ ih =>
    have later := sees.read (wanted buffer)
    rw [outcome] at later
    exact ih later
  | case5 buffer source _ fault source' outcome =>
    have later := sees.read (wanted buffer)
    rwa [outcome] at later
  | case6 buffer source _ fault source' outcome =>
    have later := sees.read (wanted buffer)
    rwa [outcome] at later
  | case7 buffer source _ source' outcome =>
    have later := sees.read (wanted buffer)
    rwa [outcome] at later

theorem sees_receive {kind : ε → Prop} {reader : Reader ε} (sees : reader.source.Sees kind) :
    reader.receive.2.source.Sees kind :=
  sees_receiveFrom sees ..

/-- A call does not run out of time over a stream on which no read fails. -/
theorem prompt_receiveFrom {limit : Nat} {buffer : Bytes} {source : Source ε}
    (prompt : Source.Prompt source.events) :
    (receiveFrom limit buffer source).1 ≠ .error .timeout ∧
      Source.Prompt (receiveFrom limit buffer source).2.2.events := by
  fun_induction receiveFrom limit buffer source with
  | case1 buffer source error refused =>
    obtain ⟨size, rfl⟩ := error_of_take refused
    exact ⟨by simp, prompt⟩
  | case2 => exact ⟨by simp, prompt⟩
  | case3 buffer source incomplete bytes source' outcome ih =>
    have read := prompt.read (wanted buffer)
    rw [outcome] at read
    exact ih read.2
  | case4 buffer source incomplete fault source' outcome
  | case5 buffer source incomplete fault source' outcome
  | case6 buffer source incomplete fault source' outcome =>
    have read := prompt.read (wanted buffer)
    rw [outcome] at read
    exact absurd rfl (read.1 fault)
  | case7 buffer source incomplete source' outcome =>
    have read := prompt.read (wanted buffer)
    rw [outcome] at read
    refine ⟨?_, read.2⟩
    simp only [closedError]
    split <;> simp

theorem prompt_receive {reader : Reader ε} (prompt : Source.Prompt reader.source.events) :
    reader.receive.1 ≠ .error .timeout ∧ Source.Prompt reader.receive.2.source.events :=
  prompt_receiveFrom prompt

/-- Successive calls return the frames at the front of the bytes, and then what ends them. -/
theorem calls_split {reader : Reader ε} {left : Bytes} (within : WithinFrame reader.buffer)
    (brings : Source.Brings reader.source.events left) (prompt : Source.Prompt reader.source.events) :
    let (payloads, rest) := split (effectiveLimit reader.limit) (reader.buffer ++ left)
    (reader.calls (payloads.length + 1)).1 =
      payloads.map .ok ++ [.error (ending (effectiveLimit reader.limit) rest)] := by
  generalize limit : effectiveLimit reader.limit = most
  generalize bytes : reader.buffer ++ left = whole
  fun_induction split most whole generalizing reader left with
  | case1 whole payload rest found payloads last others ih =>
    have received := received_receive within brings
    obtain ⟨notTimeout, later⟩ := @prompt_receive _ reader prompt
    have same := limit_receive reader
    rcases outcome : reader.receive with ⟨result, next⟩
    rw [limit, bytes, outcome] at received
    rw [outcome] at notTimeout later same
    have tail (brings : Source.Brings next.source.events rest) (empty : next.buffer = []) :=
      ih (empty ▸ withinFrame_nil) brings later (same ▸ limit) (by rw [empty, List.nil_append])
    rw [others] at tail
    generalize held : next.buffer = buffer at received
    cases received with
    | frame first brings =>
      rw [first] at found
      obtain ⟨rfl, rfl⟩ : _ = payload ∧ _ = rest := by simpa using found
      simp only [calls, outcome, List.length_cons, List.map_cons, List.cons_append]
      exact congrArg _ (tail brings held)
    | delayed => exact absurd rfl notTimeout
    | drained other => exact absurd found (other payload rest)
  | case2 whole other =>
    have received := received_receive within brings
    have notTimeout := (@prompt_receive _ reader prompt).1
    rcases outcome : reader.receive with ⟨result, next⟩
    rw [limit, bytes, outcome] at received
    rw [outcome] at notTimeout
    simp only [calls, outcome]
    generalize next.buffer = buffer at received
    cases received with
    | frame first _ => exact absurd first (other _ _)
    | delayed => exact absurd rfl notTimeout
    | drained => rfl

/-- A call finds the end of the stream only when it is shut, and no byte is held or to come. -/
theorem nothing_of_endOfStream {limit : Nat} {buffer bytes : Bytes} {shut : Bool}
    {source : Source ε} (offers : Source.Offers shut source.events bytes)
    (ended : (receiveFrom limit buffer source).1 = .error .endOfStream) :
    shut ∧ buffer ++ bytes = [] := by
  fun_induction receiveFrom limit buffer source generalizing bytes with
  | case1 buffer source error refused =>
    obtain ⟨size, rfl⟩ := error_of_take refused
    simp at ended
  | case2 => simp at ended
  | case3 buffer source incomplete found source' outcome ih =>
    have read := offers.read (wanted_pos incomplete)
    rw [outcome] at read
    cases read with
    | arrived split offers =>
      rw [split, ← List.append_assoc]
      exact ih offers ended
  | case4 buffer source incomplete fault source' outcome interrupted ih =>
    have read := offers.read (wanted_pos incomplete)
    rw [outcome] at read
    cases read with
    | failed resumes => exact ih (resumes interrupted) ended
  | case5 => simp at ended
  | case6 => simp at ended
  | case7 buffer source incomplete source' outcome =>
    have read := offers.read (wanted_pos incomplete)
    rw [outcome] at read
    cases read with
    | closed nothing isShut =>
      have empty : buffer = [] := by
        simp only [closedError] at ended
        split at ended
        · next empty => exact List.isEmpty_iff.mp empty
        · simp at ended
      exact ⟨isShut, by rw [empty, nothing, List.nil_append]⟩

end Reader

end FramedTasks.Frame
