import FramedTasks.Frame.Run
import Mathlib.Data.List.Induction
import Mathlib.Tactic.ByContra

/-! # Frames at the front of a buffer

A header of four bytes and the length that it declares determine each other, so a payload within
the limit is found exactly where its frame stands (`take_eq_some_iff`). A buffer is refused when
it declares too much, and held back while it is shorter than the frame that it declares.
-/

namespace FramedTasks

namespace Bytes

theorem bigEndian_toNat (bytes : Bytes) : bigEndian bytes.length (toNat bytes) = bytes := by
  induction bytes using List.reverseRecOn with
  | nil => rfl
  | append_singleton bytes byte ih =>
    have small := byte.toNat_lt
    have high : (toNat bytes * 256 + byte.toNat) / 256 = toNat bytes := by omega
    have low : UInt8.ofNat (toNat bytes * 256 + byte.toNat) = byte := by
      apply UInt8.toNat_inj.mp
      rw [UInt8.toNat_ofNat']
      omega
    rw [List.length_append, List.length_singleton, bigEndian, toNat_append_singleton, high, low, ih]

theorem toNat_lt (bytes : Bytes) : toNat bytes < Nat.pow 256 bytes.length := by
  induction bytes using List.reverseRecOn with
  | nil => exact Nat.one_pos
  | append_singleton bytes byte ih =>
    have small := byte.toNat_lt
    have step : Nat.pow 256 (bytes.length + 1) = Nat.pow 256 bytes.length * 256 := rfl
    rw [toNat_append_singleton, List.length_append, List.length_singleton, step]
    omega

end Bytes

namespace Frame

variable {limit size : Nat} {buffer more payload rest : Bytes}

@[simp] theorem length_wire (payload : Bytes) : (wire payload).length = headerSize + payload.length := by
  simp [wire]

/-- Every frame has a header. -/
theorem wire_ne_nil (payload : Bytes) : wire payload ≠ [] := by
  apply List.ne_nil_of_length_pos
  rw [length_wire]
  exact Nat.add_pos_left (by decide) _

theorem declared?_of_length (complete : headerSize ≤ buffer.length) :
    declared? buffer = some (Bytes.toNat (buffer.take headerSize)) := by
  have whole : ¬ (buffer.take headerSize).length < headerSize := by
    rw [List.length_take]
    omega
  simp only [declared?, if_neg whole]

theorem declared?_eq_none_iff : declared? buffer = none ↔ buffer.length < headerSize := by
  constructor
  · intro unknown
    by_contra complete
    rw [declared?_of_length (by omega)] at unknown
    contradiction
  · intro short
    have cut : (buffer.take headerSize).length < headerSize := by
      rw [List.length_take]
      omega
    simp only [declared?, if_pos cut]

theorem length_of_declared? (known : declared? buffer = some size) : headerSize ≤ buffer.length := by
  by_contra short
  rw [declared?_eq_none_iff.mpr (by omega)] at known
  contradiction

theorem declared?_eq_some_iff :
    declared? buffer = some size ↔
      headerSize ≤ buffer.length ∧ size = Bytes.toNat (buffer.take headerSize) := by
  constructor
  · intro known
    have complete := length_of_declared? known
    rw [declared?_of_length complete] at known
    exact ⟨complete, (Option.some.inj known).symm⟩
  · rintro ⟨complete, rfl⟩
    exact declared?_of_length complete

/-- A complete header keeps its meaning when bytes are put behind it. -/
theorem declared?_append (known : declared? buffer = some size) :
    declared? (buffer ++ more) = some size := by
  obtain ⟨complete, rfl⟩ := declared?_eq_some_iff.mp known
  apply declared?_eq_some_iff.mpr
  constructor
  · rw [List.length_append]
    omega
  · rw [List.take_append_of_le_length complete]

theorem declared?_wire (fits : payload.length ≤ wireLimit) :
    declared? (wire payload ++ rest) = some payload.length := by
  apply declared?_eq_some_iff.mpr
  constructor
  · rw [List.length_append, length_wire]
    omega
  · have header : (wire payload ++ rest).take headerSize = Bytes.bigEndian headerSize payload.length := by
      rw [wire, List.append_assoc]
      exact List.take_left' (Bytes.length_bigEndian ..)
    have small : payload.length < Nat.pow 256 headerSize := by
      have whole : Nat.pow 256 headerSize = wireLimit + 1 := rfl
      omega
    rw [header, Bytes.toNat_bigEndian small]

theorem expectedLength_of_declared? (known : declared? buffer = some size) :
    expectedLength buffer = headerSize + size := by
  simp only [expectedLength, known]

/-- The length that is known of a frame: four bytes while the header is incomplete. -/
theorem expectedLength_eq (buffer : Bytes) :
    expectedLength buffer =
      if buffer.length < headerSize then headerSize
      else headerSize + Bytes.toNat (buffer.take headerSize) := by
  split
  · next short => simp only [expectedLength, declared?_eq_none_iff.mpr short]
  · next complete => exact expectedLength_of_declared? (declared?_of_length (by omega))

/-- A buffer that declares the length of what follows its header starts with a frame. -/
theorem eq_wire_of_declared? (known : declared? buffer = some size)
    (whole : headerSize + size ≤ buffer.length) :
    buffer = wire ((buffer.drop headerSize).take size) ++ buffer.drop (headerSize + size) := by
  obtain ⟨complete, rfl⟩ := declared?_eq_some_iff.mp known
  have length : ((buffer.drop headerSize).take (Bytes.toNat (buffer.take headerSize))).length =
      Bytes.toNat (buffer.take headerSize) := by
    rw [List.length_take, List.length_drop]
    omega
  have header : Bytes.bigEndian headerSize (Bytes.toNat (buffer.take headerSize)) =
      buffer.take headerSize := by
    have width : (buffer.take headerSize).length = headerSize := by
      rw [List.length_take]
      omega
    have same := Bytes.bigEndian_toNat (buffer.take headerSize)
    rwa [width] at same
  rw [wire, length, header, List.append_assoc, ← List.drop_drop, List.take_append_drop,
    List.take_append_drop]

theorem take_eq_error_iff {error : FrameError} :
    take limit buffer = .error error ↔
      ∃ size, declared? buffer = some size ∧ limit < size ∧ error = .payloadTooLarge size limit := by
  cases known : declared? buffer with
  | none => simp [take, known]
  | some size =>
    by_cases excess : limit < size
    · simp [take, known, excess, eq_comm]
    · simp only [take, known, if_neg excess]
      split <;> simp [excess]

/-- A buffer is held back exactly when it ends before the frame that it declares. -/
theorem take_eq_none_iff :
    take limit buffer = .ok none ↔
      buffer.length < expectedLength buffer ∧ ∀ size, declared? buffer = some size → size ≤ limit := by
  cases known : declared? buffer with
  | none =>
    have short := declared?_eq_none_iff.mp known
    simp [take, known, expectedLength, short]
  | some size =>
    have complete := length_of_declared? known
    by_cases excess : limit < size
    · simp [take, known, excess]
    · have fits : size ≤ limit := by omega
      simp only [take, known, if_neg excess, List.length_take, List.length_drop,
        expectedLength_of_declared? known, Option.some.injEq, forall_eq', fits, and_true]
      split <;> simp <;> omega

/-- A payload is found exactly where its frame stands. -/
theorem take_eq_some_iff (small : limit ≤ wireLimit) :
    take limit buffer = .ok (some (payload, rest)) ↔
      payload.length ≤ limit ∧ buffer = wire payload ++ rest := by
  constructor
  · intro found
    cases known : declared? buffer with
    | none => simp [take, known] at found
    | some size =>
      by_cases excess : limit < size
      · simp [take, known, excess] at found
      · simp only [take, known, if_neg excess] at found
        split at found
        · simp at found
        · next whole =>
          simp only [Except.ok.injEq, Option.some.injEq, Prod.mk.injEq, List.drop_drop] at found
          obtain ⟨rfl, rfl⟩ := found
          rw [List.length_take, List.length_drop] at whole
          have complete := length_of_declared? known
          refine ⟨?_, eq_wire_of_declared? known (by omega)⟩
          rw [List.length_take]
          omega
  · rintro ⟨fits, rfl⟩
    have body : (wire payload ++ rest).drop headerSize = payload ++ rest := by
      rw [wire, List.append_assoc]
      exact List.drop_left' (Bytes.length_bigEndian ..)
    have declared := @declared?_wire payload rest (Nat.le_trans fits small)
    have within : ¬ limit < payload.length := by omega
    simp only [take, declared, if_neg within, body, List.take_left, List.drop_left,
      Nat.lt_irrefl, if_false]

/-- A buffer that is filled up to the length it declares holds no more than one frame. -/
theorem expectedLength_append_le {chunk : Bytes} (more : chunk.length + buffer.length ≤ expectedLength buffer) :
    (buffer ++ chunk).length ≤ expectedLength (buffer ++ chunk) := by
  cases known : declared? buffer with
  | none =>
    have least : headerSize ≤ expectedLength (buffer ++ chunk) := by
      rw [expectedLength_eq]
      split <;> omega
    simp only [expectedLength, known] at more
    rw [List.length_append]
    omega
  | some size =>
    rw [expectedLength_of_declared? known] at more
    rw [expectedLength_of_declared? (declared?_append known), List.length_append]
    omega

section Run

variable {payloads : List Bytes}

@[simp] theorem wires_nil : wires [] = [] := rfl

@[simp] theorem wires_cons (payload : Bytes) (payloads : List Bytes) :
    wires (payload :: payloads) = wire payload ++ wires payloads := rfl

@[simp] theorem wires_append (first second : List Bytes) :
    wires (first ++ second) = wires first ++ wires second := by
  simp [wires]

theorem split_of_take (found : take limit buffer = .ok (some (payload, rest))) :
    split limit buffer = (payload :: (split limit rest).1, (split limit rest).2) := by
  rw [split]
  split
  · next payload' rest' found' =>
    rw [found] at found'
    simp only [Except.ok.injEq, Option.some.injEq, Prod.mk.injEq] at found'
    obtain ⟨rfl, rfl⟩ := found'
    rfl
  · next other => exact (other _ _ found).elim

/-- Splitting finds the payloads of the frames that stand at the front. -/
theorem split_wires_append (small : limit ≤ wireLimit)
    (fits : ∀ payload ∈ payloads, payload.length ≤ limit) :
    split limit (wires payloads ++ rest) =
      (payloads ++ (split limit rest).1, (split limit rest).2) := by
  induction payloads with
  | nil => rfl
  | cons payload payloads ih =>
    have first := fits payload (List.mem_cons_self ..)
    have others := ih fun other member => fits other (List.mem_cons_of_mem _ member)
    have found : take limit (wires (payload :: payloads) ++ rest) =
        .ok (some (payload, wires payloads ++ rest)) :=
      (take_eq_some_iff small).mpr ⟨first, by rw [wires_cons, List.append_assoc]⟩
    rw [split_of_take found, others]
    rfl

end Run

end Frame

end FramedTasks
