import FramedTasks.Frame.Queue
import FramedTasks.Proofs.Frame.Wire

/-! # Putting frames and taking them back

A payload is taken from a buffer exactly where its frame stands in front (`take_eq_some`). A buffer
from which nothing is taken stays as it is, and its first bytes tell why: they declare too much
(`take_eq_error`), or the frame that they declare is not complete (`take_eq_none`). Frames that were
put one after another are taken in the same order, and an unfinished frame behind them stays
(`takes_wires`).
-/

namespace FramedTasks.Frame

variable {limit size : Nat} {buffer payload rest : Bytes}

/-- A header declares no more than it can hold. -/
theorem le_wireLimit_of_declared? (known : declared? buffer = some size) : size ≤ wireLimit := by
  obtain ⟨complete, rfl⟩ := declared?_eq_some_iff.mp known
  have width : (buffer.take headerSize).length = headerSize := by
    rw [List.length_take]
    omega
  have small := Bytes.toNat_lt (buffer.take headerSize)
  rw [width] at small
  have whole : Nat.pow 256 headerSize = wireLimit + 1 := rfl
  omega

/-- A limit above what a header can hold is none. -/
theorem take_eq_take_wireLimit (large : wireLimit ≤ limit) : take limit buffer = take wireLimit buffer := by
  cases known : declared? buffer with
  | none => simp only [take, known]
  | some size =>
    have small := le_wireLimit_of_declared? known
    have within : ¬ limit < size := by omega
    have fits : ¬ wireLimit < size := by omega
    simp only [take, known, if_neg within, if_neg fits]

/-- A payload is found exactly where its frame stands, whatever the limit. -/
theorem take_eq_some_iff_fits :
    take limit buffer = .ok (some (payload, rest)) ↔
      payload.length ≤ limit ∧ payload.length ≤ wireLimit ∧ buffer = wire payload ++ rest := by
  rcases Nat.le_total limit wireLimit with small | large
  · rw [take_eq_some_iff small]
    constructor
    · rintro ⟨fits, whole⟩
      exact ⟨fits, Nat.le_trans fits small, whole⟩
    · rintro ⟨fits, -, whole⟩
      exact ⟨fits, whole⟩
  · rw [take_eq_take_wireLimit large, take_eq_some_iff (Nat.le_refl _)]
    constructor
    · rintro ⟨fits, whole⟩
      exact ⟨Nat.le_trans fits large, fits, whole⟩
    · rintro ⟨-, fits, whole⟩
      exact ⟨fits, whole⟩

namespace Queue

variable {payloads : List Bytes} {error : FrameError} {further cut : Bytes}

/-- A frame that fits is put behind what is there; nothing else is put. -/
theorem put_eq (payload buffer : Bytes) :
    put payload buffer =
      if payload.length ≤ wireLimit then (.ok (), buffer ++ wire payload)
      else (.error (.payloadTooLarge payload.length wireLimit), buffer) := by
  by_cases fits : payload.length ≤ wireLimit
  · rw [put, append, if_neg (Nat.not_lt.mpr fits), if_pos fits]
  · rw [put, append, if_pos (Nat.not_le.mp fits), if_neg fits]

/-- What is put into an empty buffer is the frame of the payload. -/
theorem put_nil_eq_ok {frame : Bytes} :
    put payload [] = (.ok (), frame) ↔ payload.length ≤ wireLimit ∧ frame = wire payload := by
  rw [put_eq]
  by_cases fits : payload.length ≤ wireLimit
  · simp [fits, eq_comm]
  · simp [fits]

theorem take_eq_some :
    take limit buffer = (.ok (some payload), rest) ↔
      payload.length ≤ limit ∧ payload.length ≤ wireLimit ∧ buffer = wire payload ++ rest := by
  rw [← take_eq_some_iff_fits, take]
  cases Frame.take limit buffer with
  | error error => simp
  | ok found =>
    cases found with
    | none => simp
    | some frame => simp [Prod.ext_iff]

theorem take_eq_error :
    take limit buffer = (.error error, rest) ↔
      rest = buffer ∧ headerSize ≤ buffer.length ∧
        limit < Bytes.toNat (buffer.take headerSize) ∧
        error = .payloadTooLarge (Bytes.toNat (buffer.take headerSize)) limit := by
  have refused : take limit buffer = (.error error, rest) ↔
      rest = buffer ∧ Frame.take limit buffer = .error error := by
    rw [take]
    cases Frame.take limit buffer with
    | error other => simp [and_comm, eq_comm]
    | ok found => cases found <;> simp
  rw [refused, take_eq_error_iff]
  refine and_congr_right fun _ => ?_
  constructor
  · rintro ⟨size, known, excess, rfl⟩
    obtain ⟨complete, rfl⟩ := declared?_eq_some_iff.mp known
    exact ⟨complete, excess, rfl⟩
  · rintro ⟨complete, excess, rfl⟩
    exact ⟨_, declared?_of_length complete, excess, rfl⟩

theorem take_eq_none :
    take limit buffer = (.ok none, rest) ↔
      rest = buffer ∧ (buffer.length < headerSize ∨
        Bytes.toNat (buffer.take headerSize) ≤ limit ∧
          buffer.length < headerSize + Bytes.toNat (buffer.take headerSize)) := by
  have held : take limit buffer = (.ok none, rest) ↔
      rest = buffer ∧ Frame.take limit buffer = .ok none := by
    rw [take]
    cases Frame.take limit buffer with
    | error other => simp
    | ok found => cases found <;> simp [eq_comm]
  rw [held, take_eq_none_iff]
  refine and_congr_right fun _ => ?_
  by_cases short : buffer.length < headerSize
  · have unknown := declared?_eq_none_iff.mpr short
    simp [expectedLength, unknown, short]
  · have known := declared?_of_length (Nat.not_lt.mp short)
    simp [expectedLength_of_declared? known, known, short, and_comm]

/-- No frame is the beginning of another one. -/
theorem wire_append_inj {other rest' : Bytes} (fits : payload.length ≤ wireLimit)
    (fits' : other.length ≤ wireLimit) (same : wire payload ++ rest = wire other ++ rest') :
    payload = other ∧ rest = rest' := by
  have first : take wireLimit (wire payload ++ rest) = (.ok (some payload), rest) :=
    take_eq_some.mpr ⟨fits, fits, rfl⟩
  have second : take wireLimit (wire payload ++ rest) = (.ok (some other), rest') :=
    take_eq_some.mpr ⟨fits', fits', same⟩
  rw [first] at second
  simpa using second

theorem puts_of_fits (fits : ∀ payload ∈ payloads, payload.length ≤ wireLimit) (buffer : Bytes) :
    puts payloads buffer = (payloads.map fun _ => .ok (), buffer ++ wires payloads) := by
  induction payloads generalizing buffer with
  | nil => simp [puts]
  | cons payload payloads ih =>
    have first := fits payload (List.mem_cons_self ..)
    have others := ih fun other member => fits other (List.mem_cons_of_mem _ member)
    rw [puts, put_eq, if_pos first]
    simp only [others, List.map_cons, wires_cons, List.append_assoc]

/-- An unfinished frame is left alone. -/
theorem take_of_cut (within : further.length ≤ limit) (fits : further.length ≤ wireLimit)
    (begins : cut <+: wire further) (unfinished : cut ≠ wire further) :
    take limit cut = (.ok none, cut) := by
  obtain ⟨missing, whole⟩ := begins
  have lacking : missing ≠ [] := by
    rintro rfl
    exact unfinished ((List.append_nil cut).symm.trans whole)
  have shorter : cut.length < headerSize + further.length := by
    have length := congrArg List.length whole
    rw [List.length_append, length_wire] at length
    have positive := List.length_pos_iff.mpr lacking
    omega
  refine take_eq_none.mpr ⟨rfl, ?_⟩
  by_cases short : cut.length < headerSize
  · exact .inl short
  · -- a complete header declares the length of the further payload
    have known : declared? (cut ++ missing) = some (Bytes.toNat (cut.take headerSize)) :=
      declared?_append (declared?_of_length (Nat.not_lt.mp short))
    have declares : declared? (wire further ++ []) = some further.length := declared?_wire fits
    rw [List.append_nil, ← whole] at declares
    have same := Option.some.inj (known.symm.trans declares)
    exact .inr ⟨by omega, by omega⟩

/-- Frames come back in the order in which they stand, and then nothing more. -/
theorem takes_wires (within : ∀ payload ∈ payloads, payload.length ≤ limit ∧ payload.length ≤ wireLimit)
    (waits : take limit cut = (.ok none, cut)) (count : Nat) :
    takes limit count (wires payloads ++ cut) =
      ((payloads.take count).map (fun payload => .ok (some payload)) ++
          List.replicate (count - payloads.length) (.ok none),
        wires (payloads.drop count) ++ cut) := by
  induction count generalizing payloads with
  | zero => simp [takes]
  | succ count ih =>
    cases payloads with
    | nil =>
      have others := @ih [] within
      rw [wires_nil, List.nil_append] at others
      rw [takes, wires_nil, List.nil_append, waits]
      simp [others, List.replicate_succ]
    | cons payload payloads =>
      obtain ⟨small, fits⟩ := within payload (List.mem_cons_self ..)
      have first : take limit (wires (payload :: payloads) ++ cut) =
          (.ok (some payload), wires payloads ++ cut) :=
        take_eq_some.mpr ⟨small, fits, List.append_assoc ..⟩
      have others := ih fun other member => within other (List.mem_cons_of_mem _ member)
      rw [takes, first]
      simp [others]

/-- Putting and taking are inverse to each other, and neither does half of its work. What is taken
was in front as a frame, which one payload only has; a buffer from which nothing is taken stays, and
is refused or held back for what its first four bytes declare. A frame is put whole or not at all.
Payloads that were put one after another are taken in order, and then nothing more of an unfinished
frame, which stays. -/
theorem put_take_inverse (limit : Nat) :
    (∀ buffer payload rest, take limit buffer = (.ok (some payload), rest) ↔
      payload.length ≤ limit ∧ ∃ frame, put payload [] = (.ok (), frame) ∧ buffer = frame ++ rest) ∧
    (∀ first second frame frame' rest rest', put first [] = (.ok (), frame) →
      put second [] = (.ok (), frame') → frame ++ rest = frame' ++ rest' →
      first = second ∧ rest = rest') ∧
    (∀ buffer error rest, take limit buffer = (.error error, rest) ↔
      rest = buffer ∧ 4 ≤ buffer.length ∧ limit < Bytes.toNat (buffer.take 4) ∧
        error = .payloadTooLarge (Bytes.toNat (buffer.take 4)) limit) ∧
    (∀ buffer rest, take limit buffer = (.ok none, rest) ↔
      rest = buffer ∧ (buffer.length < 4 ∨ Bytes.toNat (buffer.take 4) ≤ limit ∧
        buffer.length < 4 + Bytes.toNat (buffer.take 4))) ∧
    (∀ payload buffer, put payload buffer =
      if payload.length ≤ 0xFFFFFFFF then
        (.ok (), buffer ++ (Bytes.bigEndian 4 payload.length ++ payload))
      else (.error (.payloadTooLarge payload.length 0xFFFFFFFF), buffer)) ∧
    ∀ payloads further frame cut,
      (∀ payload ∈ payloads, payload.length ≤ limit ∧ payload.length ≤ 0xFFFFFFFF) →
      further.length ≤ limit → put further [] = (.ok (), frame) → cut <+: frame → cut ≠ frame →
      ∃ buffer, puts payloads [] = (payloads.map fun _ => .ok (), buffer) ∧
        ∀ count, ∃ rest, takes limit count (buffer ++ cut) =
            ((payloads.take count).map (fun payload => .ok (some payload)) ++
              List.replicate (count - payloads.length) (.ok none), rest) ∧
          (payloads.length ≤ count → rest = cut) := by
  refine ⟨?_, ?_, fun _ _ _ => take_eq_error, fun _ _ => take_eq_none, put_eq, ?_⟩
  · intro buffer payload rest
    rw [take_eq_some]
    refine and_congr_right fun _ => ?_
    simp only [put_nil_eq_ok]
    constructor
    · rintro ⟨fits, whole⟩
      exact ⟨_, ⟨fits, rfl⟩, whole⟩
    · rintro ⟨_, ⟨fits, rfl⟩, whole⟩
      exact ⟨fits, whole⟩
  · intro first second frame frame' rest rest' framed framed' same
    obtain ⟨fits, rfl⟩ := put_nil_eq_ok.mp framed
    obtain ⟨fits', rfl⟩ := put_nil_eq_ok.mp framed'
    exact wire_append_inj fits fits' same
  · intro payloads further frame cut within small framed begins unfinished
    obtain ⟨fits, rfl⟩ := put_nil_eq_ok.mp framed
    refine ⟨wires payloads, puts_of_fits (fun payload member => (within payload member).2) [], ?_⟩
    intro count
    refine ⟨_, takes_wires within (take_of_cut small fits begins unfinished) count, fun enough => ?_⟩
    rw [List.drop_eq_nil_of_le enough]
    rfl

/-- Two payloads, one of them empty, and a third frame without its last byte: the two come back, and
then nothing. -/
theorem put_take_inverse_cut :
    puts [[7], []] [] = ([.ok (), .ok ()], [0, 0, 0, 1, 7, 0, 0, 0, 0]) ∧
      takes 2 3 ([0, 0, 0, 1, 7, 0, 0, 0, 0] ++ [0, 0, 0, 2, 8]) =
        ([.ok (some [7]), .ok (some []), .ok none], [0, 0, 0, 2, 8]) := by
  obtain ⟨buffer, done, comes⟩ := (put_take_inverse 2).2.2.2.2.2 [[7], []] [8, 9] [0, 0, 0, 2, 8, 9]
    [0, 0, 0, 2, 8] (by decide) (by decide) rfl (by decide) (by decide)
  obtain rfl : buffer = [0, 0, 0, 1, 7, 0, 0, 0, 0] := (Prod.mk.inj done).2.symm
  obtain ⟨rest, took, left⟩ := comes 3
  rw [left (by decide)] at took
  exact ⟨done, took⟩

end Queue

end FramedTasks.Frame
