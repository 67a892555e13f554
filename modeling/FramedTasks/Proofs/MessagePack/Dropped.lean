import FramedTasks.Proofs.Frame.Wire
import FramedTasks.Proofs.MessagePack.Document
import FramedTasks.Proofs.Number.Finite

/-! # Items without a text

A header is dropped if its value is nil or a number that is not finite. The head of the item tells which:
the marker of nil, or a float of either width with all bits of its exponent set (`dropped_iff`).
-/

namespace FramedTasks.MessagePack

/-- Whether a header whose value has this head is dropped. -/
def Head.isDropped : Head → Bool
  | .nil => true
  | .number value => !value.isFinite
  | _ => false

theorem forall_byte {p : UInt8 → Prop} (all : ∀ code : Fin 256, p (UInt8.ofNat code.val)) (byte : UInt8) :
    p byte := by
  have here := all ⟨byte.toNat, byte.toNat_lt⟩
  rwa [UInt8.ofNat_toNat] at here

theorem eq_of_ofByte_nil : ∀ byte, Marker.ofByte byte = .nil → byte = 0xC0 :=
  forall_byte (by decide +kernel)

theorem eq_of_ofByte_float (width : Width) : ∀ byte, Marker.ofByte byte = .float width →
    width = .four ∧ byte = 0xCA ∨ width = .eight ∧ byte = 0xCB := by
  cases width <;> exact forall_byte (by decide +kernel)

theorem readsHead_float {byte : UInt8} {width : Width} (marker : Marker.ofByte byte = .float width)
    {pattern : Bytes} (length : pattern.length = width.bytes) :
    ReadsHead (byte :: pattern) (.number (if width = .four
      then .ofBinary32 (UInt32.ofNat (Bytes.toNat pattern)) else ⟨UInt64.ofNat (Bytes.toNat pattern)⟩)) := by
  intro rest
  refine ⟨.float width, pattern ++ rest, marker ▸ rfl, ?_⟩
  have whole : ¬ pattern.length < width.bytes := by omega
  rw [readHead]
  refine bind_eq_ok.mpr ⟨(Bytes.toNat pattern, rest), ?_, rfl⟩
  simp only [readNumber, List.take_left' length, List.drop_left' length, if_neg whole]

theorem isDropped_single {pattern : Bytes} (length : pattern.length = 4) :
    (Head.number (.ofBinary32 (UInt32.ofNat (Bytes.toNat pattern)))).isDropped = true ↔
      Bytes.toNat pattern / 0x800000 % 256 = 255 := by
  have small : Bytes.toNat pattern < Nat.pow 256 4 := length ▸ Bytes.toNat_lt pattern
  have exact_ : (UInt32.ofNat (Bytes.toNat pattern)).toNat = Bytes.toNat pattern :=
    UInt32.toNat_ofNat_of_lt' small
  rw [Head.isDropped, Bool.not_eq_true', ← Bool.not_eq_true, Binary64.isFinite_ofBinary32, exact_,
    not_not]

theorem isDropped_double {pattern : Bytes} (length : pattern.length = 8) :
    (Head.number ⟨UInt64.ofNat (Bytes.toNat pattern)⟩).isDropped = true ↔
      Bytes.toNat pattern / 0x10000000000000 % 2048 = 2047 := by
  have small : Bytes.toNat pattern < Nat.pow 256 8 := length ▸ Bytes.toNat_lt pattern
  have exact_ : (UInt64.ofNat (Bytes.toNat pattern)).toNat = Bytes.toNat pattern :=
    UInt64.toNat_ofNat_of_lt' small
  rw [Head.isDropped, Bool.not_eq_true', Binary64.isFinite, Binary64.exponentField, exact_,
    bne_eq_false_iff_eq, Binary64.fractionCount]

/-- The markers of the heads that are dropped. -/
theorem readHead_dropped {marker : Marker} {head : Head} {bytes : Bytes}
    (read : readHead marker bytes = .ok (head, [])) (dropped : head.isDropped = true) :
    (marker = .nil ∧ bytes = []) ∨ ∃ width, marker = .float width ∧ bytes.length = width.bytes := by
  cases marker with
  | nil =>
    obtain ⟨-, rfl⟩ := Prod.mk.inj (Except.ok.inj read)
    exact .inl ⟨rfl, rfl⟩
  | float width =>
    obtain ⟨⟨pattern, tail⟩, taken, made⟩ := bind_eq_ok.mp read
    obtain ⟨-, rfl⟩ := Prod.mk.inj (Except.ok.inj made)
    obtain ⟨digits, rfl, length, -⟩ := readNumber_taken taken
    exact .inr ⟨width, rfl, by rw [List.append_nil, length]⟩
  | reserved => contradiction
  | bool _ | fixPos _ | fixNeg _ | fixStr _ | fixArray _ | fixMap _ | fixExt _ =>
    obtain ⟨rfl, -⟩ := Prod.mk.inj (Except.ok.inj read)
    contradiction
  | unsigned _ | signed _ | str _ | bin _ | array _ | map _ | ext _ =>
    obtain ⟨number, -, made⟩ := bind_eq_ok.mp read
    obtain ⟨rfl, -⟩ := Prod.mk.inj (Except.ok.inj made)
    contradiction

theorem dropped_iff {item : Bytes} :
    Dropped item ↔ ∃ head, ReadsHead item head ∧ head.isDropped = true := by
  constructor
  · intro dropped
    cases dropped with
    | nil => exact ⟨.nil, fun rest => ⟨.nil, rest, rfl, rfl⟩, rfl⟩
    | @single pattern length set =>
      exact ⟨_, readsHead_float (show Marker.ofByte 0xCA = .float .four from rfl) length,
        (isDropped_single length).mpr set⟩
    | @double pattern length set =>
      exact ⟨_, readsHead_float (show Marker.ofByte 0xCB = .float .eight from rfl) length,
        (isDropped_double length).mpr set⟩
  · rintro ⟨head, reads, dropped⟩
    obtain ⟨marker, tail, marked, headed⟩ := reads []
    rw [List.append_nil] at marked
    cases item with
    | nil => contradiction
    | cons byte item =>
      obtain ⟨rfl, rfl⟩ := Prod.mk.inj (Except.ok.inj marked)
      rcases readHead_dropped headed dropped with ⟨nil, rfl⟩ | ⟨width, float, length⟩
      · rw [eq_of_ofByte_nil byte nil]
        exact .nil
      · have same := reads.head_unique (readsHead_float float length)
        rcases eq_of_ofByte_float width byte float with ⟨rfl, rfl⟩ | ⟨rfl, rfl⟩
        · exact .single length ((isDropped_single length).mp (same ▸ dropped))
        · exact .double length ((isDropped_double length).mp (same ▸ dropped))

theorem dropped_append_iff {head : Head} {front : Bytes} (reads : ReadsHead front head)
    (content : Bytes) : Dropped (front ++ content) ↔ content = [] ∧ head.isDropped = true := by
  rw [dropped_iff]
  constructor
  · rintro ⟨other, also, dropped⟩
    obtain ⟨rfl, rfl⟩ :=
      @ReadsHead.unique _ _ _ _ content [] reads also (List.append_nil _).symm
    exact ⟨rfl, dropped⟩
  · rintro ⟨rfl, dropped⟩
    exact ⟨head, (List.append_nil front).symm ▸ reads, dropped⟩

end FramedTasks.MessagePack
