import FramedTasks.MessagePack.Record
import FramedTasks.Proofs.Text.Utf8

/-! # Heads of items

The bytes of an item start with those of its head, and `ReadsHead` says that a head is read from them
whatever follows. A marker holds the number of the head or says in how many bytes it follows.
-/

namespace FramedTasks.MessagePack

/-- A head is read from some bytes, whatever follows them. -/
def ReadsHead (bytes : Bytes) (head : Head) : Prop :=
  ∀ rest, ∃ marker tail, readMarker (bytes ++ rest) = .ok (marker, tail) ∧
    readHead marker tail = .ok (head, rest)

theorem ReadsHead.readItemHead {bytes : Bytes} {head : Head} (reads : ReadsHead bytes head)
    (rest : Bytes) : readItemHead (bytes ++ rest) = .ok (head, rest) := by
  obtain ⟨marker, tail, marked, headed⟩ := reads rest
  rw [MessagePack.readItemHead, marked]
  exact headed

/-- A head other than nil has a marker other than that of nil. -/
theorem ReadsHead.marked {bytes : Bytes} {head : Head} (reads : ReadsHead bytes head)
    (present : head ≠ .nil) (rest : Bytes) :
    ∃ marker tail, readMarker (bytes ++ rest) = .ok (marker, tail) ∧ marker ≠ .nil ∧
      readHead marker tail = .ok (head, rest) := by
  obtain ⟨marker, tail, marked, headed⟩ := reads rest
  refine ⟨marker, tail, marked, ?_, headed⟩
  rintro rfl
  obtain ⟨rfl, -⟩ := Prod.mk.inj (Except.ok.inj headed)
  exact present rfl

theorem readNumber_bigEndian {width number : Nat} (fits : number < Nat.pow 256 width)
    (rest : Bytes) : readNumber width (Bytes.bigEndian width number ++ rest) = .ok (number, rest) := by
  have length := Bytes.length_bigEndian width number
  have whole : ¬ (Bytes.bigEndian width number).length < width := by omega
  simp only [readNumber, List.take_left' length, List.drop_left' length, if_neg whole,
    Bytes.toNat_bigEndian fits]

/-- A head that is one byte. -/
theorem readsHead_single {byte : UInt8} {head : Head}
    (headed : ∀ rest, readHead (.ofByte byte) rest = .ok (head, rest)) : ReadsHead [byte] head :=
  fun rest => ⟨.ofByte byte, rest, rfl, headed rest⟩

/-- A head that is a marker with a number after it. -/
theorem readsHead_marked {byte : UInt8} {width number : Nat} {head : Head}
    (headed : ∀ rest, readHead (.ofByte byte) (Bytes.bigEndian width number ++ rest) = .ok (head, rest)) :
    ReadsHead (marked byte width number) head :=
  fun rest => ⟨.ofByte byte, Bytes.bigEndian width number ++ rest, rfl, headed rest⟩

theorem ofByte_fixStr {length : Nat} (small : length < 32) :
    Marker.ofByte (UInt8.ofNat (0xA0 + length)) = .fixStr length := by
  revert length
  decide

theorem ofByte_fixMap {length : Nat} (small : length < 16) :
    Marker.ofByte (UInt8.ofNat (0x80 + length)) = .fixMap length := by
  revert length
  decide

theorem ofByte_fixPos {value : Nat} (small : value < 128) :
    Marker.ofByte (UInt8.ofNat value) = .fixPos value := by
  revert value
  decide

theorem ofByte_fixNeg {value : Nat} (small : value < 32) :
    Marker.ofByte (UInt8.ofNat (0xE0 + value)) = .fixNeg (value - 32) := by
  revert value
  decide

section Width

variable {width : Width} {number : Nat} (fits : number < Nat.pow 256 width.bytes) (rest : Bytes)
include fits

theorem readHead_str : readHead (.str width) (Bytes.bigEndian width.bytes number ++ rest) =
    .ok (.text number, rest) := by
  rw [readHead, readNumber_bigEndian fits]
  rfl

theorem readHead_map : readHead (.map width) (Bytes.bigEndian width.bytes number ++ rest) =
    .ok (.map number, rest) := by
  rw [readHead, readNumber_bigEndian fits]
  rfl

theorem readHead_unsigned : readHead (.unsigned width) (Bytes.bigEndian width.bytes number ++ rest) =
    .ok (.unsigned number, rest) := by
  rw [readHead, readNumber_bigEndian fits]
  rfl

theorem readHead_signed : readHead (.signed width) (Bytes.bigEndian width.bytes number ++ rest) =
    .ok (.signed (Bytes.toSigned width.bytes number), rest) := by
  rw [readHead, readNumber_bigEndian fits]
  rfl

end Width

def Head.integer? : Head → Option Int
  | .unsigned value => some value
  | .signed value => some value
  | _ => none

/-- Two's complement undoes itself. -/
theorem toSigned_add {width : Nat} {value : Int} (negative : value < 0)
    (least : -(Nat.pow 256 width / 2 : Nat) ≤ value) :
    Bytes.toSigned width (value + Nat.pow 256 width).toNat = value := by
  have upper : ¬ (value + Nat.pow 256 width).toNat < Nat.pow 256 width / 2 := by omega
  rw [Bytes.toSigned, if_neg upper]
  omega

theorem readContent_append {content : Bytes} (rest : Bytes) :
    readContent content.length (content ++ rest) = .ok (content, rest) := by
  simp [readContent]

/-- Whether a text has a length that can be written. -/
def Storable (text : String) : Prop := (Utf8.encode text).length < 0x100000000

instance (text : String) : Decidable (Storable text) := Nat.decLt ..

theorem readStringContent_encode {text : String} (rest : Bytes) (depth : Nat) :
    readString.readStringContent depth (.text (Utf8.encode text).length) (Utf8.encode text ++ rest) =
      .ok (text, rest) := by
  simp only [readString.readStringContent, readContent_append, Utf8.decode_encode, bind, Except.bind]

end FramedTasks.MessagePack
