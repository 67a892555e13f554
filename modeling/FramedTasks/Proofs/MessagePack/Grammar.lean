import FramedTasks.Proofs.MessagePack.Item
import FramedTasks.Proofs.Record.Members

/-! # The MessagePack items of a value

A length or an integer may take more bytes than it needs, so a value has many items. `SpellsHead`
lists the heads with their bytes, and `Spells` relates a part of a value to its items: a list or an
object is a head that counts its items or members, and then these one after another.
-/

namespace FramedTasks.MessagePack

open Json (Value)

/-- How far the marker of a width stands behind the marker of the least one. -/
def Width.offset : Width → Nat
  | .one => 0
  | .two => 1
  | .four => 2
  | .eight => 3

/-- The bytes of a head: a marker that holds the number of the head, or one that says in how many
bytes the number follows. A negative number follows in two's complement. -/
inductive SpellsHead : Head → Bytes → Prop
  | nil : SpellsHead .nil [0xC0]
  | falseByte : SpellsHead (.bool false) [0xC2]
  | trueByte : SpellsHead (.bool true) [0xC3]
  | fixPos {value : Nat} : value < 128 → SpellsHead (.unsigned value) [UInt8.ofNat value]
  | fixNeg {value : Nat} : value < 32 → SpellsHead (.signed (value - 32)) [UInt8.ofNat (0xE0 + value)]
  | unsigned {width : Width} {value : Nat} :
      value < Nat.pow 256 width.bytes →
      SpellsHead (.unsigned value) (marked (UInt8.ofNat (0xCC + width.offset)) width.bytes value)
  | signed {width : Width} {value : Int} :
      -(Nat.pow 256 width.bytes / 2 : Nat) ≤ value → value < (Nat.pow 256 width.bytes / 2 : Nat) →
      SpellsHead (.signed value) (marked (UInt8.ofNat (0xD0 + width.offset)) width.bytes
        (value % Nat.pow 256 width.bytes).toNat)
  | fixStr {length : Nat} : length < 32 → SpellsHead (.text length) [UInt8.ofNat (0xA0 + length)]
  | str {width : Width} {length : Nat} :
      width ≠ .eight → length < Nat.pow 256 width.bytes →
      SpellsHead (.text length) (marked (UInt8.ofNat (0xD9 + width.offset)) width.bytes length)
  | fixArray {length : Nat} : length < 16 → SpellsHead (.list length) [UInt8.ofNat (0x90 + length)]
  | array {width : Width} {length : Nat} :
      width = .two ∨ width = .four → length < Nat.pow 256 width.bytes →
      SpellsHead (.list length) (marked (UInt8.ofNat (0xDB + width.offset)) width.bytes length)
  | fixMap {length : Nat} : length < 16 → SpellsHead (.map length) [UInt8.ofNat (0x80 + length)]
  | map {width : Width} {length : Nat} :
      width = .two ∨ width = .four → length < Nat.pow 256 width.bytes →
      SpellsHead (.map length) (marked (UInt8.ofNat (0xDD + width.offset)) width.bytes length)

/-- A part of a value: a whole one, some items of a list or some members of an object. -/
inductive Part where
  | whole (value : Value)
  | listItems (items : List Value)
  | objectMembers (members : List (String × Value))

/-- The items of a text. -/
inductive SpellsText (text : String) : Bytes → Prop
  | intro {head : Bytes} :
      SpellsHead (.text (Utf8.encode text).length) head → SpellsText text (head ++ Utf8.encode text)

/-- The items of a part of a value. -/
inductive Spells : Part → Bytes → Prop
  | nil {head : Bytes} : SpellsHead .nil head → Spells (.whole .null) head
  | bool {value : Bool} {head : Bytes} :
      SpellsHead (.bool value) head → Spells (.whole (.bool value)) head
  | integer {value : Int} {number : Head} {head : Bytes} :
      SpellsHead number head → number.integer? = some value → Spells (.whole (.integer value)) head
  | text {text : String} {bytes : Bytes} : SpellsText text bytes → Spells (.whole (.text text)) bytes
  | list {items : List Value} {head bytes : Bytes} :
      SpellsHead (.list items.length) head → Spells (.listItems items) bytes →
      Spells (.whole (.list items)) (head ++ bytes)
  | object {members : List (String × Value)} {head bytes : Bytes} :
      SpellsHead (.map members.length) head → Spells (.objectMembers members) bytes →
      Spells (.whole (.object members)) (head ++ bytes)
  | noItem : Spells (.listItems []) []
  | item {item : Value} {items : List Value} {bytes more : Bytes} :
      Spells (.whole item) bytes → Spells (.listItems items) more →
      Spells (.listItems (item :: items)) (bytes ++ more)
  | noMember : Spells (.objectMembers []) []
  | member {key : String} {value : Value} {members : List (String × Value)}
      {name bytes more : Bytes} :
      SpellsText key name → Spells (.whole value) bytes → Spells (.objectMembers members) more →
      Spells (.objectMembers ((key, value) :: members)) (name ++ (bytes ++ more))

section Head

theorem ofByte_fixArray {length : Nat} (small : length < 16) :
    Marker.ofByte (UInt8.ofNat (0x90 + length)) = .fixArray length := by
  revert length
  decide

/-- Two's complement keeps every number of its width. -/
theorem toSigned_emod {width : Nat} {value : Int} (least : -(Nat.pow 256 width / 2 : Nat) ≤ value)
    (most : value < (Nat.pow 256 width / 2 : Nat)) :
    Bytes.toSigned width (value % Nat.pow 256 width).toNat = value := by
  rcases Int.lt_or_le value 0 with negative | positive
  · have wrapped : value % (Nat.pow 256 width : Nat) = value + (Nat.pow 256 width : Nat) := by
      rw [← Int.add_emod_right, Int.emod_eq_of_lt (by omega) (by omega)]
    have sum := toSigned_add negative least
    rwa [wrapped]
  · have kept : value % (Nat.pow 256 width : Nat) = value := Int.emod_eq_of_lt positive (by omega)
    have lower : value.toNat < Nat.pow 256 width / 2 := by omega
    rw [kept, Bytes.toSigned, if_pos lower]
    omega

variable {head : Head} {bytes : Bytes}

/-- Every spelling of a head is read. -/
theorem SpellsHead.reads (spells : SpellsHead head bytes) : ReadsHead bytes head := by
  cases spells with
  | nil | falseByte | trueByte => exact readsHead_single fun _ => rfl
  | fixPos small =>
    apply readsHead_single
    intro rest
    rw [ofByte_fixPos small, readHead]
  | fixNeg small =>
    apply readsHead_single
    intro rest
    rw [ofByte_fixNeg small, readHead]
  | @unsigned width value fits =>
    apply readsHead_marked
    intro rest
    have marker : Marker.ofByte (UInt8.ofNat (0xCC + width.offset)) = .unsigned width := by
      cases width <;> rfl
    rw [marker, readHead_unsigned fits]
  | @signed width value least most =>
    apply readsHead_marked
    intro rest
    have marker : Marker.ofByte (UInt8.ofNat (0xD0 + width.offset)) = .signed width := by
      cases width <;> rfl
    have fits : (value % Nat.pow 256 width.bytes).toNat < Nat.pow 256 width.bytes := by
      have positive : (0 : Int) < Nat.pow 256 width.bytes := by cases width <;> decide
      have small := Int.emod_lt_of_pos value positive
      have nonneg := Int.emod_nonneg value (Int.ne_of_gt positive)
      omega
    rw [marker, readHead_signed fits, toSigned_emod least most]
  | fixStr small =>
    apply readsHead_single
    intro rest
    rw [ofByte_fixStr small, readHead]
  | @str width length narrow fits =>
    apply readsHead_marked
    intro rest
    have marker : Marker.ofByte (UInt8.ofNat (0xD9 + width.offset)) = .str width := by
      cases width <;> first | rfl | contradiction
    rw [marker, readHead_str fits]
  | fixArray small =>
    apply readsHead_single
    intro rest
    rw [ofByte_fixArray small, readHead]
  | @array width length wide fits =>
    apply readsHead_marked
    intro rest
    have marker : Marker.ofByte (UInt8.ofNat (0xDB + width.offset)) = .array width := by
      rcases wide with rfl | rfl <;> rfl
    rw [marker, readHead, readNumber_bigEndian fits]
    rfl
  | fixMap small =>
    apply readsHead_single
    intro rest
    rw [ofByte_fixMap small, readHead]
  | @map width length wide fits =>
    apply readsHead_marked
    intro rest
    have marker : Marker.ofByte (UInt8.ofNat (0xDD + width.offset)) = .map width := by
      rcases wide with rfl | rfl <;> rfl
    rw [marker, readHead_map fits]

theorem SpellsHead.length_pos (spells : SpellsHead head bytes) : 0 < bytes.length := by
  cases spells <;> exact Nat.succ_pos _

end Head

theorem SpellsText.length_pos {text : String} {bytes : Bytes} (spells : SpellsText text bytes) :
    0 < bytes.length := by
  cases spells with
  | intro head =>
    have positive := head.length_pos
    rw [List.length_append]
    omega

theorem Spells.length_pos {value : Value} {bytes : Bytes} (spells : Spells (.whole value) bytes) :
    0 < bytes.length := by
  cases spells with
  | nil head | bool head | integer head _ => exact head.length_pos
  | text spelled => exact spelled.length_pos
  | list head _ | object head _ =>
    have positive := head.length_pos
    rw [List.length_append]
    omega

end FramedTasks.MessagePack
