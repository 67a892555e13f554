import FramedTasks.Proofs.MessagePack.Item
import FramedTasks.Proofs.Record.Placed

/-! # What the items of a payload are

A payload is one item after another, and a head says how many bytes of content and how many further
items belong to its item (`Items`). So the bytes of a payload fall apart in one way only, whatever a
reader makes of them: into a head and members or field values (`IsRecord`), and within the headers
into keys and the items of their values (`Entries`). Every reader is shown to take such bytes, and to take
them before any other bytes as well.
-/

namespace FramedTasks.MessagePack

open Json (Value)

/-- How many bytes of content follow a head, the kind of an extension among them. -/
def Head.content : Head → Nat
  | .text length | .bytes length => length
  | .extension length => length + 1
  | _ => 0

/-- How many further items belong to the item of a head. -/
def Head.inner : Head → Nat
  | .list length => length
  | .map length => 2 * length
  | _ => 0

/-- A number of items one after another. -/
inductive Items : Nat → Bytes → Prop
  | none : Items 0 []
  | some {head : Head} {count : Nat} {front content more : Bytes} :
      ReadsHead front head → content.length = head.content → Items (head.inner + count) more →
      Items (count + 1) (front ++ (content ++ more))

/-- The item of a text, or of a byte string that holds a text. -/
inductive IsText (text : String) : Bytes → Prop
  | intro {head : Head} {front content : Bytes} :
      ReadsHead front head → head = .text content.length ∨ head = .bytes content.length →
      Utf8.decode content = .ok text → IsText text (front ++ content)

/-- Entries one after another, each a key and the item of its value. -/
inductive Entries : List (String × Bytes) → Bytes → Prop
  | none : Entries [] []
  | some {key : String} {name item more : Bytes} {entries : List (String × Bytes)} :
      IsText key name → Items 1 item → Entries entries more →
      Entries ((key, item) :: entries) (name ++ (item ++ more))

/-- The item of headers: nil, or a map of entries. -/
inductive IsHeaders : Option (List (String × Bytes)) → Bytes → Prop
  | nil {front : Bytes} : ReadsHead front .nil → IsHeaders .none front
  | map {entries : List (String × Bytes)} {front more : Bytes} :
      ReadsHead front (.map entries.length) → Entries entries more →
      IsHeaders (.some entries) (front ++ more)

/-- The items of nil and of the floats whose exponent has all bits set: the infinities and what is no
number. -/
inductive Dropped : Bytes → Prop
  | nil : Dropped [0xC0]
  | single {pattern : Bytes} : pattern.length = 4 → Bytes.toNat pattern / 0x800000 % 256 = 255 →
      Dropped (0xCA :: pattern)
  | double {pattern : Bytes} : pattern.length = 8 →
      Bytes.toNat pattern / 0x10000000000000 % 2048 = 2047 → Dropped (0xCB :: pattern)

/-- The place of the field that goes by a name, if the bytes are one. -/
def named? (schema : Schema) (content : Bytes) : Option Nat :=
  match Utf8.decode content with
  | .ok name => schema.index? name
  | .error _ => .none

/-- The key of a member: the place of the field that it stands for, as a number or under a name, if
it stands for one. -/
inductive IsFieldKey (schema : Schema) : Option Nat → Bytes → Prop
  | place {place : Nat} {front : Bytes} :
      ReadsHead front (.unsigned place) →
      IsFieldKey schema (if place < schema.fields.length then some place else .none) front
  | name {head : Head} {front content : Bytes} :
      ReadsHead front head → head = .text content.length ∨ head = .bytes content.length →
      IsFieldKey schema (named? schema content) (front ++ content)

/-- Members one after another, each a key and the item of its value. The list holds the places that
the keys stand for. -/
inductive Members (schema : Schema) : List (Option Nat × Bytes) → Bytes → Prop
  | none : Members schema [] []
  | some {place? : Option Nat} {key item more : Bytes} {members : List (Option Nat × Bytes)} :
      IsFieldKey schema place? key → Items 1 item → Members schema members more →
      Members schema ((place?, item) :: members) (key ++ (item ++ more))

/-- A record, with the items that stand for the field at each place: those of the members whose key
stands for it, or the one at that place of a list. -/
inductive IsRecord (schema : Schema) : (Nat → List Bytes) → Bytes → Prop
  | map {members : List (Option Nat × Bytes)} {front more : Bytes} :
      ReadsHead front (.map members.length) → Members schema members more →
      IsRecord schema (itemsAt members) (front ++ more)
  | list {items : List Bytes} {front : Bytes} :
      ReadsHead front (.list items.length) → (∀ item ∈ items, Items 1 item) →
      IsRecord schema (fun place => items[place]?.toList) (front ++ items.flatten)

theorem Items.append {count count' : Nat} {front more : Bytes} (items : Items count front)
    (others : Items count' more) : Items (count + count') (front ++ more) := by
  induction items with
  | none => rwa [Nat.zero_add, List.nil_append]
  | some head content _ ih =>
    rw [Nat.add_assoc] at ih
    rw [Nat.add_right_comm, List.append_assoc, List.append_assoc]
    exact .some head content ih

/-- An item that is a head and its content. -/
theorem Items.plain {head : Head} {front content : Bytes} (reads : ReadsHead front head)
    (length : content.length = head.content) (alone : head.inner = 0) : Items 1 (front ++ content) := by
  have nothing : Items (head.inner + 0) [] := by
    rw [alone]
    exact .none
  rw [← List.append_nil content]
  exact .some reads length nothing

/-- An item that is a head and the items inside it. -/
theorem Items.nested {head : Head} {front more : Bytes} (reads : ReadsHead front head)
    (empty : head.content = 0) (inside : Items head.inner more) : Items 1 (front ++ more) :=
  @Items.some head 0 front [] more reads empty.symm inside

theorem IsText.item {text : String} {name : Bytes} (isText : IsText text name) : Items 1 name := by
  cases isText with
  | intro reads kind _ => rcases kind with rfl | rfl <;> exact .plain reads rfl rfl

theorem Entries.items {entries : List (String × Bytes)} {bytes : Bytes}
    (inside : Entries entries bytes) : Items (2 * entries.length) bytes := by
  induction inside with
  | none => exact .none
  | some key item _ ih =>
    have pair := key.item.append (item.append ih)
    rw [← Nat.add_assoc, Nat.add_comm] at pair
    exact pair

theorem IsHeaders.item {entries? : Option (List (String × Bytes))} {bytes : Bytes}
    (headers : IsHeaders entries? bytes) : Items 1 bytes := by
  cases headers with
  | nil reads => exact List.append_nil bytes ▸ Items.plain reads rfl rfl
  | map reads inside => exact .nested reads rfl inside.items

/-- Bytes start with at most one head. -/
theorem ReadsHead.unique {head head' : Head} {front front' more more' : Bytes}
    (reads : ReadsHead front head) (reads' : ReadsHead front' head')
    (same : front ++ more = front' ++ more') : head = head' ∧ more = more' := by
  have one := reads.readItemHead more
  rw [same, reads'.readItemHead more'] at one
  exact (Prod.mk.inj (Except.ok.inj one)).imp Eq.symm Eq.symm

theorem ReadsHead.head_unique {head head' : Head} {front : Bytes} (reads : ReadsHead front head)
    (reads' : ReadsHead front head') : head = head' :=
  (reads.unique reads' (show front ++ [] = front ++ [] from rfl)).1

theorem readNumber_taken {width number : Nat} {bytes rest : Bytes}
    (read : readNumber width bytes = .ok (number, rest)) :
    ∃ digits, bytes = digits ++ rest ∧ digits.length = width ∧
      ∀ more, readNumber width (digits ++ more) = .ok (number, more) := by
  simp only [readNumber] at read
  split at read
  · contradiction
  · next whole =>
    obtain ⟨rfl, rfl⟩ := Prod.mk.inj (Except.ok.inj read)
    have length : (bytes.take width).length = width :=
      Nat.le_antisymm (List.length_take_le ..) (Nat.not_lt.mp whole)
    refine ⟨bytes.take width, (List.take_append_drop ..).symm, length, fun more => ?_⟩
    simp only [readNumber, List.take_left' length, List.drop_left' length, length, Nat.lt_irrefl,
      if_false]

theorem readContent_taken {length : Nat} {bytes content rest : Bytes}
    (read : readContent length bytes = .ok (content, rest)) :
    bytes = content ++ rest ∧ content.length = length := by
  simp only [readContent] at read
  split at read
  · contradiction
  · next whole =>
    obtain ⟨rfl, rfl⟩ := Prod.mk.inj (Except.ok.inj read)
    exact ⟨(List.take_append_drop ..).symm,
      Nat.le_antisymm (List.length_take_le ..) (Nat.not_lt.mp whole)⟩

/-- A head that holds a number takes the bytes of the number. -/
theorem readNumber_taken_head {width : Nat} (make : Nat → Head) {head : Head} {bytes rest : Bytes}
    (read : (do let (number, rest) ← readNumber width bytes; .ok (make number, rest)) =
      Except.ok (head, rest)) :
    ∃ front, bytes = front ++ rest ∧ ∀ more,
      (do let (number, rest) ← readNumber width (front ++ more); .ok (make number, rest)) =
        Except.ok (head, more) := by
  obtain ⟨⟨number, tail⟩, taken, made⟩ := bind_eq_ok.mp read
  obtain ⟨rfl, rfl⟩ := Prod.mk.inj (Except.ok.inj made)
  obtain ⟨digits, rfl, -, again⟩ := readNumber_taken taken
  exact ⟨digits, rfl, fun more => bind_eq_ok.mpr ⟨_, again more, rfl⟩⟩

theorem readHead_taken {marker : Marker} {head : Head} {bytes rest : Bytes}
    (read : readHead marker bytes = .ok (head, rest)) :
    ∃ front, bytes = front ++ rest ∧ ∀ more, readHead marker (front ++ more) = .ok (head, more) := by
  cases marker with
  | reserved => contradiction
  | nil | bool _ | fixPos _ | fixNeg _ | fixStr _ | fixArray _ | fixMap _ | fixExt _ =>
    obtain ⟨rfl, rfl⟩ := Prod.mk.inj (Except.ok.inj read)
    exact ⟨[], rfl, fun _ => rfl⟩
  | unsigned width => exact readNumber_taken_head (fun number => .unsigned number) read
  | signed width => exact readNumber_taken_head (fun number => .signed (Bytes.toSigned width.bytes number)) read
  | float width =>
    exact readNumber_taken_head (fun pattern => .number
      (if width = .four then .ofBinary32 (UInt32.ofNat pattern) else ⟨UInt64.ofNat pattern⟩)) read
  | str width | bin width | array width | map width | ext width => exact readNumber_taken_head _ read

/-- A marker and a head that are read are those that their bytes spell. -/
theorem readsHead_of_marked {bytes tail rest : Bytes} {marker : Marker} {head : Head}
    (marked : readMarker bytes = .ok (marker, tail)) (headed : readHead marker tail = .ok (head, rest)) :
    ∃ front, bytes = front ++ rest ∧ ReadsHead front head ∧ ∀ more, ∃ tail,
      readMarker (front ++ more) = .ok (marker, tail) ∧ readHead marker tail = .ok (head, more) := by
  cases bytes with
  | nil => contradiction
  | cons byte bytes =>
    obtain ⟨rfl, rfl⟩ := Prod.mk.inj (Except.ok.inj marked)
    obtain ⟨front, rfl, headedAgain⟩ := readHead_taken headed
    have again (more : Bytes) : ∃ tail, readMarker (byte :: front ++ more) = .ok (.ofByte byte, tail) ∧
        readHead (.ofByte byte) tail = .ok (head, more) :=
      ⟨front ++ more, rfl, headedAgain more⟩
    exact ⟨byte :: front, rfl, fun more => ⟨_, again more⟩, again⟩

/-- A head that is read is the one that its bytes spell. -/
theorem readItemHead_taken {bytes rest : Bytes} {head : Head}
    (read : readItemHead bytes = .ok (head, rest)) :
    ∃ front, bytes = front ++ rest ∧ ReadsHead front head := by
  obtain ⟨⟨marker, tail⟩, marked, headed⟩ := bind_eq_ok.mp read
  obtain ⟨front, split, reads, -⟩ := readsHead_of_marked marked headed
  exact ⟨front, split, reads⟩

/-- The marker of nil is its whole item. -/
theorem readsHead_nil {bytes rest : Bytes} (marked : readMarker bytes = .ok (.nil, rest)) :
    ∃ front, bytes = front ++ rest ∧ ReadsHead front .nil ∧
      ∀ more, readMarker (front ++ more) = .ok (.nil, more) := by
  obtain ⟨front, rfl, reads, again⟩ := readsHead_of_marked marked (show readHead .nil rest = _ from rfl)
  refine ⟨front, rfl, reads, fun more => ?_⟩
  obtain ⟨tail, marked, headed⟩ := again more
  obtain ⟨-, rfl⟩ := Prod.mk.inj (Except.ok.inj headed)
  exact marked

end FramedTasks.MessagePack
