import FramedTasks.Proofs.MessagePack.Members

/-! # Records that were written in MessagePack are read

A writer takes the fewest bytes for a length or an integer, which is one of the ways to spell it. So
every value of a field is read back, whatever follows it, and so are the named values of a record:
they fill a draft in the way that `Draft.Fills` describes.
-/

namespace FramedTasks.MessagePack

def textHead (length : Nat) : Bytes :=
  if length < 32 then [UInt8.ofNat (0xA0 + length)]
  else if length < 256 then marked 0xD9 1 length
  else if length < 65536 then marked 0xDA 2 length
  else marked 0xDB 4 length

theorem encodeText_eq (text : String) :
    encodeText text = textHead (Utf8.encode text).length ++ Utf8.encode text := rfl

theorem spellsHead_textHead {length : Nat} (small : length < 0x100000000) :
    SpellsHead (.text length) (textHead length) := by
  unfold textHead
  split
  · next fits => exact .fixStr fits
  split
  · next fits => exact @SpellsHead.str .one length (by decide) fits
  split
  · next fits => exact @SpellsHead.str .two length (by decide) fits
  · exact @SpellsHead.str .four length (by decide) small

theorem spellsHead_encodeMapHead {length : Nat} (small : length < 0x100000000) :
    SpellsHead (.map length) (encodeMapHead length) := by
  unfold encodeMapHead
  split
  · next fits => exact .fixMap fits
  split
  · next fits => exact @SpellsHead.map .two length (.inl rfl) fits
  · exact @SpellsHead.map .four length (.inr rfl) small

/-- A negative number of a width in two's complement. -/
theorem spellsHead_negative {width : Width} {value : Int} (negative : value < 0)
    (least : -(Nat.pow 256 width.bytes / 2 : Nat) ≤ value) :
    SpellsHead (.signed value) (marked (UInt8.ofNat (0xD0 + width.offset)) width.bytes
      (value + Nat.pow 256 width.bytes).toNat) := by
  have wrapped : value % (Nat.pow 256 width.bytes : Nat) = value + (Nat.pow 256 width.bytes : Nat) := by
    rw [← Int.add_emod_right, Int.emod_eq_of_lt (by omega) (by omega)]
  rw [← wrapped]
  exact .signed least (by omega)

/-- An integer is written as a head that holds it. -/
theorem spells_encodeInteger {value : Int} (least : -2147483648 ≤ value)
    (most : value < 2147483648) : Spells (.whole (.integer value)) (encodeInteger value) := by
  unfold encodeInteger
  split
  · next positive =>
    have same : ((value.toNat : Nat) : Int) = value := Int.toNat_of_nonneg positive
    have spelled {bytes : Bytes} (head : SpellsHead (.unsigned value.toNat) bytes) :
        Spells (.whole (.integer value)) bytes := .integer head (congrArg some same)
    simp only
    split
    · next fits => exact spelled (.fixPos fits)
    split
    · next fits => exact spelled (@SpellsHead.unsigned .one value.toNat fits)
    split
    · next fits => exact spelled (@SpellsHead.unsigned .two value.toNat fits)
    · exact spelled (@SpellsHead.unsigned .four value.toNat (show _ < 4294967296 by omega))
  · next negative =>
    split
    · next fits =>
      have byte : (value + 256).toNat = 0xE0 + (value + 32).toNat := by omega
      have same : (((value + 32).toNat : Nat) : Int) - 32 = value := by omega
      rw [byte]
      exact .integer (.fixNeg (by omega)) (congrArg some same)
    split
    · next fits => exact .integer (@spellsHead_negative .one value (by omega) fits) rfl
    split
    · next fits => exact .integer (@spellsHead_negative .two value (by omega) fits) rfl
    · exact .integer (@spellsHead_negative .four value (by omega) least) rfl

theorem spellsText_encodeText {text : String} (storable : Storable text) :
    SpellsText text (encodeText text) := .intro (spellsHead_textHead storable)

/-- Whether a value has lengths that can be written. -/
def StorableValue : FieldValue → Prop
  | .text value => Storable value
  | .status _ => True
  | .optionalText value => ∀ text ∈ value, Storable text
  | .headers value => ∀ headers ∈ value, headers.entries.length < 0x100000000 ∧
      ∀ entry ∈ headers.entries, Storable entry.1 ∧ Storable entry.2

instance : DecidablePred StorableValue
  | .text value => inferInstanceAs (Decidable (Storable value))
  | .status _ => .isTrue trivial
  | .optionalText value => inferInstanceAs (Decidable (∀ text ∈ value, Storable text))
  | .headers value => inferInstanceAs (Decidable (∀ headers ∈ value,
      headers.entries.length < 0x100000000 ∧
        ∀ entry ∈ headers.entries, Storable entry.1 ∧ Storable entry.2))

/-- The entries of headers are written as members that hold texts. -/
theorem spells_entries {entries : List (String × String)}
    (storable : ∀ entry ∈ entries, Storable entry.1 ∧ Storable entry.2) :
    Spells (.objectMembers (entries.map fun entry => (entry.1, .text entry.2)))
      (entries.flatMap fun entry => encodeText entry.1 ++ encodeText entry.2) := by
  induction entries with
  | nil => exact .noMember
  | cons entry entries ih =>
    obtain ⟨key, value⟩ := storable entry (List.mem_cons_self ..)
    have others := ih fun other member => storable other (List.mem_cons_of_mem _ member)
    rw [List.map_cons, List.flatMap_cons, List.append_assoc]
    exact .member (spellsText_encodeText key) (.text (spellsText_encodeText value)) others

/-- A value of a field is written as an item of what stands for it. -/
theorem spells_encodeValue {value : FieldValue} (storable : StorableValue value) :
    Spells (.whole value.written) (encodeValue value) := by
  rcases value with text | status | (_ | text) | (_ | headers)
  · exact .text (spellsText_encodeText storable)
  · have least := status.code.le_toInt
    have most := status.code.toInt_lt
    exact spells_encodeInteger (by omega) (by omega)
  · exact .nil .nil
  · exact .text (spellsText_encodeText (storable text rfl))
  · exact .nil .nil
  · obtain ⟨short, texts⟩ := storable headers rfl
    have head := spellsHead_encodeMapHead short
    have count : headers.members.length = headers.entries.length := List.length_map ..
    rw [← count] at head
    have spelled := Spells.object head (spells_entries texts)
    rwa [count] at spelled

/-- A value of a field is read back, whatever follows it. -/
theorem readField_encodeValue {value : FieldValue} (storable : StorableValue value) {depth : Nat}
    (deep : 1 < depth) (rest : Bytes) :
    readField depth value.kind (encodeValue value ++ rest) = .ok (value, rest) := by
  have shallow : value.written.nesting < depth := Nat.lt_of_le_of_lt value.nesting_written deep
  have read := toOption_readField (spells_encodeValue storable) rest value.kind shallow
  rw [FieldValue.ofValues?_written] at read
  exact eq_ok_of_toOption read

/-- A list is no longer than the bytes of its elements if none of these is written in no bytes. -/
theorem length_le_length_flatMap {α : Type} {written : α → Bytes}
    (nonempty : ∀ element, written element ≠ []) (elements : List α) :
    elements.length ≤ (elements.flatMap written).length := by
  induction elements with
  | nil => exact Nat.le_refl _
  | cons element rest ih =>
    have positive := List.length_pos_iff.mpr (nonempty element)
    rw [List.flatMap_cons, List.length_append, List.length_cons]
    omega

theorem encodeText_append_ne_nil (text : String) (more : Bytes) : encodeText text ++ more ≠ [] := by
  have nonempty : textHead (Utf8.encode text).length ≠ [] := by
    unfold textHead marked
    split
    · exact List.cons_ne_nil _ _
    · split
      · exact List.cons_ne_nil _ _
      · split <;> exact List.cons_ne_nil _ _
  rw [encodeText_eq]
  simp [nonempty]

/-- Named values that fill a draft are read into it. -/
theorem readDraft_of_fills {schema : Schema} {draft last : Draft}
    {fields : List (String × FieldValue)} (fills : Draft.Fills schema draft fields last)
    {values : List FieldValue} (finished : Draft.finish schema.fields last = .ok values)
    (storable : ∀ field ∈ fields, Storable field.1 ∧ StorableValue field.2) {depth : Nat}
    (deep : 1 < depth) {fuel : Nat} (enough : fields.length < fuel) (rest : Bytes) :
    readDraft schema depth fields.length draft fuel
        ((fields.flatMap fun field => encodeText field.1 ++ encodeValue field.2) ++ rest) =
      .ok (values, rest) := by
  induction fills generalizing fuel with
  | nil draft =>
    obtain ⟨fuel, rfl⟩ := Nat.exists_eq_succ_of_ne_zero (Nat.ne_of_gt enough)
    simp only [readDraft, List.length_nil, if_true, finished]
    rfl
  | @cons draft last name value index field others known place kind vacant _ ih =>
    obtain ⟨fuel, rfl⟩ := Nat.exists_eq_succ_of_ne_zero (Nat.ne_of_gt (Nat.zero_lt_of_lt enough))
    obtain ⟨named, held⟩ := storable (name, value) (List.mem_cons_self ..)
    have positive : ¬ others.length + 1 = 0 := by omega
    have met : ¬ draft.has index = true := by simp [vacant]
    have read := readField_encodeValue held deep
      ((others.flatMap fun field => encodeText field.1 ++ encodeValue field.2) ++ rest)
    have steps : others.length < fuel := by
      rw [List.length_cons] at enough
      omega
    have remaining := ih finished
      (fun other member => storable other (List.mem_cons_of_mem _ member)) steps
    rw [List.flatMap_cons, List.append_assoc, List.append_assoc, List.length_cons, readDraft,
      if_neg positive]
    simp only [readFieldKey_spelled (spellsText_encodeText named), bind, Except.bind, place,
      if_neg met, known]
    rw [← kind, read]
    exact remaining

/-- The named values that fill an empty draft make a payload that is read. -/
theorem decodeFields_encodeFields {schema : Schema} {last : Draft}
    {fields : List (String × FieldValue)}
    (fills : Draft.Fills schema (Draft.empty schema) fields last) {values : List FieldValue}
    (finished : Draft.finish schema.fields last = .ok values)
    (storable : ∀ field ∈ fields, Storable field.1 ∧ StorableValue field.2)
    (short : fields.length < 0x100000000) : decodeFields schema (encodeFields fields) = .ok values := by
  have enough := length_le_length_flatMap
    (fun field : String × FieldValue => encodeText_append_ne_nil field.1 (encodeValue field.2)) fields
  have steps : fields.length <
      stepBound (fields.flatMap fun field => encodeText field.1 ++ encodeValue field.2) := by
    rw [stepBound]
    omega
  have headed := (spellsHead_encodeMapHead short).reads.readItemHead
    (fields.flatMap fun field => encodeText field.1 ++ encodeValue field.2)
  have read := readDraft_of_fills fills finished storable (show 1 < depthLimit - 1 by decide) steps []
  rw [List.append_nil] at read
  simp only [decodeFields, readFields, encodeFields, headed, bind, Except.bind, read, Except.map]

end FramedTasks.MessagePack
