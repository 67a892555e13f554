import FramedTasks.Proofs.MessagePack.Spelled

/-! # Records in any items

Whatever value stands in the place of a field, reading the field gives what the value makes of it or
fails, and which of the two is told by the head. Members under other names are passed over, so a
payload that starts with some members is read as the record that they make.
-/

namespace FramedTasks.MessagePack

open Json (Value itemNesting memberNesting orderedItems orderedMembers)

/-- An item of another type is a fault, whatever its content. -/
theorem toOption_failType {α : Type} (depth : Nat) (wanted : Wanted) (head : Head) (bytes : Bytes) :
    (failType (α := α) depth wanted head bytes).toOption = none := by
  cases head with
  | nil | bool _ | unsigned _ | signed _ | number _ => rfl
  | text length =>
    rw [failType, toOption_bind]
    cases (readContent length bytes).toOption with
    | none => rfl
    | some found =>
      simp only [Option.bind_some]
      cases Utf8.decode found.1 <;> rfl
  | bytes length =>
    rw [failType, toOption_bind]
    cases (readContent length bytes).toOption <;> rfl
  | list _ | map _ | extension _ =>
    rw [failType, toOption_bind]
    cases (enter depth).toOption <;> rfl

/-- Whether the items of a value start with a head. -/
def StartsWith : Value → Head → Prop
  | .null, head => head = .nil
  | .bool value, head => head = .bool value
  | .integer value, head => head.integer? = some value
  | .number _, _ => False
  | .text text, head => head = .text (Utf8.encode text).length
  | .list items, head => head = .list items.length
  | .object members, head => head = .map members.length

/-- The head of an item tells the kind of its value. -/
theorem Spells.startsWith {value : Value} {bytes : Bytes} (spells : Spells (.whole value) bytes) :
    ∃ head front content, StartsWith value head ∧ ReadsHead front head ∧ bytes = front ++ content := by
  cases spells with
  | nil head => exact ⟨_, _, [], rfl, head.reads, (List.append_nil _).symm⟩
  | bool head => exact ⟨_, _, [], rfl, head.reads, (List.append_nil _).symm⟩
  | integer head integer => exact ⟨_, _, [], integer, head.reads, (List.append_nil _).symm⟩
  | text spelled =>
    cases spelled with
    | intro head => exact ⟨_, _, _, rfl, head.reads, rfl⟩
  | list head _ => exact ⟨_, _, _, rfl, head.reads, rfl⟩
  | object head _ => exact ⟨_, _, _, rfl, head.reads, rfl⟩

section Head

variable {value : Value} {head : Head} (starts : StartsWith value head) (depth : Nat) (bytes : Bytes)
include starts

theorem readStringContent_of_other (other : ∀ text, value ≠ .text text) :
    readString.readStringContent depth head bytes = failType depth .text head bytes := by
  cases value with
  | text text => exact absurd rfl (other text)
  | number => contradiction
  | integer code =>
    cases head with
    | unsigned _ | signed _ => rfl
    | _ => contradiction
  | null | bool _ | list _ | object _ =>
    obtain rfl := starts
    rfl

theorem ne_nil_of_startsWith (other : value ≠ .null) : head ≠ .nil := by
  rintro rfl
  cases value <;> contradiction

/-- Only integers start with a head that holds one. -/
theorem integer?_of_startsWith (other : ∀ code, value ≠ .integer code) : head.integer? = none := by
  cases value with
  | integer code => exact absurd rfl (other code)
  | number => contradiction
  | null | bool _ | text _ | list _ | object _ =>
    obtain rfl := starts
    rfl

/-- Only objects start with the head of a map. -/
theorem ne_map_of_startsWith (other : ∀ members, value ≠ .object members) (length : Nat) :
    head ≠ .map length := by
  rintro rfl
  cases value with
  | object members => exact absurd rfl (other members)
  | _ => contradiction

end Head

private theorem head_of_number {width : Nat} {bytes tail : Bytes} {wrap : Nat → Head} {head : Head}
    (headed : (do
      let (number, rest) ← readNumber width bytes
      .ok (wrap number, rest)) = Except.ok (head, tail)) : ∃ number, head = wrap number := by
  cases read : readNumber width bytes with
  | error fault =>
    rw [read] at headed
    contradiction
  | ok found =>
    rw [read] at headed
    obtain ⟨rfl, -⟩ := Prod.mk.inj (Except.ok.inj headed)
    exact ⟨found.1, rfl⟩

/-- Only the markers of numbers hold integers. -/
theorem marker_of_integer {marker : Marker} {head : Head} {tail rest : Bytes} {value : Int}
    (headed : readHead marker tail = .ok (head, rest)) (integer : head.integer? = some value) :
    (∃ number, marker = .fixPos number) ∨ (∃ number, marker = .fixNeg number) ∨
      (∃ width, marker = .unsigned width) ∨ ∃ width, marker = .signed width := by
  cases marker with
  | fixPos number => exact .inl ⟨number, rfl⟩
  | fixNeg number => exact .inr (.inl ⟨number, rfl⟩)
  | unsigned width => exact .inr (.inr (.inl ⟨width, rfl⟩))
  | signed width => exact .inr (.inr (.inr ⟨width, rfl⟩))
  | reserved => contradiction
  | nil | bool _ | fixMap _ | fixArray _ | fixStr _ | fixExt _ =>
    obtain ⟨rfl, -⟩ := Prod.mk.inj (Except.ok.inj headed)
    contradiction
  | str _ | array _ | map _ | bin _ | ext _ =>
    obtain ⟨_, rfl⟩ := head_of_number headed
    contradiction
  | float width =>
    obtain ⟨_, rfl⟩ := @head_of_number width.bytes tail rest (fun pattern => .number
      (if width = .four then .ofBinary32 (UInt32.ofNat pattern) else ⟨UInt64.ofNat pattern⟩)) head
      headed
    contradiction

/-- A head that holds an integer is read as the status of that number, if there is one. -/
theorem ReadsHead.readStatus {bytes : Bytes} {head : Head} (reads : ReadsHead bytes head)
    {value : Int} (integer : head.integer? = some value) (rest : Bytes) :
    readStatus (bytes ++ rest) = readStatus.ofInteger value rest := by
  obtain ⟨marker, tail, marked, headed⟩ := reads rest
  have numeric := marker_of_integer headed integer
  rw [MessagePack.readStatus, marked]
  simp only [bind, Except.bind]
  generalize readHead marker tail = result at headed
  subst headed
  cases head with
  | unsigned value =>
    obtain rfl := Option.some.inj integer
    rcases numeric with ⟨_, rfl⟩ | ⟨_, rfl⟩ | ⟨_, rfl⟩ | ⟨_, rfl⟩ <;> rfl
  | signed value =>
    obtain rfl := Option.some.inj integer
    rcases numeric with ⟨_, rfl⟩ | ⟨_, rfl⟩ | ⟨_, rfl⟩ | ⟨_, rfl⟩ <;> rfl
  | _ => contradiction

/-- A head without an integer is a fault, whatever its marker. -/
theorem toOption_readStatus_of_integer?_eq_none {bytes : Bytes} {head : Head}
    (reads : ReadsHead bytes head) (other : head.integer? = none) (rest : Bytes) :
    (readStatus (bytes ++ rest)).toOption = none := by
  obtain ⟨marker, tail, marked, headed⟩ := reads rest
  rw [readStatus, marked]
  simp only [bind, Except.bind]
  cases marker with
  | nil | bool _ | fixPos _ | fixNeg _ | unsigned _ | signed _ | float _ =>
    simp only [headed]
    cases head with
    | unsigned _ | signed _ => contradiction
    | _ => exact toOption_failType ..
  | _ => rfl

section Field

variable {value : Value} {bytes : Bytes} (spells : Spells (.whole value) bytes) (rest : Bytes)
include spells

/-- A text is read, and an item of any other value is a fault. -/
theorem toOption_readString (depth : Nat) :
    (readString depth (bytes ++ rest)).toOption = (soleText? [value]).map (·, rest) := by
  by_cases text : ∃ text, value = .text text
  · obtain ⟨text, rfl⟩ := text
    cases spells with
    | text spelled =>
      rw [readString_spelled spelled]
      rfl
  · have other : soleText? [value] = none := by
      cases value with
      | text held => exact absurd ⟨held, rfl⟩ text
      | _ => rfl
    obtain ⟨head, front, content, starts, reads, rfl⟩ := spells.startsWith
    have failed := readStringContent_of_other starts depth (content ++ rest)
      fun held same => text ⟨held, same⟩
    rw [List.append_assoc, readString, reads.readItemHead, other]
    exact (congrArg Except.toOption failed).trans (toOption_failType ..)

/-- A text or nil is read, and an item of any other value is a fault. -/
theorem toOption_readOptionalString (depth : Nat) :
    (readOptionalString depth (bytes ++ rest)).toOption =
      (textOrAbsent? [value]).map (·, rest) := by
  have asText := toOption_readString spells rest depth
  by_cases null : value = .null
  · subst null
    cases spells with
    | nil head =>
      cases head
      rfl
  · have other : (soleText? [value]).map some = textOrAbsent? [value] := by
      cases value with
      | null => exact absurd rfl null
      | _ => rfl
    obtain ⟨head, front, content, starts, reads, rfl⟩ := spells.startsWith
    obtain ⟨marker, tail, marked, present, headed⟩ :=
      reads.marked (ne_nil_of_startsWith starts null) (content ++ rest)
    rw [List.append_assoc] at asText ⊢
    rw [readString, reads.readItemHead] at asText
    rw [readOptionalString, marked]
    simp only [bind, Except.bind, if_neg present, headed] at asText ⊢
    rw [← other]
    cases sole : soleText? [value] with
    | none =>
      rw [sole] at asText
      obtain ⟨fault, failed⟩ := exists_error_of_toOption asText
      rw [failed]
      rfl
    | some text =>
      rw [sole] at asText
      rw [eq_ok_of_toOption asText]
      rfl

/-- An integer is read as a status if it fits one, and an item of any other value is a fault. -/
theorem toOption_readStatus : (readStatus (bytes ++ rest)).toOption =
    (soleStatus? [value]).map (·, rest) := by
  by_cases integer : ∃ code, value = .integer code
  · obtain ⟨code, rfl⟩ := integer
    cases spells with
    | integer spelled known =>
      rw [spelled.reads.readStatus known, readStatus.ofInteger, soleStatus?]
      cases Status.ofInt? code <;> rfl
  · have other : soleStatus? [value] = none := by
      cases value with
      | integer code => exact absurd ⟨code, rfl⟩ integer
      | _ => rfl
    obtain ⟨head, front, content, starts, reads, rfl⟩ := spells.startsWith
    rw [List.append_assoc, other]
    exact toOption_readStatus_of_integer?_eq_none reads (integer?_of_startsWith starts
      fun code same => integer ⟨code, same⟩) _

/-- An object of any values or nil is read as headers, and an item of any other value is a fault. -/
theorem toOption_readHeaders {depth : Nat} (shallow : value.nesting < depth) :
    (readHeaders depth (bytes ++ rest)).toOption = (headersOrAbsent? [value]).map (·, rest) := by
  by_cases object : ∃ members, value = .object members
  · obtain ⟨members, rfl⟩ := object
    cases spells with
    | @object _ head bytes spelled members =>
      rw [Value.nesting] at shallow
      obtain ⟨marker, tail, marked, present, headed⟩ :=
        spelled.reads.marked Head.noConfusion (bytes ++ rest)
      have read := members.isRead (depth - 1) (2 * (bytes ++ rest).length + 1) false [] rest (by omega)
        (by rw [List.length_append]; omega)
      rw [List.append_assoc, readHeaders, marked]
      simp only [bind, Except.bind, if_neg present, headed, enter_of_lt (show 1 < depth by omega),
        stepBound, read]
      rfl
  by_cases null : value = .null
  · subst null
    cases spells with
    | nil head =>
      cases head
      rfl
  · have other : headersOrAbsent? [value] = none := by
      cases value with
      | null => exact absurd rfl null
      | object members => exact absurd ⟨members, rfl⟩ object
      | _ => rfl
    obtain ⟨head, front, content, starts, reads, rfl⟩ := spells.startsWith
    obtain ⟨marker, tail, marked, present, headed⟩ :=
      reads.marked (ne_nil_of_startsWith starts null) (content ++ rest)
    rw [List.append_assoc, readHeaders, marked, other]
    simp only [bind, Except.bind, if_neg present, headed]
    cases head with
    | map length =>
      exact absurd rfl
        (ne_map_of_startsWith starts (fun members same => object ⟨members, same⟩) length)
    | _ => exact toOption_failType ..

/-- Reading a field gives what its value makes of it. -/
theorem toOption_readField (kind : FieldKind) {depth : Nat} (shallow : value.nesting < depth) :
    (readField depth kind (bytes ++ rest)).toOption =
      (FieldValue.ofValues? kind [value]).map (·, rest) := by
  cases kind with
  | text => exact toOption_map_wrap (toOption_readString spells rest depth) FieldValue.text
  | status => exact toOption_map_wrap (toOption_readStatus spells rest) FieldValue.status
  | optionalText =>
    exact toOption_map_wrap (toOption_readOptionalString spells rest depth) FieldValue.optionalText
  | headers => exact toOption_map_wrap (toOption_readHeaders spells rest shallow) FieldValue.headers

end Field

theorem readFieldKey_spelled {name : String} {bytes : Bytes} (spells : SpellsText name bytes)
    (schema : Schema) (depth : Nat) (rest : Bytes) :
    readFieldKey schema depth (bytes ++ rest) = .ok (schema.index? name, rest) := by
  obtain ⟨head, reads, split⟩ := spells.split rest
  simp only [split, readFieldKey, reads.readItemHead, bind, Except.bind, readContent_append,
    Utf8.decode_encode]

/-- Members complete a draft as they stand, whatever their items. -/
theorem toOption_readDraft {schema : Schema} (disjoint : Schema.Disjoint schema.fields)
    {members : List (String × Value)} {depth : Nat} (shallow : memberNesting members < depth)
    {bytes : Bytes} (spells : Spells (.objectMembers members) bytes) {draft : Draft}
    (level : draft.length = schema.fields.length) {fuel : Nat} (enough : bytes.length ≤ fuel)
    (rest : Bytes) :
    (readDraft schema depth members.length draft (fuel + 1) (bytes ++ rest)).toOption =
      (draft.complete members schema.fields).map (·, rest) := by
  induction members generalizing bytes draft fuel with
  | nil =>
    cases spells with
    | noMember =>
      rw [List.length_nil, readDraft, if_pos rfl, Draft.complete_nil]
      cases Draft.finish schema.fields draft <;> rfl
  | cons member members ih =>
    obtain ⟨key, value⟩ := member
    rw [memberNesting] at shallow
    cases spells with
    | @member _ _ _ name bytes more named spelled others =>
      have positive := named.length_pos
      rw [List.length_append, List.length_append] at enough
      obtain ⟨spare, rfl⟩ : ∃ spare, fuel = spare + 1 := ⟨fuel - 1, by omega⟩
      have remaining (draft : Draft) (level : draft.length = schema.fields.length) :=
        ih (by omega) others level (show more.length ≤ spare by omega)
      have some : ¬ members.length + 1 = 0 := Nat.succ_ne_zero _
      rw [List.length_cons, List.append_assoc, List.append_assoc, readDraft, if_neg some,
        readFieldKey_spelled named, Nat.add_sub_cancel]
      simp only [bind, Except.bind]
      cases known : schema.index? key with
      | none =>
        have skipped := spelled.isSkipped depth (2 * (bytes ++ (more ++ rest)).length + 1)
          (more ++ rest) (by omega) (by rw [List.length_append]; omega)
        rw [Draft.complete_cons_of_unknown value members known]
        simp only [stepBound, skipped]
        exact remaining draft level
      | some index =>
        obtain ⟨present, -⟩ := List.findIdx?_eq_some_iff_getElem.mp known
        have place := List.getElem?_eq_getElem present
        have read := toOption_readField spelled (more ++ rest) schema.fields[index].kind
          (show value.nesting < depth by omega)
        rw [Draft.complete_cons_of_known value members disjoint known place level]
        simp only [place]
        split
        · rfl
        · cases taken : FieldValue.ofValues? schema.fields[index].kind [value] with
          | none =>
            rw [taken] at read
            obtain ⟨fault, failed⟩ := exists_error_of_toOption read
            rw [failed]
            rfl
          | some held =>
            rw [taken] at read
            rw [eq_ok_of_toOption read]
            exact remaining (draft.put index held) (by rw [Draft.put, List.length_set, level])

/-- A payload is read as the record that its members make, whatever follows them. -/
theorem toOption_decodeFields {schema : Schema} (disjoint : Schema.Disjoint schema.fields)
    {members : List (String × Value)} {payload : Bytes}
    (spells : Spells (.whole (.object members)) payload)
    (shallow : (Value.object members).nesting < depthLimit) (rest : Bytes) :
    (decodeFields schema (payload ++ rest)).toOption =
      (Draft.empty schema).complete members schema.fields := by
  cases spells with
  | @object _ head bytes spelled others =>
    rw [Value.nesting] at shallow
    have inner : memberNesting members < depthLimit - 1 := by omega
    have level : (Draft.empty schema).length = schema.fields.length := List.length_replicate
    have enough : bytes.length ≤ 2 * (bytes ++ rest).length + 1 := by
      rw [List.length_append]
      omega
    have read := toOption_readDraft disjoint inner others level enough rest
    rw [decodeFields, toOption_map, readFields, List.append_assoc, spelled.reads.readItemHead]
    simp only [bind, Except.bind, stepBound, read, Option.map_map]
    exact congrFun Option.map_id _

end FramedTasks.MessagePack
