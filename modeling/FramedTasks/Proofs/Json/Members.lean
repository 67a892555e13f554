import FramedTasks.Proofs.Json.Spelled

/-! # Records in any spelling

Whatever value stands in the place of a field, reading the field gives what the value makes of it or
fails, and which of the two is told by the first byte. Members under other names are passed over, so
a payload that spells some members is read as the record that they make.
-/

namespace FramedTasks.Json

section Fault

variable {α β : Type}

theorem toOption_bind_failRecord (result : Except Fault α) (fault : α → RecordFault)
    (unread : α → Bytes) :
    (result >>= fun value => failRecord (α := β) (fault value) (unread value)).toOption = none := by
  cases result <;> rfl

/-- A value of another type is a fault, be it well formed or not. -/
theorem toOption_failType (wanted : Wanted) (bytes : Bytes) :
    (failType (α := α) wanted bytes).toOption = none := by
  cases bytes with
  | nil => rfl
  | cons byte rest =>
    unfold failType
    simp only
    split
    · exact toOption_bind_failRecord _ _ _
    split
    · exact toOption_bind_failRecord _ _ _
    split
    · exact toOption_bind_failRecord _ _ _
    split
    · exact toOption_bind_failRecord _ _ _
    split
    · exact toOption_bind_failRecord _ _ _
    split
    · exact toOption_bind_failRecord _ _ _
    split
    · rfl
    split <;> rfl

end Fault

section First

variable {value : Value}

theorem Value.eq_null_of_startsWith (starts : value.startsWith 0x6E = true) : value = .null := by
  rcases value with _ | (_ | _) | _ | _ | _ | _ | _ <;> first | rfl | contradiction

theorem Value.eq_text_of_startsWith (starts : value.startsWith 0x22 = true) :
    ∃ text, value = .text text := by
  rcases value with _ | (_ | _) | _ | _ | _ | _ | _ <;> first | exact ⟨_, rfl⟩ | contradiction

theorem Value.eq_object_of_startsWith (starts : value.startsWith 0x7B = true) :
    ∃ members, value = .object members := by
  rcases value with _ | (_ | _) | _ | _ | _ | _ | _ <;> first | exact ⟨_, rfl⟩ | contradiction

theorem Value.eq_integer_of_startsWith {byte : UInt8} (starts : value.startsWith byte = true)
    (number : (byte == 0x2D || isDigit byte) = true) : ∃ code, value = .integer code := by
  rcases value with _ | (_ | _) | _ | _ | _ | _ | _
  case integer => exact ⟨_, rfl⟩
  case number => contradiction
  all_goals
    obtain rfl := beq_iff_eq.mp starts
    contradiction

end First

theorem toOption_readStatus_ofNumber (code : Int) (rest : Bytes) :
    (readStatus.ofNumber (.integer code, rest)).toOption =
      (soleStatus? [.integer code]).map (·, rest) := by
  rw [readStatus.ofNumber, soleStatus?]
  cases Status.ofInt? code <;> rfl

theorem toOption_readStatus_readsInteger {code : Int} {bytes : Bytes} (reads : ReadsInteger code bytes)
    {stop : UInt8} (ends : EndsNumber stop) (rest : Bytes) :
    (readStatus (bytes ++ stop :: rest)).toOption =
      (soleStatus? [.integer code]).map (·, stop :: rest) := by
  cases reads with
  | negative reads =>
    rw [List.cons_append, readStatus, skipBlank_cons rfl]
    simp only [if_true, (reads stop rest ends).1, bind, Except.bind, toOption_readStatus_ofNumber]
  | positive digit reads =>
    rw [List.cons_append, readStatus, skipBlank_cons (not_isBlank_of_isDigit digit)]
    simp only [ne_of_isDigit digit (show isDigit 0x2D = false from rfl), if_false, digit, if_true,
      (reads stop rest ends).1, bind, Except.bind, toOption_readStatus_ofNumber]

section Field

variable {value : Value} {bytes : Bytes} (spells : Spells (.whole value) bytes)
include spells

/-- A text is read, and any other value is a fault. -/
theorem toOption_readString (rest : Bytes) :
    (readString (bytes ++ rest)).toOption = (soleText? [value]).map (·, rest) := by
  obtain ⟨byte, tail, rfl, starts⟩ := spells.startsWith
  rw [List.cons_append, readString, skipBlank_cons (Value.startsWith_solid starts).1]
  by_cases quote : byte = 0x22
  · subst quote
    obtain ⟨text, rfl⟩ := Value.eq_text_of_startsWith starts
    cases spells with
    | text spelled =>
      rw [List.append_assoc]
      simp only [if_true, List.singleton_append, readText_spelled spelled]
      rfl
  · have other : soleText? [value] = none := by
      cases value with
      | text text => exact absurd (beq_iff_eq.mp starts) quote
      | _ => rfl
    simp only [if_neg quote, toOption_failType, other, Option.map_none]

/-- A text or null is read, and any other value is a fault. -/
theorem toOption_readOptionalString (rest : Bytes) :
    (readOptionalString (bytes ++ rest)).toOption = (textOrAbsent? [value]).map (·, rest) := by
  have asText := toOption_readString spells rest
  obtain ⟨byte, tail, rfl, starts⟩ := spells.startsWith
  rw [List.cons_append] at asText ⊢
  rw [readOptionalString, skipBlank_cons (Value.startsWith_solid starts).1]
  by_cases letter : byte = 0x6E
  · subst letter
    obtain rfl := Value.eq_null_of_startsWith starts
    cases spells
    rfl
  · have other : (soleText? [value]).map some = textOrAbsent? [value] := by
      cases value with
      | null => exact absurd (beq_iff_eq.mp starts) letter
      | _ => rfl
    simp only [if_neg letter, toOption_bind, asText, ← other]
    cases soleText? [value] <;> rfl

/-- An integer is read as a status if it fits one, and any other value is a fault. -/
theorem toOption_readStatus {stop : UInt8} (ends : EndsNumber stop) (rest : Bytes) :
    (readStatus (bytes ++ stop :: rest)).toOption =
      (soleStatus? [value]).map (·, stop :: rest) := by
  obtain ⟨byte, tail, begins, starts⟩ := spells.startsWith
  by_cases number : (byte == 0x2D || isDigit byte) = true
  · obtain ⟨code, rfl⟩ := Value.eq_integer_of_startsWith starts number
    cases spells with
    | integer least most =>
      exact toOption_readStatus_readsInteger (readsInteger_intChars least most) ends rest
  · have other : soleStatus? [value] = none := by
      cases value with
      | integer code => exact absurd starts number
      | _ => rfl
    obtain ⟨noMinus, noDigit⟩ := Bool.or_eq_false_iff.mp (Bool.not_eq_true _ ▸ number)
    rw [begins, List.cons_append, readStatus, skipBlank_cons (Value.startsWith_solid starts).1]
    simp only [if_neg (beq_eq_false_iff_ne.mp noMinus), noDigit, Bool.false_eq_true, if_false,
      toOption_failType, other, Option.map_none]

/-- An object of any values or null is read as headers, and any other value is a fault. -/
theorem toOption_readHeaders {depth : Nat} (shallow : value.nesting < depth)
    (rest : Bytes) : (readHeaders depth (bytes ++ rest)).toOption =
      (headersOrAbsent? [value]).map (·, rest) := by
  obtain ⟨byte, tail, rfl, starts⟩ := spells.startsWith
  rw [List.cons_append, readHeaders, skipBlank_cons (Value.startsWith_solid starts).1]
  by_cases letter : byte = 0x6E
  · subst letter
    obtain rfl := Value.eq_null_of_startsWith starts
    cases spells
    rfl
  by_cases brace : byte = 0x7B
  · subst brace
    obtain ⟨members, rfl⟩ := Value.eq_object_of_startsWith starts
    cases spells with
    | object spelled =>
      rw [Value.nesting] at shallow
      have inside : ¬ depth ≤ 1 := by omega
      have read := spelled.isRead (depth - 1) (2 * (tail ++ rest).length + 1) [] rest (by omega)
        (by rw [List.length_append]; omega)
      simp only [if_neg letter, if_true, if_neg inside, stepBound, read]
      rfl
  · have other : headersOrAbsent? [value] = none := by
      cases value with
      | null => exact absurd (beq_iff_eq.mp starts) letter
      | object members => exact absurd (beq_iff_eq.mp starts) brace
      | _ => rfl
    simp only [if_neg letter, if_neg brace, toOption_failType, other, Option.map_none]

/-- Reading a field gives what its value makes of it. -/
theorem toOption_readField (kind : FieldKind) {depth : Nat} (shallow : value.nesting < depth)
    {stop : UInt8} (ends : EndsNumber stop) (rest : Bytes) :
    (readField depth kind (bytes ++ stop :: rest)).toOption =
      (FieldValue.ofValues? kind [value]).map (·, stop :: rest) := by
  cases kind with
  | text => exact toOption_map_wrap (toOption_readString spells _) FieldValue.text
  | status => exact toOption_map_wrap (toOption_readStatus spells ends rest) FieldValue.status
  | optionalText => exact toOption_map_wrap (toOption_readOptionalString spells _) FieldValue.optionalText
  | headers => exact toOption_map_wrap (toOption_readHeaders spells shallow _) FieldValue.headers

end Field

/-- Blanks before the value of a field are passed over. -/
theorem readField_blank (depth : Nat) (kind : FieldKind) {blanks : Bytes} (blank : Blank blanks)
    (bytes : Bytes) : readField depth kind (blanks ++ bytes) = readField depth kind bytes := by
  cases kind with
  | text => rw [readField, readField, readString, readString, skipBlank_append blank]
  | status => rw [readField, readField, readStatus, readStatus, skipBlank_append blank]
  | optionalText =>
    rw [readField, readField, readOptionalString, readOptionalString, skipBlank_append blank]
  | headers => rw [readField, readField, readHeaders, readHeaders, skipBlank_append blank]

/-- Members complete a draft as they stand, whatever their spelling. -/
theorem toOption_readDraft {schema : Schema} (disjoint : Schema.Disjoint schema.fields)
    {members : List (String × Value)} {depth : Nat} (shallow : memberNesting members < depth)
    {first : Bool} {bytes : Bytes} (spells : Spells (.objectFrom first members) bytes)
    {draft : Draft} (level : draft.length = schema.fields.length) {fuel : Nat}
    (enough : bytes.length ≤ fuel) (rest : Bytes) :
    (readDraft schema depth first draft (fuel + 1) (bytes ++ rest)).toOption =
      (draft.complete members schema.fields).map (·, rest) := by
  induction members generalizing first bytes draft fuel with
  | nil =>
    cases spells with
    | noMember blank =>
      rw [List.append_assoc, List.singleton_append, readDraft, nextKey_blank rest blank,
        Draft.complete_nil]
      simp only [bind, Except.bind]
      cases Draft.finish schema.fields draft <;> rfl
  | cons member members ih =>
    obtain ⟨key, value⟩ := member
    rw [memberNesting] at shallow
    cases spells with
    | @member _ _ _ _ separator name before after bytes more separates named colon gap spelled others =>
      simp only [List.length_append, List.length_cons] at enough
      obtain ⟨spare, rfl⟩ : ∃ spare, fuel = spare + 1 := ⟨fuel - 1, by omega⟩
      obtain ⟨stop, tail, follows, ends⟩ := others.ends_member rest
      have remaining (draft : Draft) (level : draft.length = schema.fields.length) :=
        ih (by omega) others level (show more.length ≤ spare by omega)
      rw [follows] at remaining
      rw [member_append, follows, readDraft, nextKey_separates _ separates]
      simp only [bind, Except.bind, readText_spelled named]
      cases known : schema.index? key with
      | none =>
        rw [readColon_blank _ colon, Draft.complete_cons_of_unknown value members known]
        simp only [spelled.skipValue gap ends]
        exact remaining draft level
      | some index =>
        obtain ⟨present, -⟩ := List.findIdx?_eq_some_iff_getElem.mp known
        have place := List.getElem?_eq_getElem present
        rw [Draft.complete_cons_of_known value members disjoint known place level]
        simp only [place]
        split
        · rfl
        · have read := toOption_readField spelled schema.fields[index].kind
            (show value.nesting < depth by omega) ends tail
          rw [readColon_blank _ colon]
          simp only [readField_blank depth _ gap]
          cases taken : FieldValue.ofValues? schema.fields[index].kind [value] with
          | none =>
            rw [taken] at read
            obtain ⟨fault, failed⟩ := exists_error_of_toOption read
            rw [failed]
            rfl
          | some held =>
            rw [taken] at read
            rw [eq_ok_of_toOption read]
            exact remaining (draft.put index held) (by rw [Draft.put, List.length_set, level])

/-- A payload is read as the record that its members make. -/
theorem toOption_decodeFields {schema : Schema} (disjoint : Schema.Disjoint schema.fields)
    {members : List (String × Value)} {payload : Bytes} (spells : SpellsPayload members payload)
    (shallow : (Value.object members).nesting < depthLimit) :
    (decodeFields schema payload).toOption =
      (Draft.empty schema).complete members schema.fields := by
  cases spells with
  | @object before bytes after gap spelled trailing =>
    cases spelled with
    | @object _ bytes spelled =>
      rw [Value.nesting] at shallow
      have level : (Draft.empty schema).length = schema.fields.length := List.length_replicate
      have inner : memberNesting members < depthLimit - 1 := by omega
      have enough : bytes.length ≤ 2 * (bytes ++ after).length + 1 := by
        rw [List.length_append]
        omega
      have read := toOption_readDraft disjoint inner spelled level enough after
      have ended : skipBlank after = [] := by
        have all := @skipBlank_append after [] trailing
        rwa [List.append_nil] at all
      rw [List.cons_append, decodeFields, readFields,
        skipBlank_append_cons gap (show isBlank 0x7B = false from rfl)]
      simp only [show ¬ (0x7B : UInt8) = 0x5B by decide, if_false, if_true, stepBound]
      cases made : (Draft.empty schema).complete members schema.fields with
      | none =>
        rw [made] at read
        obtain ⟨fault, failed⟩ := exists_error_of_toOption read
        rw [failed]
        rfl
      | some values =>
        rw [made] at read
        rw [eq_ok_of_toOption read]
        simp only [bind, Except.bind, ended]
        rfl

end FramedTasks.Json
