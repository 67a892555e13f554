import FramedTasks.Proofs.Record.RoundTrip

/-! # Payloads that are short enough to be read back

MessagePack writes a length in at most 32 bits. No text in a payload is longer than the payload, so
a record comes back from every payload that is shorter than that.
-/

namespace FramedTasks

namespace MessagePack

theorem length_le_of_mem_flatMap {α : Type} {items : List α} {item : α} (member : item ∈ items)
    (bytes : α → Bytes) : (bytes item).length ≤ (items.flatMap bytes).length :=
  (List.sublist_flatten_of_mem (List.mem_map_of_mem member)).length_le

theorem length_le_encodeText (text : String) :
    (Utf8.encode text).length ≤ (encodeText text).length := by
  rw [encodeText, List.length_append]
  exact Nat.le_add_left ..

theorem storable_of_length {text : String} (short : (encodeText text).length < 0x100000000) :
    Storable text :=
  Nat.lt_of_le_of_lt (length_le_encodeText text) short

/-- A value whose item is short can be written and read back. -/
theorem storableValue_of_length {value : FieldValue}
    (short : (encodeValue value).length < 0x100000000) : StorableValue value := by
  rcases value with text | status | (_ | text) | (_ | headers)
  · exact storable_of_length short
  · trivial
  · exact nofun
  · rintro _ ⟨⟩
    exact storable_of_length short
  · exact nofun
  · rintro _ ⟨⟩
    rw [encodeValue, List.length_append] at short
    constructor
    · have entries := length_le_length_flatMap
        (fun entry : String × String => encodeText_append_ne_nil entry.1 (encodeText entry.2))
        headers.entries
      omega
    · intro entry member
      have whole := length_le_of_mem_flatMap member
        fun entry : String × String => encodeText entry.1 ++ encodeText entry.2
      rw [List.length_append] at whole
      exact ⟨storable_of_length (by omega), storable_of_length (by omega)⟩

end MessagePack

namespace Codec

theorem storableValue_of_not_writes {keys : KeyConvention} {value : FieldValue}
    (silent : ¬ keys.writes value = true) : MessagePack.StorableValue value := by
  cases keys with
  | positional => exact absurd rfl silent
  | named =>
    rcases value with text | status | (_ | text) | (_ | headers)
    · exact absurd rfl silent
    · trivial
    · exact nofun
    · exact absurd rfl silent
    · exact nofun
    · exact absurd rfl silent

/-- The values of a record whose payload is short can be written and read back. -/
theorem storableValue_of_mem {schema : Schema} {keys : KeyConvention} {values : List FieldValue}
    (kinds : values.map FieldValue.kind = schema.fields.map Field.kind)
    (short : (MessagePack.encodeFields (KeyConvention.fields keys schema values)).length <
      0x100000000) :
    ∀ value ∈ values, MessagePack.StorableValue value := by
  intro value member
  have sameLength : values.length = schema.fields.length := by
    simpa using congrArg List.length kinds
  obtain ⟨index, inside, rfl⟩ := List.mem_iff_getElem.mp member
  have zipped : (schema.fields[index], values[index]) ∈ schema.fields.zip values := by
    rw [← List.getElem_zip (h := by simpa [sameLength] using inside)]
    exact List.getElem_mem _
  by_cases writes : keys.writes values[index] = true
  · have written : (keys.key schema.fields[index], values[index]) ∈
        KeyConvention.fields keys schema values := by
      rw [KeyConvention.fields_eq_written]
      exact List.mem_map_of_mem (List.mem_filter.mpr ⟨zipped, writes⟩)
    have whole := MessagePack.length_le_of_mem_flatMap written
      fun field : String × FieldValue =>
        MessagePack.encodeText field.1 ++ MessagePack.encodeValue field.2
    rw [MessagePack.encodeFields, List.length_append] at short
    simp only [List.length_append] at whole
    exact MessagePack.storableValue_of_length (by omega)
  · exact storableValue_of_not_writes writes

/-- A record of any readable kind comes back from its payload, if this is shorter than 4 GiB. -/
theorem decode_encode_of_length {α : Type} [Record α] (readable : Record.Readable α)
    (format : WireFormat) (writing reading : KeyConvention) (record : α)
    (short : (encode ⟨format, writing⟩ record).length < 0x100000000) :
    decode ⟨format, reading⟩ (encode ⟨format, writing⟩ record) = .ok record := by
  refine decode_encode_of_readable readable format writing reading record fun isMessagePack => ?_
  subst isMessagePack
  exact storableValue_of_mem (readable.kinds record) short

end Codec

end FramedTasks
