import FramedTasks.Proofs.Json.Record
import FramedTasks.Proofs.MessagePack.Record

/-! # Reading undoes writing

A record comes back from its payload, in either format and whatever the key conventions of the two
sides: fields that were left out are absent again, and an empty text or an empty map is neither
absent nor anything else. MessagePack writes lengths in at most 32 bits, JSON has no such limit.
-/

namespace FramedTasks

open MessagePack (Storable StorableValue)

/-- What a kind of record needs to be read back: values of the kinds that its schema names, and
names that can be written and told apart. -/
structure Record.Readable (α : Type) [Record α] : Prop where
  unambiguous : (Record.schema α).Unambiguous
  kinds (record : α) :
    (Record.values record).map FieldValue.kind = (Record.schema α).fields.map Field.kind
  storable : ∀ field ∈ (Record.schema α).fields, Storable field.name ∧ Storable field.digit
  short : (Record.schema α).fields.length < 0x100000000

theorem InputTask.readable : Record.Readable InputTask where
  unambiguous := by decide
  kinds _ := rfl
  storable := by decide
  short := by decide

theorem OutputTask.readable : Record.Readable OutputTask where
  unambiguous := by decide
  kinds _ := rfl
  storable := by decide
  short := by decide

namespace Codec

theorem storable_of_mem_fields {schema : Schema} (keys : KeyConvention) {values : List FieldValue}
    (names : ∀ field ∈ schema.fields, Storable field.name ∧ Storable field.digit)
    (storable : ∀ value ∈ values, StorableValue value) :
    ∀ field ∈ KeyConvention.fields keys schema values, Storable field.1 ∧ StorableValue field.2 := by
  intro named member
  rw [KeyConvention.fields_eq_written] at member
  obtain ⟨⟨field, value⟩, written, rfl⟩ := List.mem_map.mp member
  obtain ⟨known, held⟩ := List.of_mem_zip (List.mem_filter.mp written).1
  obtain ⟨byName, byDigit⟩ := names field known
  constructor
  · cases keys with
    | positional => exact byDigit
    | named => exact byName
  · exact storable value held

theorem length_fields_le (schema : Schema) (keys : KeyConvention) (values : List FieldValue) :
    (KeyConvention.fields keys schema values).length ≤ schema.fields.length := by
  rw [KeyConvention.fields_eq_written, KeyConvention.written, List.length_map]
  apply Nat.le_trans (List.length_filter_le ..)
  rw [List.length_zip]
  exact Nat.min_le_left ..

/-- A record of any readable kind comes back from its payload. -/
theorem decode_encode_of_readable {α : Type} [Record α] (readable : Record.Readable α)
    (format : WireFormat) (writing reading : KeyConvention) (record : α)
    (storable : format = .messagePack → ∀ value ∈ Record.values record, StorableValue value) :
    decode ⟨format, reading⟩ (encode ⟨format, writing⟩ record) = .ok record := by
  have fills := Draft.fills_fields readable.unambiguous writing (readable.kinds record)
  have finished := Draft.finish_map_kept writing (readable.kinds record)
  have back : decodeFields ⟨format, reading⟩ (Record.schema α) (encode ⟨format, writing⟩ record) =
      .ok (Record.values record) := by
    cases format with
    | messagePack =>
      have short := length_fields_le (Record.schema α) writing (Record.values record)
      have fit := storable_of_mem_fields writing readable.storable (storable rfl)
      have read := MessagePack.decodeFields_encodeFields fills finished fit
        (Nat.lt_of_le_of_lt short readable.short)
      simp only [decodeFields, encode, read]
      rfl
    | json =>
      have read := Json.decodeFields_encodeFields fills finished
      simp only [decodeFields, encode, read]
      rfl
  rw [decode, back]
  exact congrArg Except.ok (Record.ofValues_values record)

/-- Both kinds of record come back from their payloads, with absent fields absent, empty ones empty,
and any status. -/
theorem decode_encode_tasks (format : WireFormat) (writing reading : KeyConvention)
    (input : InputTask) (output : OutputTask)
    (inputFits : format = .messagePack → ∀ value ∈ Record.values input, StorableValue value)
    (outputFits : format = .messagePack → ∀ value ∈ Record.values output, StorableValue value) :
    decode ⟨format, reading⟩ (encode ⟨format, writing⟩ input) = .ok input ∧
      decode ⟨format, reading⟩ (encode ⟨format, writing⟩ output) = .ok output :=
  ⟨decode_encode_of_readable InputTask.readable format writing reading input inputFits,
    decode_encode_of_readable OutputTask.readable format writing reading output outputFits⟩

/-- Empty texts and an empty map beside absent fields, and a status without a name. -/
theorem decode_encode_tasks_empty :
    let input : InputTask := ⟨"", some "", none, some .empty⟩
    let output : OutputTask := ⟨"\x00", ⟨-7⟩, none, some ""⟩
    decode ⟨.messagePack, .named⟩ (encode ⟨.messagePack, .positional⟩ input) = .ok input ∧
      decode ⟨.messagePack, .named⟩ (encode ⟨.messagePack, .positional⟩ output) = .ok output :=
  decode_encode_tasks .messagePack .positional .named ⟨"", some "", none, some .empty⟩
    ⟨"\x00", ⟨-7⟩, none, some ""⟩ (by decide) (by decide)

end Codec

end FramedTasks
