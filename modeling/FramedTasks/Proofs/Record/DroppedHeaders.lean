import FramedTasks.Proofs.Json.Payload
import FramedTasks.Proofs.MessagePack.Payload
import FramedTasks.Record.Codec

/-! # Headers that are dropped

The bytes of an accepted payload say which entries its headers have, in one way only. A key is missing
from the headers of the record exactly if it has no entry or the value of the last one is dropped. In
JSON only null is dropped. In MessagePack so are the infinities and what is no number, since headers are
read as JSON values, which have no such numbers.
-/

namespace FramedTasks

/-- What the parts of a payload look like in a format. -/
def WireFormat.shapes : WireFormat → Shapes
  | .messagePack => MessagePack.shapes
  | .json => Json.shapes

/-- The entries of the headers in a payload: those of the one value that stands for the headers of its
record, and none if no value does. -/
inductive Carries (shapes : Shapes) (schema : Schema) (payload : Bytes) :
    Option (List (String × Bytes)) → Prop
  | value {items : Nat → List Bytes} {record rest item : Bytes} {place : Nat}
      {entries? : Option (List (String × Bytes))} :
      payload = record ++ rest → shapes.record schema items record →
      schema.index? "headers" = some place → items place = [item] → shapes.headers entries? item →
      Carries shapes schema payload entries?
  | absent {items : Nat → List Bytes} {record rest : Bytes} {place : Nat} :
      payload = record ++ rest → shapes.record schema items record →
      schema.index? "headers" = some place → items place = [] → Carries shapes schema payload none

/-- A payload carries one list of entries. -/
theorem Carries.unique {shapes : Shapes} {schema : Schema} {payload : Bytes}
    {entries? other? : Option (List (String × Bytes))} (carries : Carries shapes schema payload entries?)
    (also : Carries shapes schema payload other?) : entries? = other? := by
  cases carries with
  | value split record known stands headers =>
    cases also with
    | value split' record' known' stands' headers' =>
      obtain ⟨rfl, -⟩ := shapes.record_determined schema record record' (split.symm.trans split')
      obtain rfl := Option.some.inj (known.symm.trans known')
      obtain ⟨rfl, -⟩ := List.cons.inj (stands.symm.trans stands')
      exact shapes.headers_determined.same headers headers'
    | absent split' record' known' stands' =>
      obtain ⟨rfl, -⟩ := shapes.record_determined schema record record' (split.symm.trans split')
      obtain rfl := Option.some.inj (known.symm.trans known')
      exact nomatch stands.symm.trans stands'
  | absent split record known stands =>
    cases also with
    | value split' record' known' stands' _ =>
      obtain ⟨rfl, -⟩ := shapes.record_determined schema record record' (split.symm.trans split')
      obtain rfl := Option.some.inj (known.symm.trans known')
      exact nomatch stands.symm.trans stands'
    | absent _ _ _ _ => rfl

/-- The headers of a record miss the keys that the payload has no entry for, or a dropped value in the
last one, and no other keys. -/
def ExplainsHeaders (shapes : Shapes) (schema : Schema) (payload : Bytes) (held : Option Headers) :
    Prop :=
  ∃ entries?, Carries shapes schema payload entries? ∧
    (∀ other?, Carries shapes schema payload other? → other? = entries?) ∧
    AccountsFor shapes.dropped entries? held

/-- The headers among values that were read came from the value that stands for them. -/
theorem IsRead.explainsHeaders {shapes : Shapes} {schema : Schema} {values : List FieldValue}
    {record : Bytes} (read : IsRead shapes schema values record) {place : Nat}
    (known : schema.index? "headers" = some place) {field : Field}
    (found : schema.fields[place]? = some field) (kind : field.kind = .headers) (rest : Bytes) :
    ExplainsHeaders shapes schema (record ++ rest) (FieldValue.headersAt values place) := by
  obtain ⟨items, isRecord, came⟩ := read
  obtain ⟨value, present, came⟩ := came place field found
  suffices ∃ entries?, Carries shapes schema (record ++ rest) entries? ∧
      AccountsFor shapes.dropped entries? (FieldValue.headersAt values place) by
    obtain ⟨entries?, carries, accounts⟩ := this
    exact ⟨entries?, carries, fun _ other => other.unique carries, accounts⟩
  rw [FieldValue.headersAt, present]
  have nothing : ([] : Draft)[place]?.getD none = none := rfl
  rw [nothing] at came
  generalize stands : items place = standing at came
  cases came with
  | @read _ item isField =>
    have sort := isField.sort
    rw [kind] at sort
    cases value with
    | headers headers =>
      obtain ⟨entries?, isHeaders, accounts⟩ := isField.headers rfl
      exact ⟨entries?, .value rfl isRecord known stands isHeaders, accounts⟩
    | _ => contradiction
  | absent default =>
    rw [Field.default?, kind] at default
    obtain rfl := Option.some.inj default
    exact ⟨none, .absent rfl isRecord known stands, trivial⟩

namespace Codec

/-- An accepted payload starts with a record. -/
theorem isRead_of_decodeFields {format : WireFormat} {keys : KeyConvention} {schema : Schema}
    {payload : Bytes} {values : List FieldValue}
    (accepted : decodeFields ⟨format, keys⟩ schema payload = .ok values) :
    ∃ record rest, payload = record ++ rest ∧ IsRead format.shapes schema values record := by
  cases format with
  | messagePack =>
    obtain ⟨⟨values, rest⟩, read, rfl⟩ := map_eq_ok.mp (mapError_eq_ok.mp accepted)
    obtain ⟨record, split, isRead, -⟩ := (MessagePack.steady_readFields schema).taken read
    exact ⟨record, rest, split, isRead⟩
  | json =>
    obtain ⟨⟨values, rest⟩, read, ended⟩ := bind_eq_ok.mp (mapError_eq_ok.mp accepted)
    dsimp only at ended
    split at ended
    · obtain rfl := Except.ok.inj ended
      obtain ⟨record, split, isRead, -⟩ := (Json.steady_readFields schema).taken read
      exact ⟨record, rest, split, isRead⟩
    · contradiction

/-- In records of both kinds, a header is missing exactly if the payload has no entry for it or the
value of the last one is dropped. -/
theorem decode_headers_missing (format : WireFormat) (keys : KeyConvention) (payload : Bytes) :
    (∀ task : InputTask, decode ⟨format, keys⟩ payload = .ok task →
      ExplainsHeaders format.shapes (Record.schema InputTask) payload task.headers) ∧
    ∀ task : OutputTask, decode ⟨format, keys⟩ payload = .ok task →
      ExplainsHeaders format.shapes (Record.schema OutputTask) payload task.headers := by
  constructor
  · intro task accepted
    obtain ⟨values, decoded, rfl⟩ := map_eq_ok.mp accepted
    obtain ⟨record, rest, rfl, read⟩ := isRead_of_decodeFields decoded
    exact read.explainsHeaders rfl rfl rfl rest
  · intro task accepted
    obtain ⟨values, decoded, rfl⟩ := map_eq_ok.mp accepted
    obtain ⟨record, rest, rfl, read⟩ := isRead_of_decodeFields decoded
    exact read.explainsHeaders rfl rfl rfl rest

/-- A task whose headers hold a number that is none and the integer 7: only the integer stays. -/
theorem decode_headers_missing_nan :
    let payload : Bytes := [0x82, 0xA1, 0x30, 0xA1, 0x6D, 0xA1, 0x33, 0x82, 0xA1, 0x78, 0xCA, 0x7F,
      0xC0, 0, 0, 0xA1, 0x79, 7]
    let task : InputTask := { message := "m", headers := some (.ofList [("y", "7")]) }
    decode ⟨.messagePack, .positional⟩ payload = .ok task ∧
      ExplainsHeaders MessagePack.shapes (Record.schema InputTask) payload task.headers := by
  intro payload task
  have accepted : decode ⟨.messagePack, .positional⟩ payload = .ok task :=
    eq_ok_of_toOption (by decide +kernel)
  exact ⟨accepted, (decode_headers_missing .messagePack .positional payload).1 task accepted⟩

open MessagePack in
/-- A header whose value is no number, and not nil, is missing from the task. -/
theorem decode_drops_nan :
    let item : Bytes := [0xCA, 0x7F, 0xC0, 0, 0]
    let payload : Bytes := [0x82, 0xA1, 0x30, 0xA1, 0x6D, 0xA1, 0x33, 0x81, 0xA1, 0x78] ++ item
    decode ⟨.messagePack, .positional⟩ payload =
        .ok ({ message := "m", headers := some .empty } : InputTask) ∧
      Carries MessagePack.shapes (Record.schema InputTask) payload (some [("x", item)]) ∧
      item ≠ [0xC0] ∧ Headers.empty.find? "x" = none := by
  intro item payload
  have one : ReadsHead [0xA1] (.text 1) := readsHead_single fun _ => rfl
  have two : ReadsHead [0x82] (.map 2) := readsHead_single fun _ => rfl
  have letter {byte : UInt8} {text : String} (denotes : Utf8.decode [byte] = .ok text) :
      IsText text [0xA1, byte] := @IsText.intro text _ [0xA1] [byte] one (.inl rfl) denotes
  have key {digit : UInt8} {place : Nat}
      (named : named? (Record.schema InputTask) [digit] = some place) :
      IsFieldKey (Record.schema InputTask) (some place) [0xA1, digit] :=
    named ▸ @IsFieldKey.name _ _ [0xA1] [digit] one (.inl rfl)
  have number : ReadsHead item (.number (.ofBinary32 0x7FC00000)) :=
    readsHead_float (show Marker.ofByte 0xCA = .float .four from rfl) rfl
  have entries : Entries [("x", item)] (0xA1 :: 0x78 :: item) :=
    .some (letter rfl) (.plain number rfl rfl) .none
  have headers : IsHeaders (some [("x", item)]) (0x81 :: 0xA1 :: 0x78 :: item) :=
    @IsHeaders.map _ [0x81] _ (readsHead_single fun _ => rfl) entries
  have members : Members (Record.schema InputTask)
      [(some 0, [0xA1, 0x6D]), (some 3, 0x81 :: 0xA1 :: 0x78 :: item)] payload.tail :=
    .some (key rfl) (letter rfl).item (.some (key rfl) headers.item .none)
  have record := IsRecord.map two members
  exact ⟨eq_ok_of_toOption (by decide +kernel),
    .value (List.append_nil payload).symm record rfl rfl headers, by decide, rfl⟩

end Codec

end FramedTasks
