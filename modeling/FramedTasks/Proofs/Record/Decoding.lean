import FramedTasks.Proofs.Json.Compact
import FramedTasks.Proofs.Json.Members
import FramedTasks.Proofs.MessagePack.Members

/-! # Payloads of either key convention

A payload that spells an object is read as the record that its members make: the convention of the
names, the order of the members and members under other names do not matter, and neither does the
spelling. A field that stands twice, under one name or under two, is refused.
-/

namespace FramedTasks

/-- Lists and objects nest less deep than this in a payload. -/
def WireFormat.depthLimit : WireFormat → Nat
  | .messagePack => MessagePack.depthLimit
  | .json => Json.depthLimit

/-- Whether a payload is an object of some members. -/
def WireFormat.Spells (format : WireFormat) (members : List (String × Json.Value))
    (payload : Bytes) : Prop :=
  match format with
  | .messagePack => MessagePack.Spells (.whole (.object members)) payload
  | .json => Json.SpellsPayload members payload

namespace Codec

section Members

variable {format : WireFormat} {members : List (String × Json.Value)} {payload : Bytes}
  (spells : format.Spells members payload)
  (shallow : (Json.Value.object members).nesting < format.depthLimit)
include spells shallow

theorem toOption_decodeFields {schema : Schema} (disjoint : Schema.Disjoint schema.fields)
    (keys : KeyConvention) : (decodeFields ⟨format, keys⟩ schema payload).toOption =
      (Draft.empty schema).complete members schema.fields := by
  cases format with
  | messagePack =>
    have read := MessagePack.toOption_decodeFields disjoint spells shallow []
    rw [List.append_nil] at read
    simp only [decodeFields]
    cases decoded : MessagePack.decodeFields schema payload <;> rw [← read, decoded] <;> rfl
  | json =>
    have read := Json.toOption_decodeFields disjoint spells shallow
    simp only [decodeFields]
    cases decoded : Json.decodeFields schema payload <;> rw [← read, decoded] <;> rfl

/-- A record of any kind that is found in its members is read from any payload of them. -/
theorem toOption_decode_of_found {α : Type} [Record α]
    {ofMembers? : List (String × Json.Value) → Option α} (found : Record.Found α ofMembers?)
    (keys : KeyConvention) :
    (decode (α := α) ⟨format, keys⟩ payload).toOption = ofMembers? members := by
  rw [decode, toOption_map, toOption_decodeFields spells shallow found.disjoint, found.complete]

end Members

/-- Both kinds of record are what the members of a payload make, and an error if these make none, as
when a field stands there twice. -/
theorem decode_members (format : WireFormat) (keys : KeyConvention)
    (members : List (String × Json.Value)) (payload : Bytes)
    (spells : format.Spells members payload)
    (shallow : (Json.Value.object members).nesting < format.depthLimit) :
    let input : Except CodecError InputTask := decode ⟨format, keys⟩ payload
    let output : Except CodecError OutputTask := decode ⟨format, keys⟩ payload
    input.toOption = InputTask.ofMembers? members ∧
      output.toOption = OutputTask.ofMembers? members ∧
      (∀ field ∈ (Record.schema InputTask).fields, 1 < (under field.names members).length →
        ∃ error, input = .error error) ∧
      ∀ field ∈ (Record.schema OutputTask).fields, 1 < (under field.names members).length →
        ∃ error, output = .error error := by
  have input := toOption_decode_of_found spells shallow InputTask.found keys
  have output := toOption_decode_of_found spells shallow OutputTask.found keys
  refine ⟨input, output, fun field known twice => ?_, fun field known twice => ?_⟩
  · rw [InputTask.found.twice known twice] at input
    exact exists_error_of_toOption input
  · rw [OutputTask.found.twice known twice] at output
    exact exists_error_of_toOption output

/-- A payload with names of all three kinds and one that no field has is an input task, but no output
task: `3` is not the name of its headers, and there is no status. With the message a second time, even
as null, it is no task at all. -/
theorem decode_members_mixed :
    let members : List (String × Json.Value) :=
      [("trace", .list [.object [("0", .null), ("message", .bool true)]]),
        ("3", .object [("n", .integer 7), ("z", .null)]), ("Message", .text "m"),
        ("correlationId", .null)]
    let once := Utf8.encodeChars (Json.Value.chars (.object members))
    let twice := Utf8.encodeChars (Json.Value.chars (.object (("0", .null) :: members)))
    (decode (α := InputTask) ⟨.json, .positional⟩ once).toOption =
        some ⟨"m", none, none, some (.ofList [("n", "7")])⟩ ∧
      (decode (α := OutputTask) ⟨.json, .positional⟩ once).toOption = none ∧
      ∃ error, decode (α := InputTask) ⟨.json, .positional⟩ twice = .error error := by
  intro members once twice
  obtain ⟨input, output, -, -⟩ :=
    decode_members .json .positional members once (Json.spellsPayload_chars rfl) (by decide)
  obtain ⟨-, -, doubled, -⟩ :=
    decode_members .json .positional (("0", .null) :: members) twice
      (Json.spellsPayload_chars rfl) (by decide)
  exact ⟨input.trans (by decide), output.trans (by decide),
    doubled ⟨"message", "0", "Message", .text⟩ (by decide) (by decide)⟩

end Codec

end FramedTasks
