import FramedTasks.Proofs.Json.Payload
import FramedTasks.Proofs.MessagePack.Payload
import FramedTasks.Record.Codec

/-! # Bytes after a record

Where the record of an accepted payload ends does not depend on the bytes after it. In JSON these may
only be blanks, and the first one that is not is reported. MessagePack does not look at them: whatever
follows a record in its frame, the record is accepted.
-/

namespace FramedTasks

variable {schema : Schema} {payload : Bytes} {values : List FieldValue}

/-- The record in a MessagePack payload stays the same if any bytes follow. -/
theorem MessagePack.decodeFields_append (accepted : decodeFields schema payload = .ok values)
    (extra : Bytes) : decodeFields schema (payload ++ extra) = .ok values := by
  obtain ⟨⟨values, rest⟩, read, rfl⟩ := map_eq_ok.mp accepted
  exact map_eq_ok.mpr ⟨_, (steady_readFields schema).append read nofun extra, rfl⟩

/-- The record in a JSON payload stays the same if blanks follow, and any other byte is a fault. -/
theorem Json.decodeFields_append (accepted : decodeFields schema payload = .ok values)
    (extra : Bytes) : decodeFields schema (payload ++ extra) =
      match extra.dropWhile isBlank with
      | [] => .ok values
      | stop :: more => failAfter .trailingCharacters (stop :: more) := by
  obtain ⟨⟨values, rest⟩, read, ended⟩ := bind_eq_ok.mp accepted
  dsimp only at ended
  split at ended
  · next blank =>
    obtain rfl := Except.ok.inj ended
    have skipped : skipBlank (rest ++ extra) = extra.dropWhile isBlank :=
      skipBlank_append (List.dropWhile_eq_nil_iff.mp blank)
    have extended := (steady_readFields schema).append read (fun looks => Bool.noConfusion looks) extra
    rw [decodeFields, extended]
    simp only [bind, Except.bind, skipped]
    cases extra.dropWhile isBlank <;> rfl
  · contradiction

/-- The place of a fault just after the first of the unread bytes. -/
theorem Json.Fault.place_append (cause : Cause) (front more : Bytes) :
    Fault.place (front ++ more) ⟨cause, more.length⟩ = .after front := by
  rw [Fault.place, List.length_append, Nat.add_sub_cancel, List.take_left]

namespace Codec

/-- If a payload is accepted, so is any continuation of it in MessagePack, as the same record. In JSON
only blanks may follow; the first byte that is none is a fault just after that byte. -/
theorem decode_append {α : Type} [Record α] (format : WireFormat) (keys : KeyConvention)
    (payload extra : Bytes) (record : α) (accepted : decode ⟨format, keys⟩ payload = .ok record) :
    decode ⟨format, keys⟩ (payload ++ extra) =
      match format, extra.dropWhile Json.isBlank with
      | .json, stop :: _ => .error (.json .trailingCharacters
          (.after (payload ++ extra.takeWhile Json.isBlank ++ [stop])))
      | _, _ => .ok record := by
  obtain ⟨values, read, rfl⟩ := map_eq_ok.mp accepted
  cases format with
  | messagePack =>
    have read := MessagePack.decodeFields_append (mapError_eq_ok.mp read) extra
    simp only [decode, decodeFields, read]
    rfl
  | json =>
    have read := Json.decodeFields_append (mapError_eq_ok.mp read) extra
    simp only [decode, decodeFields, read]
    cases stopped : extra.dropWhile Json.isBlank with
    | nil => rfl
    | cons stop more =>
      have split : payload ++ extra =
          payload ++ extra.takeWhile Json.isBlank ++ [stop] ++ more := by
        rw [List.append_assoc, List.append_assoc, List.singleton_append, ← stopped,
          List.takeWhile_append_dropWhile]
      simp only [Json.failAfter, List.length_cons, Nat.add_sub_cancel]
      rw [split, ← Json.Fault.place_append .trailingCharacters]
      rfl

/-- Two bytes after a task: the second one is a fault at the eleventh column in JSON, and nothing in
MessagePack. -/
theorem decode_append_foreign :
    let task : InputTask := { message := "m" }
    let packed : Bytes := [0x81, 0xA1, 0x30, 0xA1, 0x6D]
    let text : Bytes := [0x7B, 0x22, 0x30, 0x22, 0x3A, 0x22, 0x6D, 0x22, 0x7D]
    decode ⟨.messagePack, .positional⟩ (packed ++ [0x20, 0xC1]) = .ok task ∧
      decode (α := InputTask) ⟨.json, .positional⟩ (text ++ [0x20, 0xC1]) =
        .error (.json .trailingCharacters ⟨1, 11⟩) := by
  intro task packed text
  have ofPacked : decode ⟨.messagePack, .positional⟩ packed = .ok task :=
    eq_ok_of_toOption (by decide +kernel)
  have ofText : decode ⟨.json, .positional⟩ text = .ok task := eq_ok_of_toOption (by decide +kernel)
  exact ⟨decode_append .messagePack .positional packed [0x20, 0xC1] task ofPacked,
    decode_append .json .positional text [0x20, 0xC1] task ofText⟩

/-- A task in MessagePack and the same bytes with one more that is no blank and starts no item. -/
theorem decode_ignores_foreign :
    let task : InputTask := { message := "m" }
    let packed : Bytes := [0x81, 0xA1, 0x30, 0xA1, 0x6D]
    Json.isBlank 0xC1 = false ∧ decode ⟨.messagePack, .positional⟩ packed = .ok task ∧
      decode ⟨.messagePack, .positional⟩ (packed ++ [0xC1]) = .ok task := by
  refine ⟨rfl, ?_, ?_⟩ <;> exact eq_ok_of_toOption (by decide +kernel)

end Codec

end FramedTasks
