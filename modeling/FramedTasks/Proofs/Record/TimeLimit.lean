import FramedTasks.Proofs.Record.Scalars
import FramedTasks.Proofs.Text.Decimal

/-! # The time limit of a task

A host grants a time limit in a header, as an integer or as a text. The integer becomes its decimal
text on the way, and a text is read as a signed integer of any length, so that the limit is the
number that was sent exactly if that is not negative and fits a signed word of 64 bits
(`timeoutMillis?_eq_some`). The numeral `-0` of a JSON payload has no place among its integers: it is
a number with a fraction there.
-/

namespace FramedTasks

open Json (Value)

theorem Json.last?_orderedMembers (key : String) (entries : List (String × Value)) :
    Keyed.last? key (Json.orderedMembers entries) = (Keyed.last? key entries).map Value.ordered := by
  induction entries with
  | nil => rfl
  | cons entry entries ih =>
    obtain ⟨held, value⟩ := entry
    rw [Json.orderedMembers, Keyed.last?_cons, Keyed.last?_cons, ih]
    by_cases here : held = key <;> cases Keyed.last? key entries <;> simp [here]

namespace InputTask

variable {task : InputTask} {text : String} {millis : Nat} {number : Int}

/-- Whether a text grants so many milliseconds: between white space it is a numeral of that number,
which fits a signed word of 64 bits. -/
def Grants (text : String) (millis : Nat) : Prop :=
  millis ≤ 0x7FFFFFFFFFFFFFFF ∧
    ∃ before numeral after, (∀ c ∈ before, isBlank c = true) ∧ (∀ c ∈ after, isBlank c = true) ∧
      text.toList = before ++ (numeral ++ after) ∧ Decimal.SignedNumeral numeral millis

/-- The limit is what the header grants, whatever stands there. -/
theorem timeoutMillis?_eq_some (held : task.header? timeoutHeader = some text) :
    task.timeoutMillis? = some millis ↔ Grants text millis := by
  simp only [timeoutMillis?, held, Option.bind_eq_bind, Option.bind_some, Option.bind_eq_some_iff,
    Option.ite_none_right_eq_some, Option.some.injEq, Grants, ← Decimal.readInt?_trimChars_eq_some]
  constructor
  · rintro ⟨number, read, ⟨positive, fits⟩, rfl⟩
    have same : (number.toNat : Int) = number := Int.toNat_of_nonneg positive
    exact ⟨by omega, by rwa [same]⟩
  · rintro ⟨fits, read⟩
    exact ⟨millis, read, ⟨by omega, by omega⟩, Int.toNat_natCast millis⟩

/-- The text of an integer grants the integer itself. -/
theorem timeoutMillis?_of_integer (held : task.header? timeoutHeader = some (Decimal.intText number)) :
    task.timeoutMillis? =
      if 0 ≤ number ∧ number ≤ 0x7FFFFFFFFFFFFFFF then some number.toNat else none := by
  have read : Decimal.readInt? (trimChars (Decimal.intText number).toList) = some number := by
    rw [Decimal.intText, String.toList_ofList, Decimal.readInt?_trimChars_eq_some]
    exact ⟨[], _, [], by simp, by simp, by simp, Decimal.signedNumeral_intChars number⟩
  have bounds : (0 ≤ number ∧ number < 0x8000000000000000) ↔
      (0 ≤ number ∧ number ≤ 0x7FFFFFFFFFFFFFFF) := by omega
  simp only [timeoutMillis?, held, read, Option.bind_eq_bind, Option.bind_some, bounds]

/-- A header is the text of the last value under its key. -/
theorem header?_of_entries {entries : List (String × Value)}
    (read : headersOrAbsent? [.object entries] = some task.headers) (key : String) :
    task.header? key = (Keyed.last? key entries).bind fun value => Json.headerText? value.ordered := by
  have map : task.headers = some (Json.headersOf (Keyed.ofList (Json.orderedMembers entries))) :=
    (Option.some.inj read).symm
  rw [header?, map, Option.bind_some, Json.find?_headersOf, Json.last?_orderedMembers, Option.bind_map]
  rfl

/-- A task with a time limit is read from a payload of either format, under either convention. An
integer is its limit exactly if it is not negative and fits a signed word of 64 bits; a text stays as
it is, and grants what it denotes. -/
theorem timeoutMillis?_granted :
    (∀ (format : WireFormat) (keys : KeyConvention) (members entries : List (String × Value))
      (payload : Bytes) (task : InputTask), format.Spells members payload →
      (Value.object members).nesting < format.depthLimit → ofMembers? members = some task →
      under ["headers", "3", "Headers"] members = [.object entries] →
      Codec.decode ⟨format, keys⟩ payload = .ok task ∧
        (∀ number, Keyed.last? timeoutHeader entries = some (.integer number) →
          task.timeoutMillis? =
            if 0 ≤ number ∧ number ≤ 0x7FFFFFFFFFFFFFFF then some number.toNat else none) ∧
        ∀ text, Keyed.last? timeoutHeader entries = some (.text text) →
          task.header? timeoutHeader = some text) ∧
    ∀ (task : InputTask) (text : String) (millis : Nat), task.header? timeoutHeader = some text →
      (task.timeoutMillis? = some millis ↔ Grants text millis) := by
  refine ⟨?_, fun _ _ _ held => timeoutMillis?_eq_some held⟩
  intro format keys members entries payload task spells shallow made only
  obtain ⟨-, -, -, read⟩ := InputTask.of_ofMembers? made
  rw [only] at read
  have decoded := (Codec.toOption_decode_of_found spells shallow InputTask.found keys).trans made
  refine ⟨eq_ok_of_toOption decoded, fun number last => ?_, fun text last => ?_⟩
  · apply timeoutMillis?_of_integer
    rw [header?_of_entries read, last]
    rfl
  · rw [header?_of_entries read, last]
    rfl

/-- The largest limit, sent as an integer after a text under the same key; the same number in a text,
with a sign, leading zeros and white space; and the number after it, which is none. -/
theorem timeoutMillis?_granted_largest :
    let entries : List (String × Value) :=
      [(timeoutHeader, .text "soon"), (timeoutHeader, .integer 9223372036854775807)]
    let members := [("0", .text "m"), ("3", .object entries)]
    let task : InputTask := ⟨"m", none, none, some (.ofList [(timeoutHeader, "9223372036854775807")])⟩
    let padded := task.withHeader timeoutHeader "\u2003+009223372036854775807\n"
    let larger := task.withHeader timeoutHeader "9223372036854775808"
    Codec.decode ⟨.json, .named⟩ (Utf8.encodeChars (Value.chars (.object members))) = .ok task ∧
      task.timeoutMillis? = some 9223372036854775807 ∧
      padded.timeoutMillis? = some 9223372036854775807 ∧ larger.timeoutMillis? = none := by
  intro entries members task padded larger
  obtain ⟨decoded, granted, -⟩ := timeoutMillis?_granted.1 .json .named members entries _ task
    (Json.spellsPayload_chars rfl) (by decide) (by decide) rfl
  refine ⟨decoded, (granted 9223372036854775807 rfl).trans rfl, ?_, ?_⟩
  · refine (timeoutMillis?_granted.2 padded _ _ (by rfl)).mpr ⟨by decide, ?_⟩
    exact Decimal.readInt?_trimChars_eq_some.mp (by decide)
  · refine Option.eq_none_iff_forall_ne_some.mpr fun millis granted => ?_
    obtain ⟨fits, read⟩ := (timeoutMillis?_granted.2 larger _ millis (by rfl)).mp granted
    have large : Decimal.readInt? (trimChars "9223372036854775808".toList) =
        some 9223372036854775808 := by decide
    have same := Option.some.inj (large.symm.trans (Decimal.readInt?_trimChars_eq_some.mpr read))
    omega

end InputTask

end FramedTasks
