import FramedTasks.Proofs.Json.Compact
import FramedTasks.Proofs.Json.Members

/-! # Records that were written in JSON are read

The members of an object are written with a comma between two of them (`memberBytes`), and a reader
passes over the comma before a key. A value of a field is written as the compact text of a value, so
it is read back before a byte that may follow a member. So are the named values of a record: they
fill a draft in the way that `Draft.Fills` describes.
-/

namespace FramedTasks.Json

open FramedTasks.Utf8 (encodeChars encodeChars_append)

/-- A value of a field is written as the compact text of what stands for it. -/
theorem fieldChars_eq (value : FieldValue) : fieldChars value = value.written.chars := by
  rcases value with _ | _ | (_ | _) | (_ | _) <;> rfl

theorem holdExact_members (headers : Headers) : holdExact headers.members = true := by
  rw [Headers.members]
  induction headers.entries with
  | nil => rfl
  | cons entry rest ih => exact ih

theorem isExact_written (value : FieldValue) : value.written.isExact = true := by
  rcases value with text | status | (_ | text) | (_ | headers)
  case status =>
    have least := status.code.le_toInt
    have most := status.code.toInt_lt
    simp only [FieldValue.written, Value.isExact, Bool.and_eq_true, decide_eq_true_eq]
    omega
  case headers.some => exact holdExact_members headers
  all_goals rfl

/-- A value of a field is read back before a byte that ends a number. -/
theorem readField_fieldChars (value : FieldValue) {depth : Nat} (deep : 1 < depth) {stop : UInt8}
    (ends : EndsNumber stop) (rest : Bytes) :
    readField depth value.kind (encodeChars (fieldChars value) ++ stop :: rest) =
      .ok (value, stop :: rest) := by
  have spelled := spells_chars value.written (isExact_written value)
  have shallow : value.written.nesting < depth := Nat.lt_of_le_of_lt value.nesting_written deep
  have read := toOption_readField spelled value.kind shallow ends rest
  rw [FieldValue.ofValues?_written] at read
  rw [fieldChars_eq]
  exact eq_ok_of_toOption read

/-- The members of an object from one of them on; a comma stands before each but the first. -/
def memberBytes : Bool → List (String × List Char) → Bytes
  | _, [] => []
  | first, (name, value) :: rest =>
    (if first then [] else [0x2C]) ++
      (encodeChars (quoteChars name) ++ 0x3A :: (encodeChars value ++ memberBytes false rest))

theorem encodeChars_joinMembers (members : List (String × List Char)) :
    encodeChars (joinMembers members) = memberBytes true members := by
  induction members with
  | nil => rfl
  | cons member rest ih =>
    obtain ⟨name, value⟩ := member
    cases rest with
    | nil =>
      rw [joinMembers, encodeChars_append, memberBytes, memberBytes, List.append_nil]
      rfl
    | cons next rest =>
      have comma : memberBytes false (next :: rest) = 0x2C :: memberBytes true (next :: rest) := rfl
      rw [joinMembers, encodeChars_append, encodeChars_append, memberBytes, comma, ← ih,
        List.append_assoc]
      · rfl
      · exact List.cons_ne_nil _ _

/-- Members between braces. -/
theorem braces_joinMembers (members : List (String × List Char)) (rest : Bytes) :
    encodeChars ('\x7b' :: joinMembers members ++ ['\x7d']) ++ rest =
      0x7B :: (memberBytes true members ++ 0x7D :: rest) := by
  rw [encodeChars_append, List.append_assoc, ← encodeChars_joinMembers]
  rfl

section Members

variable {members : List (String × List Char)} (first : Bool) (rest : Bytes)

theorem length_le_memberBytes : members.length ≤ (memberBytes first members).length := by
  induction members generalizing first with
  | nil => exact Nat.zero_le _
  | cons member others ih =>
    have remaining := ih false
    simp only [memberBytes, List.length_append, List.length_cons]
    omega

/-- What follows the value of a member ends a number. -/
theorem exists_stop (members : List (String × List Char)) :
    ∃ stop tail, memberBytes false members ++ 0x7D :: rest = stop :: tail ∧ EndsNumber stop := by
  cases members with
  | nil => exact ⟨0x7D, rest, rfl, rfl, rfl⟩
  | cons member others => exact ⟨0x2C, _, rfl, rfl, rfl⟩

theorem nextKey_brace : nextKey first (0x7D :: rest) = .ok (false, 0x7D :: rest) := by
  rw [nextKey, skipBlank_cons rfl]
  rfl

theorem nextKey_member (name : String) (value : List Char) :
    nextKey first (memberBytes first ((name, value) :: members) ++ rest) =
      .ok (true, encodeChars (name.toList.flatMap escape) ++
        0x22 :: 0x3A :: (encodeChars value ++ (memberBytes false members ++ rest))) := by
  have quoted := encodeChars_quoteChars name
    (0x3A :: (encodeChars value ++ (memberBytes false members ++ rest)))
  have written : memberBytes first ((name, value) :: members) ++ rest = (if first then [] else [0x2C]) ++
      (encodeChars (quoteChars name) ++
        0x3A :: (encodeChars value ++ (memberBytes false members ++ rest))) := by
    simp only [memberBytes, List.append_assoc, List.cons_append]
  rw [written, quoted]
  cases first with
  | true =>
    simp only [if_true, List.nil_append, nextKey, skipBlank_cons (show isBlank 0x22 = false from rfl)]
    rfl
  | false =>
    simp only [Bool.false_eq_true, if_false, List.singleton_append, nextKey,
      skipBlank_cons (show isBlank 0x2C = false from rfl),
      skipBlank_cons (show isBlank 0x22 = false from rfl)]
    rfl

end Members

/-- Named values that fill a draft are read into it. -/
theorem readDraft_of_fills {schema : Schema} {draft last : Draft}
    {fields : List (String × FieldValue)} (fills : Draft.Fills schema draft fields last)
    {values : List FieldValue} (finished : Draft.finish schema.fields last = .ok values)
    {depth : Nat} (deep : 1 < depth) (first : Bool) {fuel : Nat} (enough : fields.length < fuel)
    (rest : Bytes) :
    readDraft schema depth first draft fuel
        (memberBytes first (fields.map fun field => (field.1, fieldChars field.2)) ++ 0x7D :: rest) =
      .ok (values, rest) := by
  induction fills generalizing first fuel with
  | nil draft =>
    obtain ⟨fuel, rfl⟩ := Nat.exists_eq_succ_of_ne_zero (Nat.ne_of_gt enough)
    simp only [List.map_nil, memberBytes, List.nil_append, readDraft, nextKey_brace, bind, Except.bind,
      finished]
    rfl
  | @cons draft last name value index field others known place kind vacant _ ih =>
    obtain ⟨fuel, rfl⟩ := Nat.exists_eq_succ_of_ne_zero (Nat.ne_of_gt (Nat.zero_lt_of_lt enough))
    have steps : others.length < fuel := by
      rw [List.length_cons] at enough
      omega
    have met : ¬ draft.has index = true := by simp [vacant]
    have remaining := ih finished false steps
    obtain ⟨stop, tail, follows, ends⟩ :=
      exists_stop rest (others.map fun field => (field.1, fieldChars field.2))
    have read := readField_fieldChars value deep ends tail
    rw [List.map_cons, readDraft, nextKey_member]
    rw [follows] at remaining ⊢
    simp only [bind, Except.bind, readText_spelled (spellsText_escape _), known, place, if_neg met, readColon,
      skipBlank_cons (show isBlank 0x3A = false from rfl), if_true]
    rw [← kind, read]
    exact remaining

/-- The named values that fill an empty draft make a payload that is read. -/
theorem decodeFields_encodeFields {schema : Schema} {last : Draft}
    {fields : List (String × FieldValue)}
    (fills : Draft.Fills schema (Draft.empty schema) fields last) {values : List FieldValue}
    (finished : Draft.finish schema.fields last = .ok values) :
    decodeFields schema (encodeFields fields) = .ok values := by
  have enough := @length_le_memberBytes (fields.map fun field => (field.1, fieldChars field.2)) true
  have written := braces_joinMembers (fields.map fun field => (field.1, fieldChars field.2)) []
  rw [List.append_nil] at written
  have steps : fields.length < stepBound
      (memberBytes true (fields.map fun field => (field.1, fieldChars field.2)) ++ [0x7D]) := by
    rw [List.length_map] at enough
    rw [stepBound, List.length_append]
    omega
  have read := readDraft_of_fills fills finished (show 1 < depthLimit - 1 by decide) true steps []
  rw [encodeFields, written, decodeFields, readFields, skipBlank_cons rfl]
  simp only [show ¬ (0x7B : UInt8) = 0x5B by decide, if_false, if_true, read, bind, Except.bind]
  rfl

end FramedTasks.Json
