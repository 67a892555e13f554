import FramedTasks.Record.Codec

/-! # Drafts of a record

`Fills` is the part of reading a record that every format shares: each named value goes to the
place of the field that the name stands for, which is empty. What a key convention writes for a
record fills an empty draft, and the draft is finished to the values of the record
(`fills_fields`, `finish_map_kept`).
-/

namespace FramedTasks

def FieldValue.kind : FieldValue → FieldKind
  | .text _ => .text
  | .status _ => .status
  | .optionalText _ => .optionalText
  | .headers _ => .headers

namespace Schema

/-- Each field is found under its own name and under its digit. -/
def Unambiguous (schema : Schema) : Prop :=
  ∀ index, (present : index < schema.fields.length) →
    schema.index? schema.fields[index].name = some index ∧
    schema.index? schema.fields[index].digit = some index

instance (schema : Schema) : Decidable schema.Unambiguous :=
  inferInstanceAs (Decidable (∀ index, (present : index < schema.fields.length) →
    schema.index? schema.fields[index].name = some index ∧
    schema.index? schema.fields[index].digit = some index))

end Schema

/-- Named values go to the places of a draft one after another. -/
inductive Draft.Fills (schema : Schema) : Draft → List (String × FieldValue) → Draft → Prop
  | nil (draft : Draft) : Fills schema draft [] draft
  | cons {draft last : Draft} {name : String} {value : FieldValue} {index : Nat} {field : Field}
      {rest : List (String × FieldValue)} :
      schema.index? name = some index → schema.fields[index]? = some field →
      value.kind = field.kind → draft.has index = false →
      Fills schema (draft.put index value) rest last →
      Fills schema draft ((name, value) :: rest) last

namespace KeyConvention

/-- The name under which a convention writes a field. -/
def key (keys : KeyConvention) (field : Field) : String :=
  match keys with
  | .positional => field.digit
  | .named => field.name

def writes (keys : KeyConvention) (value : FieldValue) : Bool :=
  match keys with
  | .positional => true
  | .named => Codec.isPresent value

/-- What is left of a value in a draft after writing and reading. -/
def kept (keys : KeyConvention) (value : FieldValue) : Option FieldValue :=
  if keys.writes value then some value else none

/-- The named values that a convention writes for some fields. -/
def written (keys : KeyConvention) (fields : List Field) (values : List FieldValue) :
    List (String × FieldValue) :=
  ((fields.zip values).filter fun field => keys.writes field.2).map fun field =>
    (keys.key field.1, field.2)

theorem fields_eq_written (keys : KeyConvention) (schema : Schema) (values : List FieldValue) :
    Codec.KeyConvention.fields keys schema values = keys.written schema.fields values := by
  cases keys with
  | positional =>
    have all : (schema.fields.zip values).filter (fun field => positional.writes field.2) =
        schema.fields.zip values := List.filter_eq_self.mpr fun _ _ => rfl
    rw [written, all]
    rfl
  | named => rfl

theorem written_cons (keys : KeyConvention) (field : Field) (fields : List Field)
    (value : FieldValue) (values : List FieldValue) :
    keys.written (field :: fields) (value :: values) =
      if keys.writes value then (keys.key field, value) :: keys.written fields values
      else keys.written fields values := by
  rw [written, List.zip_cons_cons, List.filter_cons]
  split <;> rfl

theorem index?_key {schema : Schema} (unambiguous : schema.Unambiguous) (keys : KeyConvention)
    {index : Nat} {field : Field} (found : schema.fields[index]? = some field) :
    schema.index? (keys.key field) = some index := by
  obtain ⟨present, rfl⟩ := List.getElem?_eq_some_iff.mp found
  obtain ⟨byName, byDigit⟩ := unambiguous index present
  cases keys with
  | positional => exact byDigit
  | named => exact byName

end KeyConvention

namespace Draft

theorem has_append_none (done rest : Draft) : has (done ++ none :: rest) done.length = false := by
  simp [has]

theorem put_append_none (done rest : Draft) (value : FieldValue) :
    put (done ++ none :: rest) done.length value = done ++ some value :: rest := by
  simp [put]

/-- The fields that are left to write fill the places that are left. -/
theorem fills_written {schema : Schema} (unambiguous : schema.Unambiguous) (keys : KeyConvention)
    {front todo : List Field} {done : Draft} {values : List FieldValue}
    (split : schema.fields = front ++ todo) (level : done.length = front.length)
    (kinds : values.map FieldValue.kind = todo.map Field.kind) :
    Fills schema (done ++ List.replicate todo.length none) (keys.written todo values)
      (done ++ values.map keys.kept) := by
  induction todo generalizing front done values with
  | nil =>
    obtain rfl : values = [] := List.map_eq_nil_iff.mp kinds
    exact .nil _
  | cons field todo ih =>
    obtain ⟨value, values, rfl, kind, kinds⟩ := List.map_eq_cons_iff.mp kinds
    have split' : schema.fields = (front ++ [field]) ++ todo := by rw [split, List.append_cons]
    have found : schema.fields[done.length]? = some field := by
      rw [level, split, List.getElem?_append_right (Nat.le_refl _), Nat.sub_self]
      rfl
    have rest (place : Option FieldValue) :
        Fills schema ((done ++ [place]) ++ List.replicate todo.length none) (keys.written todo values)
          ((done ++ [place]) ++ values.map keys.kept) :=
      ih split' (by simp [level]) kinds
    rw [List.length_cons, List.replicate_succ, List.map_cons]
    cases writes : keys.writes value with
    | true =>
      rw [KeyConvention.written_cons, if_pos writes, KeyConvention.kept, if_pos writes]
      apply Fills.cons (KeyConvention.index?_key unambiguous keys found) found kind
        (has_append_none done _)
      rw [put_append_none]
      simpa using rest (some value)
    | false =>
      have silent : ¬ keys.writes value = true := by simp [writes]
      rw [KeyConvention.written_cons, if_neg silent, KeyConvention.kept, if_neg silent]
      simpa using rest none

/-- What a convention writes for a record fills an empty draft. -/
theorem fills_fields {schema : Schema} (unambiguous : schema.Unambiguous) (keys : KeyConvention)
    {values : List FieldValue} (kinds : values.map FieldValue.kind = schema.fields.map Field.kind) :
    Fills schema (empty schema) (Codec.KeyConvention.fields keys schema values)
      (values.map keys.kept) := by
  rw [KeyConvention.fields_eq_written]
  exact @fills_written schema unambiguous keys [] schema.fields [] values rfl rfl kinds

/-- A field that is not written is optional, and absent. -/
theorem default?_of_not_writes {keys : KeyConvention} {field : Field} {value : FieldValue}
    (kind : value.kind = field.kind) (silent : ¬ keys.writes value = true) :
    field.default? = some value := by
  cases keys with
  | positional => exact absurd rfl silent
  | named =>
    rcases value with _ | _ | (_ | _) | (_ | _)
    · exact absurd rfl silent
    · exact absurd rfl silent
    · rw [Field.default?, ← kind]
      rfl
    · exact absurd rfl silent
    · rw [Field.default?, ← kind]
      rfl
    · exact absurd rfl silent

/-- A draft that was filled with what a convention wrote is finished to all values. -/
theorem finish_map_kept (keys : KeyConvention) {fields : List Field} {values : List FieldValue}
    (kinds : values.map FieldValue.kind = fields.map Field.kind) :
    finish fields (values.map keys.kept) = .ok values := by
  induction fields generalizing values with
  | nil =>
    obtain rfl : values = [] := List.map_eq_nil_iff.mp kinds
    rfl
  | cons field fields ih =>
    obtain ⟨value, values, rfl, kind, kinds⟩ := List.map_eq_cons_iff.mp kinds
    have known : (keys.kept value).or field.default? = some value := by
      by_cases writes : keys.writes value = true
      · simp [KeyConvention.kept, writes]
      · simp [KeyConvention.kept, writes, default?_of_not_writes kind writes]
    simp only [finish, List.map_cons, List.head?_cons, Option.getD_some, known, List.tail_cons,
      ih kinds, Except.map]

end Draft

end FramedTasks
