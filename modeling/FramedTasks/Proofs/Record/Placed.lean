import FramedTasks.Proofs.Record.HeaderKeys
import FramedTasks.Proofs.Record.Steady

/-! # What stands for a field

A payload has some bytes for each field: none, or those of one value. `Came` says what a field of a
record that was read owes to them: the value was read from these bytes, or was held by the draft
before, or is the one of an absent field. A member changes what stands for its own field only.
-/

namespace FramedTasks

/-- Bytes start with at most one thing of a shape, whatever comes after it. -/
def Determined {α : Type} (shape : α → Bytes → Prop) : Prop :=
  ∀ ⦃one other : α⦄ ⦃front front' more more' : Bytes⦄, shape one front → shape other front' →
    front ++ more = front' ++ more' → one = other ∧ front = front' ∧ more = more'

theorem Determined.of_rest {α : Type} {shape : α → Bytes → Prop}
    (unique : ∀ ⦃one other : α⦄ ⦃front front' more more' : Bytes⦄, shape one front →
      shape other front' → front ++ more = front' ++ more' → one = other ∧ more = more') :
    Determined shape := by
  intro one other front front' more more' shaped shaped' same
  obtain ⟨rfl, rfl⟩ := unique shaped shaped' same
  exact ⟨rfl, List.append_cancel_right same, rfl⟩

theorem Determined.same {α : Type} {shape : α → Bytes → Prop} (determined : Determined shape)
    {one other : α} {bytes : Bytes} (shaped : shape one bytes) (shaped' : shape other bytes) :
    one = other :=
  (determined shaped shaped' (show bytes ++ [] = bytes ++ [] from rfl)).1

/-- The shapes of bytes in a payload of some format: of a whole value, of headers with the entries
that they have, of the values that headers drop, and of a record with what stands for its fields. -/
structure Shapes where
  whole : Bytes → Prop
  headers : Option (List (String × Bytes)) → Bytes → Prop
  dropped : Bytes → Prop
  record : Schema → (Nat → List Bytes) → Bytes → Prop
  headers_determined : Determined headers
  record_determined (schema : Schema) : Determined (record schema)

/-- A value of a field and the bytes of the whole value that it was read from. -/
structure IsField (shapes : Shapes) (kind : FieldKind) (value : FieldValue) (item : Bytes) :
    Prop where
  sort : value.kind = kind
  whole : shapes.whole item
  headers {headers : Option Headers} (held : value = .headers headers) :
    ∃ entries?, shapes.headers entries? item ∧ AccountsFor shapes.dropped entries? headers

/-- The bytes of the members that stand for the field at a place. -/
def itemsAt (members : List (Option Nat × Bytes)) (place : Nat) : List Bytes :=
  (members.filter (·.1 == some place)).map (·.2)

/-- Where a value of a field came from, given what a draft holds for it and what stands for it in the
bytes that are left. -/
inductive Came (field : Field) (read : FieldValue → Bytes → Prop) :
    Option FieldValue → List Bytes → FieldValue → Prop
  | held {value : FieldValue} : Came field read (some value) [] value
  | read {value : FieldValue} {item : Bytes} : read value item → Came field read none [item] value
  | absent {value : FieldValue} : field.default? = some value → Came field read none [] value

/-- Every field has a value that came from what stands for it. -/
def AllCame (fields : List Field) (read : FieldKind → FieldValue → Bytes → Prop) (draft : Draft)
    (items : Nat → List Bytes) (values : List FieldValue) : Prop :=
  ∀ place field, fields[place]? = some field → ∃ value, values[place]? = some value ∧
    Came field (read field.kind) (draft[place]?.getD none) (items place) value

/-- Where nothing is held, the first field came from its own bytes and the others from theirs. -/
theorem AllCame.cons {field : Field} {fields : List Field}
    {read : FieldKind → FieldValue → Bytes → Prop} {items : Nat → List Bytes} {value : FieldValue}
    {values : List FieldValue} (first : Came field (read field.kind) none (items 0) value)
    (came : AllCame fields read [] (fun place => items (place + 1)) values) :
    AllCame (field :: fields) read [] items (value :: values) := by
  rintro (_ | place) other found
  · obtain rfl := Option.some.inj found
    exact ⟨value, rfl, first⟩
  · exact came place other found

/-- An empty draft holds nothing. -/
theorem AllCame.of_empty {schema : Schema} {read : FieldKind → FieldValue → Bytes → Prop}
    {items : Nat → List Bytes} {values : List FieldValue}
    (came : AllCame schema.fields read (Draft.empty schema) items values) :
    AllCame schema.fields read [] items values := by
  intro place field found
  have nothing : (Draft.empty schema)[place]?.getD none = none := by
    rw [Draft.empty, List.getElem?_replicate]
    split <;> rfl
  have result := came place field found
  rwa [nothing] at result

/-- The values of a record and its bytes: every field came from what stands for it. -/
def IsRead (shapes : Shapes) (schema : Schema) (values : List FieldValue) (bytes : Bytes) : Prop :=
  ∃ items, shapes.record schema items bytes ∧ AllCame schema.fields (IsField shapes) [] items values

namespace Draft

variable {read : FieldKind → FieldValue → Bytes → Prop} {draft : Draft} {fields : List Field}
  {values : List FieldValue}

/-- A draft that is finished has for each field what it held, or what stands for an absent one. -/
theorem allCame_finish (finished : finish fields draft = .ok values) :
    AllCame fields read draft (itemsAt []) values := by
  induction fields generalizing draft values with
  | nil => exact nofun
  | cons first fields ih =>
    rw [finish] at finished
    split at finished
    · contradiction
    · next value known =>
      obtain ⟨rest, others, rfl⟩ := map_eq_ok.mp finished
      intro place field found
      cases place with
      | zero =>
        obtain rfl := Option.some.inj found
        refine ⟨value, rfl, ?_⟩
        rw [← List.head?_eq_getElem?]
        cases held : draft.head?.getD none with
        | none =>
          rw [held, Option.none_or] at known
          exact .absent known
        | some kept =>
          rw [held] at known
          obtain rfl := Option.some.inj known
          exact .held
      | succ place =>
        obtain ⟨value, found, came⟩ := ih others place field found
        rw [List.getElem?_tail] at came
        exact ⟨value, found, came⟩

/-- A member that stands for a field fills its place, which was empty. -/
theorem allCame_put {members : List (Option Nat × Bytes)} {item : Bytes} {index : Nat} {field : Field}
    {value : FieldValue} (known : fields[index]? = some field)
    (level : draft.length = fields.length) (empty : draft.has index = false)
    (taken : read field.kind value item)
    (came : AllCame fields read (draft.put index value) (itemsAt members) values) :
    AllCame fields read draft (itemsAt ((some index, item) :: members)) values := by
  intro place other found
  obtain ⟨result, present, came⟩ := came place other found
  refine ⟨result, present, ?_⟩
  by_cases here : index = place
  · subst here
    obtain rfl := Option.some.inj (known.symm.trans found)
    have inside : index < draft.length := level ▸ (List.getElem?_eq_some_iff.mp known).1
    have nothing : draft[index]?.getD none = none := by simpa [has] using empty
    have filled : (draft.put index value)[index]?.getD none = some value := by
      simp [put, List.getElem?_set_self inside]
    have more : itemsAt ((some index, item) :: members) index = item :: itemsAt members index := by
      simp [itemsAt]
    rw [filled] at came
    rw [nothing, more]
    -- the place is filled, so nothing else stands for the field
    generalize itemsAt members index = later at came
    cases came with
    | held => exact .read taken
  · have same : (draft.put index value)[place]? = draft[place]? := List.getElem?_set_ne here
    have others : itemsAt ((some index, item) :: members) place = itemsAt members place := by
      simp [itemsAt, here]
    rwa [others, ← same]

/-- A member leaves a draft such that whatever completes it completes the one before along with the
member. -/
structure Takes (fields : List Field) (read : FieldKind → FieldValue → Bytes → Prop)
    (member : Option Nat × Bytes) (draft next : Draft) : Prop where
  level : next.length = fields.length
  came {members : List (Option Nat × Bytes)} {values : List FieldValue} :
    AllCame fields read next (itemsAt members) values →
    AllCame fields read draft (itemsAt (member :: members)) values

/-- A member that stands for no field leaves the draft as it is. -/
theorem takes_other (level : draft.length = fields.length) (item : Bytes) :
    Takes fields read (none, item) draft draft :=
  ⟨level, id⟩

theorem takes_put {item : Bytes} {index : Nat} {field : Field} {value : FieldValue}
    (known : fields[index]? = some field) (level : draft.length = fields.length)
    (free : ¬ draft.has index = true) (taken : read field.kind value item) :
    Takes fields read (some index, item) draft (draft.put index value) where
  level := by rw [put, List.length_set, level]
  came := allCame_put known level (Bool.eq_false_iff.mpr free) taken

end Draft

end FramedTasks
