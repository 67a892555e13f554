import FramedTasks.Proofs.MessagePack.Accepted
import FramedTasks.Proofs.MessagePack.Determined

/-! # What the reader of a record takes

A payload that is accepted starts with a record, and each field of the record came from the items that
stand for it there. The bytes after it do not matter.
-/

namespace FramedTasks.MessagePack

theorem steady_readField (depth : Nat) (kind : FieldKind) :
    Steady false (readField depth kind) (readField depth kind) (IsField shapes kind) := by
  cases kind with
  | text =>
    refine ((steady_readString depth).map FieldValue.text).mono ?_
    rintro _ item ⟨text, rfl, isText⟩
    exact ⟨rfl, isText.item, nofun⟩
  | status =>
    refine (steady_readStatus.map FieldValue.status).mono ?_
    rintro _ item ⟨status, rfl, whole⟩
    exact ⟨rfl, whole, nofun⟩
  | optionalText =>
    refine ((steady_readOptionalString depth).map FieldValue.optionalText).mono ?_
    rintro _ item ⟨text, rfl, whole⟩
    exact ⟨rfl, whole, nofun⟩
  | headers =>
    refine ((steady_readHeaders depth).map FieldValue.headers).mono ?_
    rintro _ item ⟨headers, rfl, entries?, isHeaders, accounts⟩
    refine ⟨rfl, isHeaders.item, ?_⟩
    rintro _ ⟨⟩
    exact ⟨entries?, isHeaders, accounts⟩

theorem ok_named? (schema : Schema) (content rest : Bytes) :
    (match Utf8.decode content with
      | .ok name => (.ok (schema.index? name, rest) : Except Fault (Option Nat × Bytes))
      | .error _ => .ok (none, rest)) = .ok (named? schema content, rest) := by
  rw [named?]
  cases Utf8.decode content <;> rfl

theorem steady_readFieldKey (schema : Schema) (depth : Nat) :
    Steady false (readFieldKey schema depth) (readFieldKey schema depth) (IsFieldKey schema) where
  taken done := by
    rw [readFieldKey] at done
    obtain ⟨⟨head, tail⟩, headed, later⟩ := bind_eq_ok.mp done
    obtain ⟨front, rfl, reads⟩ := readItemHead_taken headed
    cases head with
    | unsigned place =>
      obtain ⟨rfl, rfl⟩ := Prod.mk.inj (Except.ok.inj later)
      refine ⟨front, rfl, .place reads, fun more _ => ?_⟩
      rw [readFieldKey]
      exact bind_eq_ok.mpr ⟨_, reads.readItemHead more, rfl⟩
    | text length | bytes length =>
      obtain ⟨⟨content, tail⟩, held, last⟩ := bind_eq_ok.mp later
      obtain ⟨rfl, rfl⟩ := readContent_taken held
      obtain ⟨rfl, rfl⟩ := Prod.mk.inj (Except.ok.inj ((ok_named? schema content tail).symm.trans last))
      refine ⟨front ++ content, (List.append_assoc ..).symm, ?_, fun more _ => ?_⟩
      · first | exact .name reads (.inl rfl) | exact .name reads (.inr rfl)
      · rw [readFieldKey, List.append_assoc]
        refine bind_eq_ok.mpr ⟨_, reads.readItemHead _, bind_eq_ok.mpr ⟨_, readContent_append more, ?_⟩⟩
        exact ok_named? schema content more
    | _ => exact absurd later failType_ne_ok

theorem steady_skipItem (depth : Nat) :
    Passing false (fun bytes => skipItem depth (stepBound bytes) bytes)
      (fun bytes => skipItem depth (stepBound bytes) bytes) (Items 1) :=
  Passing.bounded (fun longer => (passing_skip longer depth).1) stepBound_mono

/-- The values of a draft and the members that complete it. -/
def IsDraft (schema : Schema) (draft : Draft) (count : Nat) (values : List FieldValue)
    (bytes : Bytes) : Prop :=
  ∃ members, members.length = count ∧ Members schema members bytes ∧
    AllCame schema.fields (IsField shapes) draft (itemsAt members) values

/-- Read the item of a member. The value fills the place of a field. -/
def readMember (schema : Schema) (depth : Nat) (draft : Draft) (place? : Option Nat) (bytes : Bytes) :
    Except Fault (Draft × Bytes) :=
  match place? with
  | none => do
    let rest ← skipItem depth (stepBound bytes) bytes
    .ok (draft, rest)
  | some index =>
    match schema.fields[index]? with
    | none => .error .noMarker
    | some field =>
      if draft.has index then .error (.record (.duplicateField field.name))
      else do
        let (value, rest) ← readField depth field.kind bytes
        .ok (draft.put index value, rest)

/-- A draft is read member by member. -/
theorem readDraft_member {schema : Schema} {depth count fuel : Nat} {draft : Draft}
    {bytes tail : Bytes} {place? : Option Nat} (some : count ≠ 0)
    (keyed : readFieldKey schema depth bytes = .ok (place?, tail)) :
    readDraft schema depth count draft (fuel + 1) bytes = (do
      let (held, rest) ← readMember schema depth draft place? tail
      readDraft schema depth (count - 1) held fuel rest) := by
  rw [readDraft, if_neg some, keyed]
  simp only [bind, Except.bind, readMember]
  cases place? with
  | none =>
    dsimp only
    cases skipItem depth (stepBound tail) tail <;> rfl
  | some index =>
    dsimp only
    cases schema.fields[index]? with
    | none => rfl
    | some field =>
      dsimp only
      split
      · rfl
      · cases readField depth field.kind tail <;> rfl

/-- The item of a member is a whole one that a draft takes for what its key stands for. -/
theorem steady_readMember {schema : Schema} {draft : Draft}
    (level : draft.length = schema.fields.length) (depth : Nat) (place? : Option Nat) :
    Steady false (readMember schema depth draft place?) (readMember schema depth draft place?)
      fun next item => Items 1 item ∧
        Draft.Takes schema.fields (IsField shapes) (place?, item) draft next where
  taken done := by
    cases place? with
    | none =>
      obtain ⟨rest, skipped, same⟩ := bind_eq_ok.mp done
      obtain ⟨rfl, rfl⟩ := Prod.mk.inj (Except.ok.inj same)
      obtain ⟨item, rfl, whole, again⟩ := (steady_skipItem depth).passed skipped
      exact ⟨item, rfl, ⟨whole, Draft.takes_other level item⟩, fun more resumes =>
        bind_eq_ok.mpr ⟨_, again more resumes, rfl⟩⟩
    | some index =>
      simp only [readMember] at done ⊢
      split at done
      · contradiction
      · next field fielded =>
        split at done
        · contradiction
        · next free =>
          obtain ⟨⟨value, rest⟩, read, same⟩ := bind_eq_ok.mp done
          obtain ⟨rfl, rfl⟩ := Prod.mk.inj (Except.ok.inj same)
          obtain ⟨item, rfl, isField, again⟩ := (steady_readField depth field.kind).taken read
          refine ⟨item, rfl, ⟨isField.whole, Draft.takes_put fielded level free isField⟩, ?_⟩
          intro more resumes
          simp only [if_neg free]
          exact bind_eq_ok.mpr ⟨_, again more resumes, rfl⟩

theorem steady_readDraft (schema : Schema) (depth : Nat) {fuel fuel' : Nat} (longer : fuel ≤ fuel')
    (count : Nat) {draft : Draft} (level : draft.length = schema.fields.length) :
    Steady false (readDraft schema depth count draft fuel) (readDraft schema depth count draft fuel')
      (IsDraft schema draft count) := by
  induction fuel generalizing fuel' count draft with
  | zero => exact ⟨nofun⟩
  | succ fuel ih =>
    obtain ⟨fuel', rfl⟩ : ∃ spare, fuel' = spare + 1 := ⟨fuel' - 1, by omega⟩
    refine ⟨fun {bytes values rest} done => ?_⟩
    by_cases none : count = 0
    · simp only [readDraft, if_pos none] at done
      split at done
      · next values finished =>
        obtain ⟨rfl, rfl⟩ := Prod.mk.inj (Except.ok.inj done)
        refine ⟨[], rfl, ⟨[], none.symm, .none, Draft.allCame_finish finished⟩, fun more _ => ?_⟩
        simp only [readDraft, if_pos none, finished, List.nil_append]
      · contradiction
    · have keying := done
      simp only [readDraft, if_neg none] at keying
      obtain ⟨⟨place?, tail⟩, keyed, -⟩ := bind_eq_ok.mp keying
      rw [readDraft_member none keyed] at done
      obtain ⟨⟨held, left⟩, placed, last⟩ := bind_eq_ok.mp done
      obtain ⟨key, rfl, isKey, againKey⟩ := (steady_readFieldKey schema depth).taken keyed
      obtain ⟨item, rfl, ⟨whole, takes⟩, again⟩ := (steady_readMember level depth place?).taken placed
      obtain ⟨others, rfl, ⟨members, size, inside, came⟩, againOthers⟩ :=
        (ih (Nat.le_of_succ_le_succ longer) (count - 1) takes.level).taken last
      have length : ((place?, item) :: members).length = count := by
        rw [List.length_cons, size]
        omega
      refine ⟨key ++ (item ++ others), by simp only [List.append_assoc],
        ⟨(place?, item) :: members, length, .some isKey whole inside, takes.came came⟩, ?_⟩
      intro more resumes
      have next := againKey _ ((resumes.append others).append item)
      rw [List.append_assoc, List.append_assoc, readDraft_member none next]
      exact bind_eq_ok.mpr ⟨_, again _ (resumes.append others), againOthers more resumes⟩

/-- Values that were read one after another from the items of a list, for the fields from a place on. -/
def AreValues (fields : List Field) (length : Nat) (reversed values : List FieldValue)
    (bytes : Bytes) : Prop :=
  ∃ (items : List Bytes) (later : List FieldValue), items.length = length ∧
    (∀ item ∈ items, Items 1 item) ∧ bytes = items.flatten ∧ values = reversed.reverse ++ later ∧
    AllCame fields (IsField shapes) [] (fun place => items[place]?.toList) later

theorem steady_readValues (schema : Schema) (depth length index : Nat) (reversed : List FieldValue)
    (fields : List Field) :
    Steady false (readValues schema depth length index reversed fields)
      (readValues schema depth length index reversed fields)
      (AreValues fields (length - index) reversed) := by
  induction fields generalizing index reversed with
  | nil =>
    refine ⟨fun {bytes values rest} done => ?_⟩
    rw [readValues] at done
    split at done
    · contradiction
    · next atEnd =>
      obtain ⟨rfl, rfl⟩ := Prod.mk.inj (Except.ok.inj done)
      refine ⟨[], rfl, ⟨[], [], ?_, nofun, rfl, (List.append_nil _).symm, nofun⟩, fun more _ => ?_⟩
      · rw [List.length_nil]
        omega
      · rw [readValues, if_neg atEnd, List.nil_append]
  | cons field fields ih =>
    refine ⟨fun {bytes values rest} done => ?_⟩
    rw [readValues] at done
    split at done
    · next inside =>
      obtain ⟨⟨value, tail⟩, read, later⟩ := bind_eq_ok.mp done
      obtain ⟨item, rfl, isField, again⟩ := (steady_readField depth field.kind).taken read
      obtain ⟨others, rfl, ⟨items, values', size, whole, rfl, rfl, came⟩, againRest⟩ :=
        (ih (index + 1) (value :: reversed)).taken later
      refine ⟨item ++ items.flatten, (List.append_assoc ..).symm,
        ⟨item :: items, value :: values', ?_, List.forall_mem_cons.mpr ⟨isField.whole, whole⟩, rfl,
          by simp, .cons (.read isField) came⟩, fun more resumes => ?_⟩
      · rw [List.length_cons, size]
        omega
      · rw [readValues, if_pos inside, List.append_assoc]
        exact bind_eq_ok.mpr ⟨_, again _ (resumes.append _), againRest more resumes⟩
    · next atEnd =>
      split at done
      · next value known =>
        obtain ⟨front, rfl, ⟨items, values', size, whole, rfl, rfl, came⟩, againRest⟩ :=
          (ih (index + 1) (value :: reversed)).taken done
        obtain rfl : items = [] := List.eq_nil_of_length_eq_zero (by omega)
        refine ⟨[], rfl, ⟨[], value :: values', ?_, nofun, rfl, by simp,
          .cons (.absent known) came⟩, fun more resumes => ?_⟩
        · rw [List.length_nil]
          omega
        · rw [readValues, if_neg atEnd]
          simp only [known]
          exact againRest more resumes
      · contradiction

/-- What the reader of a record takes is a record, and every field came from what stands for it. -/
theorem steady_readFields (schema : Schema) :
    Steady false (readFields schema) (readFields schema) (IsRead shapes schema) where
  taken done := by
    rw [readFields] at done
    obtain ⟨⟨head, tail⟩, headed, later⟩ := bind_eq_ok.mp done
    obtain ⟨front, rfl, reads⟩ := readItemHead_taken headed
    cases head with
    | list length =>
      obtain ⟨items, rfl, ⟨items, values, size, whole, rfl, rfl, came⟩, again⟩ :=
        (steady_readValues schema (depthLimit - 1) length 0 [] schema.fields).taken later
      obtain rfl : items.length = length := size
      refine ⟨front ++ items.flatten, (List.append_assoc ..).symm, ⟨_, .list reads whole, came⟩, ?_⟩
      intro more resumes
      rw [readFields, List.append_assoc]
      exact bind_eq_ok.mpr ⟨_, reads.readItemHead _, again more resumes⟩
    | map length =>
      have level : (Draft.empty schema).length = schema.fields.length := List.length_replicate
      have steady := Steady.bounded
        (fun longer => steady_readDraft schema (depthLimit - 1) longer length level) stepBound_mono
      obtain ⟨more, rfl, ⟨members, rfl, shaped, came⟩, again⟩ := steady.taken later
      refine ⟨front ++ more, (List.append_assoc ..).symm, ⟨_, .map reads shaped, came.of_empty⟩, ?_⟩
      intro more resumes
      rw [readFields, List.append_assoc]
      exact bind_eq_ok.mpr ⟨_, reads.readItemHead _, again more resumes⟩
    | bytes length =>
      obtain ⟨⟨content, tail⟩, -, last⟩ := bind_eq_ok.mp later
      cases content <;> contradiction
    | _ => exact absurd later failType_ne_ok

end FramedTasks.MessagePack
