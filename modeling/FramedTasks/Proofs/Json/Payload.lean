import FramedTasks.Proofs.Json.Accepted

/-! # What the reader of a record takes

A payload that is accepted starts with a record, and each field of the record came from the values
that stand for it there. The record ends with a bracket, so the bytes after it do not matter to its
reader, though the values inside need the byte after them.
-/

namespace FramedTasks.Json

theorem Entries.ne_nil {first : Bool} {entries : List (String × Bytes)} {bytes : Bytes}
    (inside : Entries first entries bytes) : bytes ≠ [] := by
  cases inside <;> simp

theorem IsField.ne_nil {kind : FieldKind} {value : FieldValue} {bytes : Bytes}
    (spaced : Spaced (IsField shapes kind) value bytes) : bytes ≠ [] := by
  obtain ⟨blanks, item, rfl, -, isField⟩ := spaced
  exact List.append_ne_nil_of_right_ne_nil blanks (Lex.ne_nil isField.whole)

/-- The values of a draft and the members that complete it. -/
def IsDraft (schema : Schema) (first : Bool) (draft : Draft) (values : List FieldValue)
    (bytes : Bytes) : Prop :=
  ∃ entries, Entries first entries bytes ∧ AllCame schema.fields (IsField shapes) draft
    (itemsAt (entries.map fun entry => (schema.index? entry.1, entry.2))) values

/-- Read what follows the key of a member. The value fills the place of a field. -/
def readMember (schema : Schema) (depth : Nat) (draft : Draft) (key : String) (bytes : Bytes) :
    Except Fault (Draft × Bytes) :=
  match schema.index? key with
  | none => do
    let rest ← skipValue (← readColon bytes)
    .ok (draft, rest)
  | some index =>
    match schema.fields[index]? with
    | none => failAfter .endInObject bytes
    | some field =>
      if draft.has index then failRecord (.duplicateField field.name) (afterBrace bytes)
      else do
        let (value, rest) ← readField depth field.kind (← readColon bytes)
        .ok (draft.put index value, rest)

/-- A draft is read member by member. -/
theorem readDraft_member {schema : Schema} {depth fuel : Nat} {first : Bool} {draft : Draft}
    {bytes name tail : Bytes} {key : String} (next : nextKey first bytes = .ok (true, name))
    (keyed : readText name = .ok (key, tail)) :
    readDraft schema depth first draft (fuel + 1) bytes = (do
      let (held, rest) ← readMember schema depth draft key tail
      readDraft schema depth false held fuel rest) := by
  rw [readDraft, next]
  simp only [bind, Except.bind, keyed, readMember]
  cases schema.index? key with
  | none =>
    cases readColon tail with
    | error fault => rfl
    | ok rest =>
      dsimp only
      cases skipValue rest <;> rfl
  | some index =>
    dsimp only
    cases schema.fields[index]? with
    | none => rfl
    | some field =>
      dsimp only
      split
      · rfl
      · cases readColon tail with
        | error fault => rfl
        | ok rest =>
          dsimp only
          cases readField depth field.kind rest <;> rfl

/-- What follows a key in the bytes: a colon and a value, that a draft takes under the key. -/
def IsMember (schema : Schema) (draft : Draft) (key : String) (next : Draft) (bytes : Bytes) : Prop :=
  ∃ before after item, bytes = before ++ 0x3A :: (after ++ item) ∧ Blank before ∧ Blank after ∧
    Lex .whole item ∧
    Draft.Takes schema.fields (IsField shapes) (schema.index? key, item) draft next

theorem steady_readMember {schema : Schema} {draft : Draft}
    (level : draft.length = schema.fields.length) (depth : Nat) (key : String) :
    Steady true (readMember schema depth draft key) (readMember schema depth draft key)
      (IsMember schema draft key) where
  taken done := by
    unfold readMember at done ⊢
    unfold IsMember
    cases known : schema.index? key with
    | none =>
      simp only [known] at done
      obtain ⟨colon, passed, later⟩ := bind_eq_ok.mp done
      obtain ⟨rest, skipped, same⟩ := bind_eq_ok.mp later
      obtain ⟨rfl, rfl⟩ := Prod.mk.inj (Except.ok.inj same)
      obtain ⟨before, rfl, blank⟩ := readColon_eq_ok passed
      obtain ⟨_, rfl, ⟨after, item, rfl, blank', whole⟩, again⟩ := passing_skipValue.passed skipped
      refine ⟨before ++ 0x3A :: (after ++ item), by simp,
        ⟨before, after, item, rfl, blank, blank', whole, Draft.takes_other level item⟩, ?_⟩
      intro more resumes
      rw [List.append_assoc, List.cons_append]
      refine bind_eq_ok.mpr ⟨_, readColon_blank _ blank, ?_⟩
      exact bind_eq_ok.mpr ⟨_, again more resumes, rfl⟩
    | some index =>
      simp only [known] at done
      split at done
      · contradiction
      · next field fielded =>
        split at done
        · contradiction
        · next free =>
          obtain ⟨colon, passed, later⟩ := bind_eq_ok.mp done
          obtain ⟨⟨value, rest⟩, read, same⟩ := bind_eq_ok.mp later
          obtain ⟨rfl, rfl⟩ := Prod.mk.inj (Except.ok.inj same)
          obtain ⟨before, rfl, blank⟩ := readColon_eq_ok passed
          obtain ⟨_, rfl, ⟨after, item, rfl, blank', isField⟩, again⟩ :=
            (steady_readField depth field.kind).taken read
          refine ⟨before ++ 0x3A :: (after ++ item), by simp,
            ⟨before, after, item, rfl, blank, blank', isField.whole,
              Draft.takes_put fielded level free isField⟩, ?_⟩
          intro more resumes
          simp only [fielded, if_neg free, List.append_assoc, List.cons_append]
          refine bind_eq_ok.mpr ⟨_, readColon_blank _ blank, ?_⟩
          exact bind_eq_ok.mpr ⟨_, List.append_assoc .. ▸ again more resumes, rfl⟩

theorem steady_readDraft (schema : Schema) (depth : Nat) {fuel fuel' : Nat} (longer : fuel ≤ fuel')
    (first : Bool) {draft : Draft} (level : draft.length = schema.fields.length) :
    Steady false (readDraft schema depth first draft fuel) (readDraft schema depth first draft fuel')
      (IsDraft schema first draft) := by
  induction fuel generalizing fuel' first draft with
  | zero => exact ⟨nofun⟩
  | succ fuel ih =>
    obtain ⟨fuel', rfl⟩ : ∃ spare, fuel' = spare + 1 := ⟨fuel' - 1, by omega⟩
    refine ⟨fun {bytes values rest} done => ?_⟩
    obtain ⟨⟨found, middle⟩, next, later⟩ := bind_eq_ok.mp (readDraft.eq_def .. ▸ done)
    obtain ⟨front, shaped⟩ := nextKey_eq_ok next
    cases found with
    | false =>
      obtain ⟨blank, tail, rfl, rfl⟩ := shaped
      dsimp only at later
      split at later
      · next values finished =>
        obtain ⟨rfl, rfl⟩ := Prod.mk.inj (Except.ok.inj later)
        refine ⟨front ++ [0x7D], List.append_cons .., ⟨[], .none blank, Draft.allCame_finish finished⟩,
          fun more _ => ?_⟩
        rw [readDraft, ← List.append_cons]
        refine bind_eq_ok.mpr ⟨_, nextKey_blank more blank, ?_⟩
        simp only [finished, List.tail_cons]
      · contradiction
    | true =>
      obtain ⟨rfl, separates⟩ := shaped
      obtain ⟨⟨key, _⟩, keyed, -⟩ := bind_eq_ok.mp later
      rw [readDraft_member next keyed] at done
      obtain ⟨⟨held, _⟩, placed, last⟩ := bind_eq_ok.mp done
      obtain ⟨_, rfl, ⟨name, rfl, isText⟩, -⟩ := steady_readText.taken keyed
      obtain ⟨_, rfl, ⟨before, after, item, rfl, blank, blank', whole, takes⟩, again⟩ :=
        (steady_readMember level depth key).taken placed
      obtain ⟨others, rfl, ⟨entries, inside, came⟩, againOthers⟩ :=
        (ih (Nat.le_of_succ_le_succ longer) false takes.level).taken last
      refine ⟨front ++ 0x22 :: (name ++ 0x22 :: (before ++ 0x3A :: (after ++ (item ++ others)))),
        by simp, ⟨(key, item) :: entries, .some separates isText blank blank' whole inside,
          takes.came came⟩, fun more resumes => ?_⟩
      have value := again _ (.before resumes.goesOn inside.ne_nil)
      rw [member_append, readDraft_member (nextKey_separates _ separates) (isText.read _)]
      refine bind_eq_ok.mpr ⟨(held, others ++ more), ?_, againOthers more resumes⟩
      simpa only [List.append_assoc, List.cons_append] using value

/-- Values that were read one after another from the items of a list, for the fields from a place on. -/
def AreValues (fields : List Field) (first : Bool) (reversed values : List FieldValue)
    (bytes : Bytes) : Prop :=
  ∃ items listed blanks later, bytes = listed ++ blanks ∧ Listed first items listed ∧ Blank blanks ∧
    values = reversed.reverse ++ later ∧
    AllCame fields (IsField shapes) [] (fun place => items[place]?.toList) later

section Values

variable {schema : Schema} {depth : Nat}

/-- At the end of a list, every field that is left is absent. -/
theorem readValues_bracket {index : Nat} {reversed values : List FieldValue} {fields : List Field}
    {tail rest : Bytes}
    (done : readValues schema depth index reversed fields (0x5D :: tail) = .ok (values, rest)) :
    rest = 0x5D :: tail ∧
      (∃ later, values = reversed.reverse ++ later ∧
        AllCame fields (IsField shapes) [] (fun _ => []) later) ∧
      ∀ more, readValues schema depth index reversed fields (0x5D :: more) =
        .ok (values, 0x5D :: more) := by
  have atEnd (more : Bytes) : nextItem (index == 0) (0x5D :: more) = .ok (false, 0x5D :: more) :=
    @nextItem_bracket (index == 0) [] more nofun
  induction fields generalizing index reversed with
  | nil =>
    obtain ⟨rfl, rfl⟩ := Prod.mk.inj (Except.ok.inj done)
    exact ⟨rfl, ⟨[], (List.append_nil _).symm, nofun⟩, fun _ => rfl⟩
  | cons field fields ih =>
    simp only [readValues, atEnd, bind, Except.bind] at done
    split at done
    · next value known =>
      obtain ⟨rfl, ⟨later, rfl, came⟩, again⟩ :=
        ih done fun more => @nextItem_bracket (index + 1 == 0) [] more nofun
      refine ⟨rfl, ⟨value :: later, by simp, .cons (.absent known) came⟩, fun more => ?_⟩
      simp only [readValues, atEnd, bind, Except.bind, known]
      exact again more
    · contradiction

theorem steady_readValues (index : Nat) (reversed : List FieldValue) (fields : List Field) :
    Steady true (readValues schema depth index reversed fields)
      (readValues schema depth index reversed fields)
      (AreValues fields (index == 0) reversed) := by
  induction fields generalizing index reversed with
  | nil =>
    refine ⟨fun {bytes values rest} done => ?_⟩
    obtain ⟨rfl, rfl⟩ := Prod.mk.inj (Except.ok.inj done)
    exact ⟨[], rfl, ⟨[], [], [], [], rfl, .none, nofun, (List.append_nil _).symm, nofun⟩,
      fun _ _ => rfl⟩
  | cons field fields ih =>
    refine ⟨fun {bytes values rest} done => ?_⟩
    rw [readValues] at done
    obtain ⟨⟨found, middle⟩, next, later⟩ := bind_eq_ok.mp done
    obtain ⟨front, byte, tail, rfl, rfl, shaped⟩ := nextItem_eq_ok next
    cases found with
    | false =>
      obtain ⟨blank, rfl⟩ := shaped
      dsimp only at later
      split at later
      · next value known =>
        obtain ⟨rfl, ⟨others, rfl, came⟩, again⟩ := readValues_bracket later
        refine ⟨front, rfl, ⟨[], [], front, value :: others, rfl, .none, blank, by simp,
          .cons (.absent known) came⟩, ?_⟩
        intro more resumes
        obtain ⟨extra, rfl⟩ := resumes.goesOn
        rw [readValues, List.cons_append]
        refine bind_eq_ok.mpr ⟨_, nextItem_bracket _ blank, ?_⟩
        simp only [known]
        exact again _
      · contradiction
    | true =>
      obtain ⟨separates, solid⟩ := shaped
      obtain ⟨⟨value, tail'⟩, read, last⟩ := bind_eq_ok.mp later
      obtain ⟨written, rfl, ⟨blanks, item, split, blank, isField⟩, again⟩ :=
        ((steady_readField depth field.kind).from_cons (fun _ _ => IsField.ne_nil) byte).taken read
      obtain ⟨_, rfl, ⟨items, listed, blanks', others, rfl, isListed, blank', rfl, came⟩, againRest⟩ :=
        (ih (index + 1) (value :: reversed)).taken last
      have isListed' := Listed.some (separates.append blank) isField.whole isListed
      rw [List.append_assoc, ← List.append_assoc blanks, ← split] at isListed'
      refine ⟨front ++ (byte :: written ++ (listed ++ blanks')), by simp,
        ⟨item :: items, _, blanks', value :: others, by simp, isListed', blank', by simp,
          .cons (.read isField) came⟩, ?_⟩
      intro more resumes
      rw [readValues, List.append_assoc, List.cons_append, List.cons_append, List.append_assoc]
      refine bind_eq_ok.mpr ⟨_, nextItem_separates _ separates solid, ?_⟩
      exact bind_eq_ok.mpr ⟨_, again _ (resumes.append _), againRest more resumes⟩

end Values

theorem passing_readListEnd : Passing false readListEnd readListEnd fun front =>
    ∃ blanks, front = blanks ++ [0x5D] ∧ Blank blanks where
  passed done := by
    obtain ⟨blanks, byte, tail, rfl, blank, solid, taken⟩ := fromSolid_eq_ok done
    split at taken
    · next closing =>
      subst closing
      obtain rfl := Except.ok.inj taken
      refine ⟨blanks ++ [0x5D], List.append_cons .., ⟨blanks, rfl, blank⟩, fun more _ => ?_⟩
      rw [← List.append_cons, readListEnd, skipBlank_append_cons blank solid]
      rfl
    · split at taken
      · obtain ⟨_, next, more, -, -, -, last⟩ := fromSolid_eq_ok taken
        split at last <;> contradiction
      · contradiction

/-- What the reader of a record takes is a record, and every field came from what stands for it. -/
theorem steady_readFields (schema : Schema) :
    Steady false (readFields schema) (readFields schema) (IsRead shapes schema) := by
  have solid : Steady false (readFields schema) (readFields schema) (Spaced fun values record =>
      ∃ items, IsRecord schema items record ∧
        AllCame schema.fields (IsField shapes) [] items values) := by
    refine steady_fromSolid fun byte _ => .ite (fun bracket => ?_) fun _ => .ite (fun brace => ?_)
      fun _ => .of_fails fun _ => toOption_failType _ _
    · refine (passing_readListEnd.closes ?_ (steady_readValues 0 [] schema.fields)).mono ?_
      · rintro _ ⟨blanks, rfl, -⟩
        exact List.append_ne_nil_of_right_ne_nil blanks nofun
      · rintro values _ ⟨_, _, rfl, ⟨items, listed, blanks, later, rfl, isListed, blank, rfl, came⟩,
          blanks', rfl, blank'⟩
        refine bracket ▸ ⟨fun place => items[place]?.toList, ?_, came⟩
        have record := @IsRecord.list schema items listed _ isListed (blank.append blank')
        rwa [List.append_assoc, ← List.append_assoc listed] at record
    · have level : (Draft.empty schema).length = schema.fields.length := List.length_replicate
      have steady := Steady.bounded
        (fun longer => steady_readDraft schema (depthLimit - 1) longer true level) stepBound_mono
      refine steady.mono ?_
      rintro values _ ⟨entries, within, came⟩
      exact brace ▸ ⟨_, .object within, came.of_empty⟩
  refine solid.mono ?_
  rintro values _ ⟨blanks, record, rfl, blank, items, isRecord, came⟩
  exact ⟨items, ⟨blanks, record, rfl, blank, isRecord⟩, came⟩

end FramedTasks.Json
