import FramedTasks.Proofs.MessagePack.Dropped
import FramedTasks.Proofs.MessagePack.Members

/-! # What the readers of items take

Passing over an item and reading it take the same bytes, one whole item, and neither looks at the bytes
after it. A value that is read is null exactly if its item is dropped, that is nil or a number that is
not finite.
-/

namespace FramedTasks.MessagePack

open Json (Value)

section Skip

variable {fuel fuel' : Nat}

theorem passing_skipItem (inside : ∀ depth count,
      Passing false (skipItems depth count fuel) (skipItems depth count fuel') (Items count))
    (depth : Nat) :
    Passing false (skipItem depth (fuel + 1)) (skipItem depth (fuel' + 1)) (Items 1) where
  passed done := by
    rw [skipItem] at done
    obtain ⟨⟨head, tail⟩, headed, done⟩ := bind_eq_ok.mp done
    obtain ⟨front, rfl, reads⟩ := readItemHead_taken headed
    cases head with
    | nil | bool _ | unsigned _ | signed _ | number _ =>
      obtain rfl := Except.ok.inj done
      refine ⟨front, rfl, List.append_nil front ▸ Items.plain reads rfl rfl, fun more resumes => ?_⟩
      rw [skipItem]
      exact bind_eq_ok.mpr ⟨_, reads.readItemHead more, rfl⟩
    | text length | bytes length =>
      obtain ⟨⟨content, tail⟩, held, done⟩ := bind_eq_ok.mp done
      obtain rfl := Except.ok.inj done
      obtain ⟨rfl, rfl⟩ := readContent_taken held
      refine ⟨front ++ content, (List.append_assoc ..).symm, .plain reads rfl rfl, fun more _ => ?_⟩
      rw [skipItem, List.append_assoc]
      exact bind_eq_ok.mpr ⟨_, reads.readItemHead _, bind_eq_ok.mpr ⟨_, readContent_append more, rfl⟩⟩
    | list length | map length =>
      obtain ⟨inner, entered, done⟩ := bind_eq_ok.mp done
      obtain ⟨items, rfl, within, again⟩ := (inside inner _).passed done
      refine ⟨front ++ items, (List.append_assoc ..).symm, .nested reads rfl within, fun more resumes => ?_⟩
      rw [skipItem, List.append_assoc]
      exact bind_eq_ok.mpr
        ⟨_, reads.readItemHead _, bind_eq_ok.mpr ⟨inner, entered, again more resumes⟩⟩
    | extension length =>
      obtain ⟨inner, entered, done⟩ := bind_eq_ok.mp done
      obtain ⟨⟨kind, tail⟩, numbered, done⟩ := bind_eq_ok.mp done
      obtain ⟨⟨content, tail⟩, held, done⟩ := bind_eq_ok.mp done
      obtain rfl := Except.ok.inj done
      obtain ⟨first, rfl, single, again⟩ := readNumber_taken numbered
      obtain ⟨rfl, rfl⟩ := readContent_taken held
      have both : (first ++ content).length = content.length + 1 := by
        rw [List.length_append, single, Nat.add_comm]
      refine ⟨front ++ (first ++ content), by simp only [List.append_assoc],
        .plain reads both rfl, fun more _ => ?_⟩
      rw [skipItem, List.append_assoc, List.append_assoc]
      refine bind_eq_ok.mpr ⟨_, reads.readItemHead _, bind_eq_ok.mpr ⟨inner, entered, ?_⟩⟩
      exact bind_eq_ok.mpr ⟨_, again _, bind_eq_ok.mpr ⟨_, readContent_append more, rfl⟩⟩

theorem passing_skipItems {depth : Nat}
    (one : Passing false (skipItem depth fuel) (skipItem depth fuel') (Items 1))
    (others : ∀ count,
      Passing false (skipItems depth count fuel) (skipItems depth count fuel') (Items count))
    (count : Nat) :
    Passing false (skipItems depth count (fuel + 1)) (skipItems depth count (fuel' + 1))
      (Items count) where
  passed done := by
    rw [skipItems] at done
    split at done
    · next none =>
      obtain rfl := Except.ok.inj done
      refine ⟨[], rfl, none ▸ .none, fun more resumes => ?_⟩
      rw [skipItems, if_pos none]
      rfl
    · next some =>
      obtain ⟨middle, first, later⟩ := bind_eq_ok.mp done
      obtain ⟨item, rfl, whole, again⟩ := one.passed first
      obtain ⟨items, rfl, rest, againOthers⟩ := (others _).passed later
      have all := whole.append rest
      rw [show 1 + (count - 1) = count by omega] at all
      refine ⟨item ++ items, (List.append_assoc ..).symm, all, fun more resumes => ?_⟩
      rw [skipItems, if_neg some, List.append_assoc]
      exact bind_eq_ok.mpr ⟨_, again _ (resumes.append _), againOthers more resumes⟩

/-- What is passed over is a number of whole items, however many steps more there are to go. -/
theorem passing_skip (longer : fuel ≤ fuel') (depth : Nat) :
    Passing false (skipItem depth fuel) (skipItem depth fuel') (Items 1) ∧ ∀ count,
      Passing false (skipItems depth count fuel) (skipItems depth count fuel') (Items count) := by
  induction fuel generalizing fuel' depth with
  | zero => exact ⟨⟨nofun⟩, fun _ => ⟨nofun⟩⟩
  | succ fuel ih =>
    obtain ⟨fuel', rfl⟩ : ∃ spare, fuel' = spare + 1 := ⟨fuel' - 1, by omega⟩
    have inner := ih (Nat.le_of_succ_le_succ longer)
    exact ⟨passing_skipItem (fun depth => (inner depth).2) depth,
      passing_skipItems (inner depth).1 (inner depth).2⟩

end Skip

/-- An item of another type is never read. -/
theorem failType_ne_ok {α : Type} {depth : Nat} {wanted : Wanted} {head : Head} {bytes : Bytes}
    {result : α} : failType depth wanted head bytes ≠ .ok result := by
  intro read
  have nothing := toOption_failType (α := α) depth wanted head bytes
  rw [read] at nothing
  contradiction

theorem steady_readStringContent (depth : Nat) (head : Head) :
    Steady false (readString.readStringContent depth head) (readString.readStringContent depth head)
      fun text content => (head = .text content.length ∨ head = .bytes content.length) ∧
        Utf8.decode content = .ok text := by
  cases head with
  | text length | bytes length =>
    refine ⟨fun done => ?_⟩
    obtain ⟨⟨content, tail⟩, held, last⟩ := bind_eq_ok.mp done
    obtain ⟨rfl, rfl⟩ := readContent_taken held
    dsimp only at last
    split at last
    · next text decoded =>
      obtain ⟨rfl, rfl⟩ := Prod.mk.inj (Except.ok.inj last)
      refine ⟨content, rfl, ⟨by simp, decoded⟩, fun more _ => ?_⟩
      exact bind_eq_ok.mpr ⟨_, readContent_append more, by simp only [decoded]⟩
    · contradiction
  | _ =>
    refine ⟨fun done => ?_⟩
    unfold readString.readStringContent at done
    exact absurd done failType_ne_ok

theorem steady_readString (depth : Nat) :
    Steady false (readString depth) (readString depth) IsText where
  taken done := by
    obtain ⟨⟨head, tail⟩, headed, later⟩ := bind_eq_ok.mp done
    obtain ⟨front, rfl, reads⟩ := readItemHead_taken headed
    obtain ⟨content, rfl, ⟨kind, decoded⟩, again⟩ := (steady_readStringContent depth head).taken later
    refine ⟨front ++ content, (List.append_assoc ..).symm, .intro reads kind decoded, ?_⟩
    intro more resumes
    rw [List.append_assoc]
    exact bind_eq_ok.mpr ⟨_, reads.readItemHead _, again more resumes⟩

theorem steady_readKey (depth : Nat) : Steady false (readKey depth) (readKey depth) IsText where
  taken done := by
    obtain ⟨⟨head, tail⟩, headed, later⟩ := bind_eq_ok.mp done
    obtain ⟨front, rfl, reads⟩ := readItemHead_taken headed
    cases head with
    | text length =>
      obtain ⟨content, rfl, ⟨kind, decoded⟩, again⟩ :=
        (steady_readStringContent depth (.text length)).taken later
      refine ⟨front ++ content, (List.append_assoc ..).symm, .intro reads kind decoded, ?_⟩
      intro more resumes
      rw [List.append_assoc]
      exact bind_eq_ok.mpr ⟨_, reads.readItemHead _, again more resumes⟩
    | _ => exact absurd later failType_ne_ok

/-- A value and the item that it was read from. -/
def IsValue (value : Value) (item : Bytes) : Prop := Items 1 item ∧ (value = .null ↔ Dropped item)

/-- A head without content is the item of a value. -/
theorem IsValue.plain {head : Head} {front : Bytes} (reads : ReadsHead front head) {value : Value}
    (empty : head.content = 0) (alone : head.inner = 0)
    (null : value = .null ↔ head.isDropped = true) : IsValue value front := by
  have whole := @Items.plain head front [] reads empty.symm alone
  have dropped := dropped_append_iff reads []
  rw [List.append_nil] at whole dropped
  exact ⟨whole, by simp [null, dropped]⟩

/-- The members that were put one after another among others, and the entries that they were read
from. -/
def IsMembers (count : Nat) (before members : List (String × Value)) (bytes : Bytes) : Prop :=
  ∃ entries read, Entries entries bytes ∧ entries.length = count ∧ ReadFrom Dropped entries read ∧
    members = read.foldl (fun members member => Keyed.insert member.1 member.2 members) before

section Read

variable {fuel fuel' : Nat}

theorem steady_readValue_succ
    (items : ∀ depth count reversed, Steady false (readItems depth count reversed fuel)
      (readItems depth count reversed fuel') fun _ => Items count)
    (members : ∀ depth strict count before, Steady false (readMembers depth strict count before fuel)
      (readMembers depth strict count before fuel') (IsMembers count before)) (depth : Nat) :
    Steady false (readValue depth (fuel + 1)) (readValue depth (fuel' + 1)) IsValue where
  taken done := by
    rw [readValue] at done
    obtain ⟨⟨head, tail⟩, headed, done⟩ := bind_eq_ok.mp done
    obtain ⟨front, rfl, reads⟩ := readItemHead_taken headed
    cases head with
    | nil | bool _ | unsigned _ | signed _ =>
      obtain ⟨rfl, rfl⟩ := Prod.mk.inj (Except.ok.inj done)
      refine ⟨front, rfl, .plain reads rfl rfl (by simp [Head.isDropped]), fun more resumes => ?_⟩
      rw [readValue]
      exact bind_eq_ok.mpr ⟨_, reads.readItemHead more, rfl⟩
    | number value =>
      obtain ⟨rfl, rfl⟩ := Prod.mk.inj (Except.ok.inj done)
      refine ⟨front, rfl, .plain reads rfl rfl ?_, fun more resumes => ?_⟩
      · cases finite : value.isFinite <;> simp [Head.isDropped, finite]
      · rw [readValue]
        exact bind_eq_ok.mpr ⟨_, reads.readItemHead more, rfl⟩
    | text length =>
      obtain ⟨⟨text, tail⟩, held, last⟩ := bind_eq_ok.mp done
      obtain ⟨rfl, rfl⟩ := Prod.mk.inj (Except.ok.inj last)
      obtain ⟨content, rfl, ⟨kind, -⟩, again⟩ :=
        (steady_readStringContent depth (.text length)).taken held
      have size : content.length = (Head.text length).content := by
        rcases kind with same | same
        · exact (Head.text.inj same).symm
        · contradiction
      refine ⟨front ++ content, (List.append_assoc ..).symm, ⟨.plain reads size rfl, ?_⟩, ?_⟩
      · simp [dropped_append_iff reads, Head.isDropped]
      · intro more resumes
        rw [readValue, List.append_assoc]
        exact bind_eq_ok.mpr ⟨_, reads.readItemHead _, bind_eq_ok.mpr ⟨_, again more resumes, rfl⟩⟩
    | bytes _ | extension _ => exact absurd done failType_ne_ok
    | list length =>
      obtain ⟨inner, entered, later⟩ := bind_eq_ok.mp done
      obtain ⟨⟨held, tail⟩, read, last⟩ := bind_eq_ok.mp later
      obtain ⟨rfl, rfl⟩ := Prod.mk.inj (Except.ok.inj last)
      obtain ⟨content, rfl, inside, again⟩ := (items inner length []).taken read
      refine ⟨front ++ content, (List.append_assoc ..).symm, ⟨.nested reads rfl inside, ?_⟩, ?_⟩
      · simp [dropped_append_iff reads, Head.isDropped]
      · intro more resumes
        rw [readValue, List.append_assoc]
        refine bind_eq_ok.mpr ⟨_, reads.readItemHead _, bind_eq_ok.mpr ⟨inner, entered, ?_⟩⟩
        exact bind_eq_ok.mpr ⟨_, again more resumes, rfl⟩
    | map length =>
      obtain ⟨inner, entered, later⟩ := bind_eq_ok.mp done
      obtain ⟨⟨held, tail⟩, read, last⟩ := bind_eq_ok.mp later
      obtain ⟨rfl, rfl⟩ := Prod.mk.inj (Except.ok.inj last)
      obtain ⟨content, rfl, ⟨entries, _, inside, count, -, -⟩, again⟩ :=
        (members inner true length []).taken read
      refine ⟨front ++ content, (List.append_assoc ..).symm,
        ⟨.nested reads rfl (count ▸ inside.items), ?_⟩, ?_⟩
      · simp [dropped_append_iff reads, Head.isDropped]
      · intro more resumes
        rw [readValue, List.append_assoc]
        refine bind_eq_ok.mpr ⟨_, reads.readItemHead _, bind_eq_ok.mpr ⟨inner, entered, ?_⟩⟩
        exact bind_eq_ok.mpr ⟨_, again more resumes, rfl⟩

theorem steady_readItems_succ {depth : Nat}
    (value : Steady false (readValue depth fuel) (readValue depth fuel') IsValue)
    (items : ∀ count reversed, Steady false (readItems depth count reversed fuel)
      (readItems depth count reversed fuel') fun _ => Items count)
    (count : Nat) (reversed : List Value) :
    Steady false (readItems depth count reversed (fuel + 1))
      (readItems depth count reversed (fuel' + 1)) fun _ => Items count where
  taken done := by
    rw [readItems] at done
    split at done
    · next none =>
      obtain ⟨rfl, rfl⟩ := Prod.mk.inj (Except.ok.inj done)
      refine ⟨[], rfl, none ▸ .none, fun more resumes => ?_⟩
      rw [readItems, if_pos none]
      rfl
    · next some =>
      obtain ⟨⟨item, tail⟩, first, later⟩ := bind_eq_ok.mp done
      obtain ⟨front, rfl, ⟨whole, -⟩, again⟩ := value.taken first
      obtain ⟨others, rfl, rest, againOthers⟩ := (items _ _).taken later
      have all := whole.append rest
      rw [show 1 + (count - 1) = count by omega] at all
      refine ⟨front ++ others, (List.append_assoc ..).symm, all, fun more resumes => ?_⟩
      rw [readItems, if_neg some, List.append_assoc]
      exact bind_eq_ok.mpr ⟨_, again _ (resumes.append _), againOthers more resumes⟩

/-- The reader of the next key of a map: the first key inside a value must be a text. -/
def readEntryKey (strict : Bool) (depth : Nat) : Bytes → Except Fault (String × Bytes) :=
  if strict then readKey depth else readString depth

theorem readMembers_of_ne_zero {count : Nat} (some : ¬ count = 0) (depth : Nat) (strict : Bool)
    (before : List (String × Value)) (bytes : Bytes) :
    readMembers depth strict count before (fuel + 1) bytes = (do
      let (key, rest) ← readEntryKey strict depth bytes
      let (value, rest) ← readValue depth fuel rest
      readMembers depth false (count - 1) (Keyed.insert key value before) fuel rest) := by
  rw [readMembers, if_neg some]
  cases strict <;> rfl

theorem steady_readEntryKey (strict : Bool) (depth : Nat) :
    Steady false (readEntryKey strict depth) (readEntryKey strict depth) IsText := by
  cases strict with
  | true => exact steady_readKey depth
  | false => exact steady_readString depth

theorem steady_readMembers_succ {depth : Nat}
    (value : Steady false (readValue depth fuel) (readValue depth fuel') IsValue)
    (members : ∀ strict count before, Steady false (readMembers depth strict count before fuel)
      (readMembers depth strict count before fuel') (IsMembers count before))
    (strict : Bool) (count : Nat) (before : List (String × Value)) :
    Steady false (readMembers depth strict count before (fuel + 1))
      (readMembers depth strict count before (fuel' + 1)) (IsMembers count before) where
  taken {bytes _ _} done := by
    by_cases none : count = 0
    · rw [readMembers, if_pos none] at done
      obtain ⟨rfl, rfl⟩ := Prod.mk.inj (Except.ok.inj done)
      refine ⟨[], rfl, ⟨[], [], .none, none.symm, .nil, rfl⟩, fun more resumes => ?_⟩
      rw [readMembers, if_pos none]
      rfl
    · rw [readMembers_of_ne_zero none] at done
      obtain ⟨⟨key, tail⟩, named, later⟩ := bind_eq_ok.mp done
      obtain ⟨⟨held, tail'⟩, first, last⟩ := bind_eq_ok.mp later
      obtain ⟨name, rfl, isText, againKey⟩ := (steady_readEntryKey strict depth).taken named
      obtain ⟨item, rfl, ⟨whole, null⟩, again⟩ := value.taken first
      obtain ⟨others, rfl, ⟨entries, read, inside, size, readFrom, rfl⟩, againOthers⟩ :=
        (members _ _ _).taken last
      have length : ((key, item) :: entries).length = count := by
        rw [List.length_cons, size]
        omega
      refine ⟨name ++ (item ++ others), by simp only [List.append_assoc],
        ⟨(key, item) :: entries, (key, held) :: read, .some isText whole inside, length,
          .cons null readFrom, rfl⟩, fun more resumes => ?_⟩
      rw [readMembers_of_ne_zero none, List.append_assoc, List.append_assoc]
      refine bind_eq_ok.mpr ⟨_, againKey _ ((resumes.append _).append _), ?_⟩
      refine bind_eq_ok.mpr ⟨_, again _ (resumes.append _), ?_⟩
      exact againOthers more resumes

/-- What is read is a value, items or members, however many steps more there are to go. -/
theorem steady_read (longer : fuel ≤ fuel') (depth : Nat) :
    Steady false (readValue depth fuel) (readValue depth fuel') IsValue ∧
      (∀ count reversed, Steady false (readItems depth count reversed fuel)
        (readItems depth count reversed fuel') fun _ => Items count) ∧
      ∀ strict count before, Steady false (readMembers depth strict count before fuel)
        (readMembers depth strict count before fuel') (IsMembers count before) := by
  induction fuel generalizing fuel' depth with
  | zero => exact ⟨⟨nofun⟩, fun _ _ => ⟨nofun⟩, fun _ _ _ => ⟨nofun⟩⟩
  | succ fuel ih =>
    obtain ⟨fuel', rfl⟩ : ∃ spare, fuel' = spare + 1 := ⟨fuel' - 1, by omega⟩
    have inner := ih (Nat.le_of_succ_le_succ longer)
    obtain ⟨value, items, members⟩ := inner depth
    exact ⟨steady_readValue_succ (fun depth => (inner depth).2.1) (fun depth => (inner depth).2.2) depth,
      steady_readItems_succ value items, steady_readMembers_succ value members⟩

end Read

theorem stepBound_mono {bytes more : Bytes} (longer : bytes.length ≤ more.length) :
    stepBound bytes ≤ stepBound more := by
  rw [stepBound, stepBound]
  omega

theorem steady_readOptionalString (depth : Nat) :
    Steady false (readOptionalString depth) (readOptionalString depth) fun _ => Items 1 where
  taken done := by
    rw [readOptionalString] at done
    obtain ⟨⟨marker, tail⟩, marked, later⟩ := bind_eq_ok.mp done
    dsimp only at later
    split at later
    · next nil =>
      subst nil
      obtain ⟨rfl, rfl⟩ := Prod.mk.inj (Except.ok.inj later)
      obtain ⟨front, rfl, reads, again⟩ := readsHead_nil marked
      refine ⟨front, rfl, List.append_nil front ▸ Items.plain reads rfl rfl, fun more _ => ?_⟩
      rw [readOptionalString, again more]
      rfl
    · next present =>
      obtain ⟨⟨head, tail'⟩, headed, last⟩ := bind_eq_ok.mp later
      obtain ⟨⟨text, tail''⟩, held, made⟩ := bind_eq_ok.mp last
      obtain ⟨rfl, rfl⟩ := Prod.mk.inj (Except.ok.inj made)
      obtain ⟨front, rfl, reads, again⟩ := readsHead_of_marked marked headed
      obtain ⟨content, rfl, ⟨kind, decoded⟩, againContent⟩ :=
        (steady_readStringContent depth head).taken held
      refine ⟨front ++ content, (List.append_assoc ..).symm, (IsText.intro reads kind decoded).item, ?_⟩
      intro more resumes
      obtain ⟨tail, marked, headed⟩ := again (content ++ more)
      rw [readOptionalString, List.append_assoc, marked]
      simp only [bind, Except.bind, if_neg present, headed, againContent more resumes]

theorem ofInteger_eq_ok {value : Int} {status : Status} {bytes rest : Bytes} :
    readStatus.ofInteger value bytes = .ok (status, rest) ↔
      Status.ofInt? value = some status ∧ bytes = rest := by
  rw [readStatus.ofInteger]
  cases Status.ofInt? value <;> simp

theorem steady_readStatus : Steady false readStatus readStatus fun _ => Items 1 where
  taken done := by
    rw [readStatus] at done
    obtain ⟨⟨marker, tail⟩, marked, later⟩ := bind_eq_ok.mp done
    cases marker with
    | nil | bool _ | fixPos _ | fixNeg _ | unsigned _ | signed _ | float _ =>
      obtain ⟨⟨head, tail'⟩, headed, last⟩ := bind_eq_ok.mp later
      obtain ⟨front, rfl, reads, again⟩ := readsHead_of_marked marked headed
      cases head with
      | unsigned value | signed value =>
        obtain ⟨fits, rfl⟩ := ofInteger_eq_ok.mp last
        refine ⟨front, rfl, List.append_nil front ▸ Items.plain reads rfl rfl, fun more _ => ?_⟩
        obtain ⟨tail, marked, headed⟩ := again more
        rw [readStatus]
        refine bind_eq_ok.mpr ⟨_, marked, bind_eq_ok.mpr ⟨_, headed, ?_⟩⟩
        exact ofInteger_eq_ok.mpr ⟨fits, rfl⟩
      | _ => exact absurd last failType_ne_ok
    | _ => contradiction

theorem steady_readHeaders (depth : Nat) :
    Steady false (readHeaders depth) (readHeaders depth) fun headers item =>
      ∃ entries?, IsHeaders entries? item ∧ AccountsFor Dropped entries? headers where
  taken done := by
    rw [readHeaders] at done
    obtain ⟨⟨marker, tail⟩, marked, later⟩ := bind_eq_ok.mp done
    dsimp only at later
    split at later
    · next nil =>
      subst nil
      obtain ⟨rfl, rfl⟩ := Prod.mk.inj (Except.ok.inj later)
      obtain ⟨front, rfl, reads, again⟩ := readsHead_nil marked
      refine ⟨front, rfl, ⟨none, .nil reads, trivial⟩, fun more _ => ?_⟩
      rw [readHeaders, again more]
      rfl
    · next present =>
      obtain ⟨⟨head, tail'⟩, headed, last⟩ := bind_eq_ok.mp later
      obtain ⟨front, rfl, reads, again⟩ := readsHead_of_marked marked headed
      cases head with
      | map length =>
        obtain ⟨inner, entered, inside⟩ := bind_eq_ok.mp last
        obtain ⟨⟨members, tail''⟩, held, made⟩ := bind_eq_ok.mp inside
        obtain ⟨rfl, rfl⟩ := Prod.mk.inj (Except.ok.inj made)
        have steady := Steady.bounded (fun longer => (steady_read longer inner).2.2 false length [])
          stepBound_mono
        obtain ⟨content, rfl, ⟨entries, read, within, rfl, readFrom, rfl⟩, againMembers⟩ :=
          steady.taken held
        refine ⟨front ++ content, (List.append_assoc ..).symm,
          ⟨some entries, .map reads within, readFrom.find?_eq_none⟩, fun more resumes => ?_⟩
        obtain ⟨tail, marked, headed⟩ := again (content ++ more)
        rw [readHeaders, List.append_assoc, marked]
        simp only [bind, Except.bind, if_neg present, headed, entered, againMembers more resumes]
      | _ => exact absurd last failType_ne_ok

end FramedTasks.MessagePack
