import FramedTasks.Proofs.MessagePack.Document

/-! # Payloads fall apart in one way

Bytes start with at most one head, and a head says what belongs to its item. So they start with at most
one item, one text and one record, and a record has one list of items for each field, whatever a reader
makes of them.
-/

namespace FramedTasks.MessagePack

variable {schema : Schema}

theorem determined_head : Determined fun head front => ReadsHead front head := by
  intro one other front front' more more' reads reads' same
  obtain ⟨rfl, rfl⟩ := reads.unique reads' same
  exact ⟨rfl, List.append_cancel_right same, rfl⟩

theorem Items.unique {count : Nat} {front front' more more' : Bytes} (items : Items count front)
    (items' : Items count front') (same : front ++ more = front' ++ more') :
    front = front' ∧ more = more' := by
  induction items generalizing front' with
  | none =>
    cases items'
    exact ⟨rfl, same⟩
  | some reads length _ ih =>
    cases items' with
    | some reads' length' inside =>
      simp only [List.append_assoc] at same
      obtain ⟨rfl, rfl, behind⟩ := determined_head reads reads' same
      obtain ⟨rfl, rest⟩ := List.append_inj behind (length.trans length'.symm)
      obtain ⟨rfl, rfl⟩ := ih inside rest
      exact ⟨rfl, rfl⟩

/-- Content of the length that its head gives. -/
theorem content_unique {head : Head} {content content' more more' : Bytes}
    (kind : head = .text content.length ∨ head = .bytes content.length)
    (kind' : head = .text content'.length ∨ head = .bytes content'.length)
    (same : content ++ more = content' ++ more') : content = content' ∧ more = more' := by
  have length : content.length = head.content := by rcases kind with rfl | rfl <;> rfl
  have length' : content'.length = head.content := by rcases kind' with rfl | rfl <;> rfl
  exact List.append_inj same (length.trans length'.symm)

theorem determined_text : Determined IsText := by
  rintro text text' _ _ more more' ⟨reads, kind, decoded⟩ ⟨reads', kind', decoded'⟩ same
  simp only [List.append_assoc] at same
  obtain ⟨rfl, rfl, behind⟩ := determined_head reads reads' same
  obtain ⟨rfl, rfl⟩ := content_unique kind kind' behind
  exact ⟨Except.ok.inj (decoded.symm.trans decoded'), rfl, rfl⟩

theorem determined_entries (count : Nat) :
    Determined fun entries bytes => entries.length = count ∧ Entries entries bytes := by
  rintro entries entries' front front' more more' ⟨size, inside⟩ ⟨size', inside'⟩ same
  induction inside generalizing entries' front' count with
  | none =>
    obtain rfl := List.eq_nil_of_length_eq_zero (size'.trans size.symm)
    cases inside'
    exact ⟨rfl, rfl, same⟩
  | @some key name item others entries named whole _ ih =>
    cases inside' with
    | none => exact absurd (size.trans size'.symm) (Nat.succ_ne_zero _)
    | some named' whole' inside' =>
      simp only [List.append_assoc] at same
      obtain ⟨rfl, rfl, behind⟩ := determined_text named named' same
      obtain ⟨rfl, rest⟩ := whole.unique whole' behind
      obtain ⟨rfl, rfl, rfl⟩ := ih entries.length rfl
        (Nat.succ.inj (size'.trans size.symm)) inside' rest
      exact ⟨rfl, rfl, rfl⟩

theorem determined_headers : Determined IsHeaders := by
  intro entries? entries?' front front' more more' headers headers' same
  cases headers with
  | nil reads =>
    cases headers' with
    | nil reads' => exact ⟨rfl, (determined_head reads reads' same).2⟩
    | map reads' _ =>
      rw [List.append_assoc] at same
      exact nomatch (determined_head reads reads' same).1
  | map reads inside =>
    rw [List.append_assoc] at same
    cases headers' with
    | nil reads' => exact nomatch (determined_head reads reads' same).1
    | map reads' inside' =>
      rw [List.append_assoc] at same
      obtain ⟨head, rfl, behind⟩ := determined_head reads reads' same
      obtain ⟨rfl, rfl, rfl⟩ :=
        determined_entries _ ⟨rfl, inside⟩ ⟨(Head.map.inj head).symm, inside'⟩ behind
      exact ⟨rfl, rfl, rfl⟩

theorem determined_fieldKey : Determined (IsFieldKey schema) := by
  intro place? place?' front front' more more' key key' same
  cases key with
  | place reads =>
    cases key' with
    | place reads' =>
      obtain ⟨head, rfl, rfl⟩ := determined_head reads reads' same
      obtain rfl := Head.unsigned.inj head
      exact ⟨rfl, rfl, rfl⟩
    | name reads' kind =>
      rw [List.append_assoc] at same
      obtain ⟨rfl, -⟩ := determined_head reads reads' same
      simp at kind
  | name reads kind =>
    rw [List.append_assoc] at same
    cases key' with
    | place reads' =>
      obtain ⟨rfl, -⟩ := determined_head reads reads' same
      simp at kind
    | name reads' kind' =>
      rw [List.append_assoc] at same
      obtain ⟨rfl, rfl, behind⟩ := determined_head reads reads' same
      obtain ⟨rfl, rfl⟩ := content_unique kind kind' behind
      exact ⟨rfl, rfl, rfl⟩

theorem determined_members (count : Nat) :
    Determined fun members bytes => members.length = count ∧ Members schema members bytes := by
  rintro members members' front front' more more' ⟨size, inside⟩ ⟨size', inside'⟩ same
  induction inside generalizing members' front' count with
  | none =>
    obtain rfl := List.eq_nil_of_length_eq_zero (size'.trans size.symm)
    cases inside'
    exact ⟨rfl, rfl, same⟩
  | @some place? key item others members keyed whole _ ih =>
    cases inside' with
    | none => exact absurd (size.trans size'.symm) (Nat.succ_ne_zero _)
    | some keyed' whole' inside' =>
      simp only [List.append_assoc] at same
      obtain ⟨rfl, rfl, behind⟩ := determined_fieldKey keyed keyed' same
      obtain ⟨rfl, rest⟩ := whole.unique whole' behind
      obtain ⟨rfl, rfl, rfl⟩ := ih members.length rfl
        (Nat.succ.inj (size'.trans size.symm)) inside' rest
      exact ⟨rfl, rfl, rfl⟩

theorem determined_list (count : Nat) : Determined fun (items : List Bytes) bytes =>
    items.length = count ∧ (∀ item ∈ items, Items 1 item) ∧ bytes = items.flatten := by
  rintro items items' _ _ more more' ⟨size, whole, rfl⟩ ⟨size', whole', rfl⟩ same
  induction items generalizing items' count with
  | nil =>
    obtain rfl := List.eq_nil_of_length_eq_zero (size'.trans size.symm)
    exact ⟨rfl, rfl, same⟩
  | cons item items ih =>
    cases items' with
    | nil => exact absurd (size.trans size'.symm) (Nat.succ_ne_zero _)
    | cons item' items' =>
      obtain ⟨here, others⟩ := List.forall_mem_cons.mp whole
      obtain ⟨here', others'⟩ := List.forall_mem_cons.mp whole'
      simp only [List.flatten_cons, List.append_assoc] at same
      obtain ⟨rfl, behind⟩ := here.unique here' same
      have level := Nat.succ.inj (size'.trans size.symm)
      obtain ⟨rfl, -, rfl⟩ := ih items.length rfl others level others' behind
      exact ⟨rfl, rfl, rfl⟩

theorem determined_record : Determined (IsRecord schema) := by
  intro items items' front front' more more' record record' same
  cases record with
  | map reads inside =>
    rw [List.append_assoc] at same
    cases record' with
    | map reads' inside' =>
      rw [List.append_assoc] at same
      obtain ⟨head, rfl, behind⟩ := determined_head reads reads' same
      obtain ⟨rfl, rfl, rfl⟩ :=
        determined_members _ ⟨rfl, inside⟩ ⟨(Head.map.inj head).symm, inside'⟩ behind
      exact ⟨rfl, rfl, rfl⟩
    | list reads' _ =>
      rw [List.append_assoc] at same
      exact nomatch (determined_head reads reads' same).1
  | list reads whole =>
    rw [List.append_assoc] at same
    cases record' with
    | map reads' _ =>
      rw [List.append_assoc] at same
      exact nomatch (determined_head reads reads' same).1
    | list reads' whole' =>
      rw [List.append_assoc] at same
      obtain ⟨head, rfl, behind⟩ := determined_head reads reads' same
      obtain ⟨rfl, -, rfl⟩ :=
        determined_list _ ⟨rfl, whole, rfl⟩ ⟨(Head.list.inj head).symm, whole', rfl⟩ behind
      exact ⟨rfl, rfl, rfl⟩

def shapes : Shapes where
  whole := Items 1
  headers := IsHeaders
  dropped := Dropped
  record := IsRecord
  headers_determined := determined_headers
  record_determined _ := determined_record

end FramedTasks.MessagePack
