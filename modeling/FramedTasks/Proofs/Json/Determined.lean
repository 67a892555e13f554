import FramedTasks.Proofs.Json.Document

/-! # Payloads fall apart in one way

A blank, a comma, a quote or a bracket ends what stands before it, so the same bytes have the same parts
whatever a reader makes of them. Only a number that is a whole value might go on, and inside a list
or an object it never does (`Lex.unique`). A record has one list of values for each field.
-/

namespace FramedTasks.Json

theorem Blank.unique {blanks blanks' more more' : Bytes} {byte byte' : UInt8} (blank : Blank blanks)
    (blank' : Blank blanks') (solid : isBlank byte = false) (solid' : isBlank byte' = false)
    (same : blanks ++ byte :: more = blanks' ++ byte' :: more') :
    blanks = blanks' ∧ byte = byte' ∧ more = more' := by
  have skipped : skipBlank (blanks ++ byte :: more) = byte :: more := skipBlank_append_cons blank solid
  rw [same, skipBlank_append_cons blank' solid'] at skipped
  obtain ⟨rfl, rfl⟩ := List.cons.inj skipped
  exact ⟨List.append_cancel_right same, rfl, rfl⟩

/-- The first byte of a value is no blank and no closing bracket. -/
theorem Lex.exists_first {item : Bytes} (whole : Lex .whole item) :
    ∃ byte tail, item = byte :: tail ∧ isBlank byte = false ∧ byte ≠ 0x5D := by
  cases whole with
  | number kind _ =>
    refine ⟨_, _, rfl, ?_, ?_⟩
    · rcases kind with rfl | digit
      · rfl
      · exact not_isBlank_of_isDigit digit
    · rintro rfl
      simp [isDigit] at kind
  | _ => exact ⟨_, _, rfl, rfl, by decide⟩

/-- Bytes that do not go on with a number. -/
def Stops (bytes : Bytes) : Prop := bytes.takeWhile isNumeric = []

theorem stops_cons {byte : UInt8} (other : isNumeric byte = false) (more : Bytes) :
    Stops (byte :: more) := by
  rw [Stops, List.takeWhile_cons, other]
  rfl

theorem not_isNumeric_of_isBlank {byte : UInt8} (blank : isBlank byte = true) :
    isNumeric byte = false := by
  simp only [isBlank, Bool.or_eq_true, beq_iff_eq] at blank
  rcases blank with ((rfl | rfl) | rfl) | rfl <;> rfl

theorem Blank.stops {blanks : Bytes} (blank : Blank blanks) {byte : UInt8}
    (other : isNumeric byte = false) (more : Bytes) : Stops (blanks ++ byte :: more) := by
  cases blanks with
  | nil => exact stops_cons other more
  | cons first blanks =>
    exact stops_cons (not_isNumeric_of_isBlank (blank first (List.mem_cons_self ..))) _

theorem Separates.stops {separator : Bytes} (separates : Separates false separator) (more : Bytes) :
    Stops (separator ++ more) := by
  cases separates with
  | next before after =>
    rw [List.append_assoc]
    exact before.stops rfl _

/-- What is left of a list or an object after an item or a member ends a number. -/
theorem Lex.stops {enclosure : Enclosure} {bytes : Bytes} (lex : Lex (enclosure.extent false) bytes)
    (more : Bytes) : Stops (bytes ++ more) := by
  cases enclosure with
  | list =>
    cases lex with
    | noItem blank =>
      rw [List.append_assoc]
      exact blank.stops rfl _
    | item separates _ _ =>
      rw [List.append_assoc]
      exact separates.stops _
  | object =>
    cases lex with
    | noMember blank =>
      rw [List.append_assoc]
      exact blank.stops rfl _
    | member separates _ _ _ _ _ =>
      rw [List.append_assoc]
      exact separates.stops _

theorem Quotable.unique {written written' more more' : Bytes} (quotable : Quotable written)
    (quotable' : Quotable written') (same : written ++ 0x22 :: more = written' ++ 0x22 :: more') :
    written = written' ∧ more = more' := by
  have skipped := quotable.skip more
  rw [same, quotable'.skip] at skipped
  obtain rfl := Except.ok.inj skipped
  exact ⟨List.append_cancel_right same, rfl⟩

theorem IsText.unique {text text' : String} {written written' more more' : Bytes}
    (isText : IsText text written) (isText' : IsText text' written')
    (same : written ++ 0x22 :: more = written' ++ 0x22 :: more') :
    text = text' ∧ written = written' ∧ more = more' := by
  have read := isText.read more
  rw [same, isText'.read] at read
  obtain ⟨rfl, rfl⟩ := Prod.mk.inj (Except.ok.inj read)
  exact ⟨rfl, List.append_cancel_right same, rfl⟩

section Separator

variable {first : Bool} {separator separator' more more' : Bytes}
  (separates : Separates first separator)
include separates

theorem Separates.nextItem {item : Bytes} (whole : Lex .whole item) (more : Bytes) :
    nextItem first (separator ++ (item ++ more)) = .ok (true, item ++ more) := by
  obtain ⟨byte, tail, rfl, solid⟩ := whole.exists_first
  exact nextItem_separates _ separates solid

theorem Separates.unique_item {item item' : Bytes} (separates' : Separates first separator')
    (whole : Lex .whole item) (whole' : Lex .whole item')
    (same : separator ++ (item ++ more) = separator' ++ (item' ++ more')) :
    separator = separator' ∧ item ++ more = item' ++ more' := by
  have next := separates.nextItem whole more
  rw [same, separates'.nextItem whole'] at next
  obtain ⟨-, behind⟩ := Prod.mk.inj (Except.ok.inj next)
  rw [behind] at same
  exact ⟨List.append_cancel_right same, behind.symm⟩

theorem Separates.ne_bracket {item blanks : Bytes} (whole : Lex .whole item) (blank : Blank blanks) :
    separator ++ (item ++ more) ≠ blanks ++ 0x5D :: more' := by
  intro same
  have next := separates.nextItem whole more
  rw [same, nextItem_bracket _ blank] at next
  simp at next

theorem Separates.ne_brace {blanks : Bytes} (blank : Blank blanks) :
    separator ++ 0x22 :: more ≠ blanks ++ 0x7D :: more' := by
  intro same
  have next := nextKey_separates more separates
  rw [same, nextKey_blank _ blank] at next
  simp at next

theorem Separates.unique_key (separates' : Separates first separator')
    (same : separator ++ 0x22 :: more = separator' ++ 0x22 :: more') :
    separator = separator' ∧ more = more' := by
  have next := nextKey_separates more separates
  rw [same, nextKey_separates more' separates'] at next
  obtain ⟨-, rfl⟩ := Prod.mk.inj (Except.ok.inj next)
  exact ⟨List.append_cancel_right same, rfl⟩

end Separator

/-- A value comes after the blanks before it. -/
theorem Blank.unique_item {blanks blanks' item item' more more' : Bytes} (blank : Blank blanks)
    (blank' : Blank blanks') (whole : Lex .whole item) (whole' : Lex .whole item')
    (same : blanks ++ (item ++ more) = blanks' ++ (item' ++ more')) :
    blanks = blanks' ∧ item ++ more = item' ++ more' :=
  (Separates.first blank).unique_item (.first blank') whole whole' same

/-- Numeric bytes end where the numeric bytes end. -/
theorem numeric_unique {digits digits' more more' : Bytes} (numeric : AllNumeric digits)
    (numeric' : AllNumeric digits') (same : digits ++ more = digits' ++ more')
    (stops : Stops more ∧ Stops more') : digits = digits' ∧ more = more' := by
  have taken : (digits ++ more).takeWhile isNumeric = digits := by
    rw [List.takeWhile_append_of_pos numeric, stops.1, List.append_nil]
  rw [same, List.takeWhile_append_of_pos numeric', stops.2, List.append_nil] at taken
  subst taken
  exact ⟨rfl, List.append_cancel_left same⟩

/-- Bytes that are those of a number start as a number does. -/
theorem numberStart_of_same {byte first : UInt8} {bytes more : Bytes}
    (kind : first = 0x2D ∨ isDigit first = true) (same : byte :: bytes = first :: more) :
    byte = 0x2D ∨ isDigit byte = true :=
  (List.cons.inj same).1 ▸ kind

/-- Bytes start with at most one part of a value, if a whole value is not followed by what would go on
with a number. -/
theorem Lex.unique {extent : Extent} {front front' more more' : Bytes} (lex : Lex extent front)
    (lex' : Lex extent front') (same : front ++ more = front' ++ more')
    (stops : extent = .whole → Stops more ∧ Stops more') : front = front' ∧ more = more' := by
  induction lex generalizing front' more more' with
  | nullWord =>
    cases lex' with
    | nullWord => exact ⟨rfl, List.append_cancel_left same⟩
    | number kind _ => exact absurd (numberStart_of_same kind same) (by decide)
    | _ => exact absurd (List.cons.inj same).1 (by decide)
  | trueWord =>
    cases lex' with
    | trueWord => exact ⟨rfl, List.append_cancel_left same⟩
    | number kind _ => exact absurd (numberStart_of_same kind same) (by decide)
    | _ => exact absurd (List.cons.inj same).1 (by decide)
  | falseWord =>
    cases lex' with
    | falseWord => exact ⟨rfl, List.append_cancel_left same⟩
    | number kind _ => exact absurd (numberStart_of_same kind same) (by decide)
    | _ => exact absurd (List.cons.inj same).1 (by decide)
  | @number first digits kind numeric =>
    cases lex' with
    | @number _ digits' _ numeric' =>
      obtain ⟨rfl, behind⟩ := List.cons.inj same
      obtain ⟨rfl, rfl⟩ := numeric_unique numeric numeric' behind (stops rfl)
      exact ⟨rfl, rfl⟩
    | _ => exact absurd (numberStart_of_same kind same.symm) (by decide)
  | text quotable =>
    cases lex' with
    | text quotable' =>
      simp only [List.cons_append, List.append_assoc, List.cons.injEq, true_and] at same
      obtain ⟨rfl, rfl⟩ := quotable.unique quotable' same
      exact ⟨rfl, rfl⟩
    | number kind _ => exact absurd (numberStart_of_same kind same) (by decide)
    | _ => exact absurd (List.cons.inj same).1 (by decide)
  | list _ ih =>
    cases lex' with
    | list inside' =>
      obtain ⟨rfl, rfl⟩ := ih inside' (List.cons.inj same).2 nofun
      exact ⟨rfl, rfl⟩
    | number kind _ => exact absurd (numberStart_of_same kind same) (by decide)
    | _ => exact absurd (List.cons.inj same).1 (by decide)
  | object _ ih =>
    cases lex' with
    | object inside' =>
      obtain ⟨rfl, rfl⟩ := ih inside' (List.cons.inj same).2 nofun
      exact ⟨rfl, rfl⟩
    | number kind _ => exact absurd (numberStart_of_same kind same) (by decide)
    | _ => exact absurd (List.cons.inj same).1 (by decide)
  | noItem blank =>
    cases lex' with
    | noItem blank' =>
      rw [← List.append_cons, ← List.append_cons] at same
      obtain ⟨rfl, -, rfl⟩ := blank.unique blank' rfl rfl same
      exact ⟨rfl, rfl⟩
    | item separates whole _ =>
      rw [← List.append_cons, List.append_assoc, List.append_assoc] at same
      exact absurd same.symm (separates.ne_bracket whole blank)
  | item separates whole rest ihItem ihRest =>
    cases lex' with
    | noItem blank =>
      rw [← List.append_cons, List.append_assoc, List.append_assoc] at same
      exact absurd same (separates.ne_bracket whole blank)
    | item separates' whole' rest' =>
      simp only [List.append_assoc] at same
      obtain ⟨rfl, behind⟩ := separates.unique_item separates' whole whole' same
      obtain ⟨rfl, left⟩ := ihItem whole' behind fun _ =>
        ⟨@Lex.stops .list _ rest more, @Lex.stops .list _ rest' more'⟩
      obtain ⟨rfl, rfl⟩ := ihRest rest' left nofun
      exact ⟨rfl, rfl⟩
  | noMember blank =>
    cases lex' with
    | noMember blank' =>
      rw [← List.append_cons, ← List.append_cons] at same
      obtain ⟨rfl, -, rfl⟩ := blank.unique blank' rfl rfl same
      exact ⟨rfl, rfl⟩
    | member separates _ _ _ _ _ =>
      rw [← List.append_cons, member_append] at same
      exact absurd same.symm (separates.ne_brace blank)
  | member separates named before after whole rest ihItem ihRest =>
    cases lex' with
    | noMember blank =>
      rw [← List.append_cons, member_append] at same
      exact absurd same (separates.ne_brace blank)
    | member separates' named' before' after' whole' rest' =>
      rw [member_append, member_append] at same
      obtain ⟨rfl, quoted⟩ := separates.unique_key separates' same
      obtain ⟨rfl, colon⟩ := named.unique named' quoted
      obtain ⟨rfl, -, gap⟩ := before.unique before' rfl rfl colon
      obtain ⟨rfl, behind⟩ := after.unique_item after' whole whole' gap
      obtain ⟨rfl, left⟩ := ihItem whole' behind fun _ =>
        ⟨@Lex.stops .object _ rest more, @Lex.stops .object _ rest' more'⟩
      obtain ⟨rfl, rfl⟩ := ihRest rest' left nofun
      exact ⟨rfl, rfl⟩

theorem determined_entries (first : Bool) : Determined (Entries first) := by
  intro entries entries' front front' more more' inside inside' same
  induction inside generalizing entries' front' with
  | none blank =>
    cases inside' with
    | none blank' =>
      rw [← List.append_cons, ← List.append_cons] at same
      obtain ⟨rfl, -, rfl⟩ := blank.unique blank' rfl rfl same
      exact ⟨rfl, rfl, rfl⟩
    | some separates _ _ _ _ _ =>
      rw [← List.append_cons, member_append] at same
      exact absurd same.symm (separates.ne_brace blank)
  | some separates named before after whole rest ih =>
    cases inside' with
    | none blank =>
      rw [← List.append_cons, member_append] at same
      exact absurd same (separates.ne_brace blank)
    | some separates' named' before' after' whole' rest' =>
      rw [member_append, member_append] at same
      obtain ⟨rfl, quoted⟩ := separates.unique_key separates' same
      obtain ⟨rfl, rfl, colon⟩ := named.unique named' quoted
      obtain ⟨rfl, -, gap⟩ := before.unique before' rfl rfl colon
      obtain ⟨rfl, behind⟩ := after.unique_item after' whole whole' gap
      obtain ⟨rfl, left⟩ := whole.unique whole' behind fun _ =>
        ⟨@Lex.stops .object _ rest.lex more, @Lex.stops .object _ rest'.lex more'⟩
      obtain ⟨rfl, rfl, rfl⟩ := ih rest' left
      exact ⟨rfl, rfl, rfl⟩

theorem determined_headers : Determined IsHeaders := by
  intro entries? entries?' front front' more more' headers headers' same
  cases headers with
  | null =>
    cases headers' with
    | null => exact ⟨rfl, rfl, List.append_cancel_left same⟩
    | object _ => exact absurd (List.cons.inj same).1 (by decide)
  | object inside =>
    cases headers' with
    | null => exact absurd (List.cons.inj same).1 (by decide)
    | object inside' =>
      obtain ⟨rfl, rfl, rfl⟩ := determined_entries true inside inside' (List.cons.inj same).2
      exact ⟨rfl, rfl, rfl⟩

/-- The items of a list and its end. -/
def IsList (first : Bool) (items : List Bytes) (bytes : Bytes) : Prop :=
  ∃ listed blanks, bytes = listed ++ (blanks ++ [0x5D]) ∧ Listed first items listed ∧ Blank blanks

theorem Listed.lex {first : Bool} {items : List Bytes} {listed blanks : Bytes}
    (isListed : Listed first items listed) (blank : Blank blanks) :
    Lex (.listFrom first) (listed ++ (blanks ++ [0x5D])) := by
  induction isListed with
  | none => exact .noItem blank
  | some separates whole _ ih =>
    rw [List.append_assoc, List.append_assoc]
    exact .item separates whole ih

theorem determined_list (first : Bool) : Determined (IsList first) := by
  apply Determined.of_rest
  rintro items items' _ _ more more' ⟨listed, blanks, rfl, isListed, blank⟩
    ⟨listed', blanks', rfl, isListed', blank'⟩ same
  induction isListed generalizing items' listed' with
  | none =>
    cases isListed' with
    | none =>
      simp only [List.nil_append, List.append_assoc, List.singleton_append] at same
      obtain ⟨rfl, -, rfl⟩ := blank.unique blank' rfl rfl same
      exact ⟨rfl, rfl⟩
    | some separates whole _ =>
      simp only [List.nil_append, List.append_assoc, List.singleton_append] at same
      exact absurd same.symm (separates.ne_bracket whole blank)
  | some separates whole rest ih =>
    cases isListed' with
    | none =>
      simp only [List.nil_append, List.append_assoc, List.singleton_append] at same
      exact absurd same (separates.ne_bracket whole blank')
    | some separates' whole' rest' =>
      simp only [List.append_assoc] at same
      obtain ⟨rfl, behind⟩ := separates.unique_item separates' whole whole' same
      have ends := @Lex.stops .list _ (rest.lex blank) more
      have ends' := @Lex.stops .list _ (rest'.lex blank') more'
      simp only [List.append_assoc] at ends ends'
      obtain ⟨rfl, left⟩ := whole.unique whole' behind fun _ => ⟨ends, ends'⟩
      obtain ⟨rfl, rfl⟩ := ih _ rest' (by simpa only [List.append_assoc] using left)
      exact ⟨rfl, rfl⟩

theorem determined_record (schema : Schema) : Determined (IsRecord schema) := by
  intro items items' front front' more more' record record' same
  cases record with
  | object inside =>
    cases record' with
    | object inside' =>
      obtain ⟨rfl, rfl, rfl⟩ := determined_entries true inside inside' (List.cons.inj same).2
      exact ⟨rfl, rfl, rfl⟩
    | list _ _ => exact absurd (List.cons.inj same).1 (by decide)
  | list listed blank =>
    cases record' with
    | object _ => exact absurd (List.cons.inj same).1 (by decide)
    | list listed' blank' =>
      have list : IsList true _ _ := ⟨_, _, rfl, listed, blank⟩
      have list' : IsList true _ _ := ⟨_, _, rfl, listed', blank'⟩
      obtain ⟨rfl, bytes, rfl⟩ := determined_list true list list' (List.cons.inj same).2
      exact ⟨rfl, congrArg _ bytes, rfl⟩

theorem IsRecord.exists_first {schema : Schema} {items : Nat → List Bytes} {bytes : Bytes}
    (record : IsRecord schema items bytes) :
    ∃ byte tail, bytes = byte :: tail ∧ isBlank byte = false := by
  cases record <;> exact ⟨_, _, rfl, rfl⟩

/-- The blanks before a record are those before its first byte. -/
theorem determined_spaced_record (schema : Schema) : Determined (Spaced (IsRecord schema)) := by
  apply Determined.of_rest
  rintro items items' _ _ more more' ⟨blanks, bytes, rfl, blank, record⟩
    ⟨blanks', bytes', rfl, blank', record'⟩ same
  obtain ⟨byte, tail, rfl, solid⟩ := record.exists_first
  obtain ⟨byte', tail', rfl, solid'⟩ := record'.exists_first
  rw [List.append_assoc, List.append_assoc, List.cons_append, List.cons_append] at same
  obtain ⟨-, rfl, behind⟩ := blank.unique blank' solid solid' same
  obtain ⟨rfl, -, rfl⟩ := determined_record schema record record' (congrArg (byte :: ·) behind)
  exact ⟨rfl, rfl⟩

/-- The shapes of JSON values. Blanks may stand before a record. -/
def shapes : Shapes where
  whole := Lex .whole
  headers := IsHeaders
  dropped := IsNull
  record schema := Spaced (IsRecord schema)
  headers_determined := determined_headers
  record_determined := determined_spaced_record

end FramedTasks.Json
