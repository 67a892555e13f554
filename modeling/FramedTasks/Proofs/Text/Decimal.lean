import Mathlib.Data.List.Induction
import FramedTasks.Proofs.Text.Blank
import FramedTasks.Text.Decimal

/-! # Decimal integers and what they denote

`Numeral`, `PlusNumeral` and `SignedNumeral` say which characters denote which number. Reading digits
gives that number whatever its length (`readNat?_eq_some`, `readInt?_eq_some`), and what is written
denotes the number that was written (`signedNumeral_intChars`). No character of a numeral is white
space, so that a numeral between white space is found by leaving that out (`trimChars_eq`).
-/

namespace FramedTasks.Decimal

/-- One or more digits and the number that they denote. -/
inductive Numeral : List Char → Nat → Prop
  | digit {digit : Nat} : digit < 10 → Numeral [Nat.digitChar digit] digit
  | snoc {digits : List Char} {number digit : Nat} :
      Numeral digits number → digit < 10 →
      Numeral (digits ++ [Nat.digitChar digit]) (10 * number + digit)

/-- Digits after a plus sign or after no sign, and the number that they denote. -/
inductive PlusNumeral : List Char → Nat → Prop
  | unsigned {digits : List Char} {number : Nat} :
      Numeral digits number → PlusNumeral digits number
  | plus {digits : List Char} {number : Nat} :
      Numeral digits number → PlusNumeral ('+' :: digits) number

/-- Digits after a sign or after none, and the integer that they denote. -/
inductive SignedNumeral : List Char → Int → Prop
  | unsigned {digits : List Char} {number : Nat} :
      Numeral digits number → SignedNumeral digits number
  | plus {digits : List Char} {number : Nat} :
      Numeral digits number → SignedNumeral ('+' :: digits) number
  | minus {digits : List Char} {number : Nat} :
      Numeral digits number → SignedNumeral ('-' :: digits) (-number)

variable {chars : List Char} {number : Nat} {value : Int}

theorem digitChar_spec : ∀ digit < 10,
    isDigit (Nat.digitChar digit) = true ∧ digitValue (Nat.digitChar digit) = digit := by
  decide

/-- The digits are ten characters. -/
theorem exists_digitChar {c : Char} (decimal : isDigit c = true) :
    ∃ digit < 10, c = Nat.digitChar digit := by
  obtain ⟨least, most⟩ : '0' ≤ c ∧ c ≤ '9' := by
    simpa only [isDigit, Bool.and_eq_true, decide_eq_true_eq] using decimal
  have low : 48 ≤ c.toNat := least
  have high : c.toNat ≤ 57 := most
  refine ⟨c.toNat - 48, by omega, Char.toNat_inj.mp ?_⟩
  rw [Nat.toNat_digitChar_of_lt_ten (by omega)]
  omega

theorem ofDigits_append_digit (digits : List Char) {digit : Nat} (small : digit < 10) :
    ofDigits (digits ++ [Nat.digitChar digit]) = 10 * ofDigits digits + digit := by
  rw [ofDigits, List.foldl_append, ← ofDigits, List.foldl_cons, List.foldl_nil,
    (digitChar_spec digit small).2, Nat.mul_comm]

/-- More digits make no number smaller. -/
theorem le_foldl_digits {α : Type} (valueOf : α → Nat) (digits : List α) (number : Nat) :
    number ≤ digits.foldl (fun number digit => number * 10 + valueOf digit) number := by
  induction digits generalizing number with
  | nil => exact Nat.le_refl number
  | cons digit digits ih => exact Nat.le_trans (by omega) (ih (number * 10 + valueOf digit))

theorem Numeral.ne_nil (numeral : Numeral chars number) : chars ≠ [] := by
  cases numeral with
  | digit small => exact List.cons_ne_nil _ _
  | snoc front small => simp

theorem Numeral.isDigit (numeral : Numeral chars number) : ∀ c ∈ chars, isDigit c = true := by
  induction numeral with
  | digit small =>
    intro c member
    rw [List.mem_singleton.mp member]
    exact (digitChar_spec _ small).1
  | snoc front small ih =>
    intro c member
    rcases List.mem_append.mp member with member | member
    · exact ih c member
    · rw [List.mem_singleton.mp member]
      exact (digitChar_spec _ small).1

/-- The first of some digits is no sign. -/
theorem Numeral.ne_cons (numeral : Numeral chars number) {sign : Char}
    (other : Decimal.isDigit sign = false) (rest : List Char) : chars ≠ sign :: rest := by
  rintro rfl
  have digit := numeral.isDigit sign (List.mem_cons_self ..)
  simp [other] at digit

theorem Numeral.exists_last (numeral : Numeral chars number) :
    ∃ front, ∃ digit < 10, chars = front ++ [Nat.digitChar digit] := by
  cases numeral with
  | digit small => exact ⟨[], _, small, rfl⟩
  | snoc _ small => exact ⟨_, _, small, rfl⟩

theorem PlusNumeral.exists_last (numeral : PlusNumeral chars number) :
    ∃ front, ∃ digit < 10, chars = front ++ [Nat.digitChar digit] := by
  cases numeral with
  | unsigned digits => exact digits.exists_last
  | plus digits =>
    obtain ⟨front, digit, small, rfl⟩ := digits.exists_last
    exact ⟨'+' :: front, digit, small, rfl⟩

theorem PlusNumeral.signed (numeral : PlusNumeral chars number) : SignedNumeral chars number := by
  cases numeral with
  | unsigned digits => exact .unsigned digits
  | plus digits => exact .plus digits

theorem Numeral.ofDigits_eq (numeral : Numeral chars number) : ofDigits chars = number := by
  induction numeral with
  | digit small => simpa [ofDigits] using (digitChar_spec _ small).2
  | snoc front small ih => rw [ofDigits_append_digit _ small, ih]

/-- Any digits are a numeral. -/
theorem numeral_ofDigits (nonempty : chars ≠ []) (decimal : ∀ c ∈ chars, isDigit c = true) :
    Numeral chars (ofDigits chars) := by
  induction chars using List.reverseRecOn with
  | nil => contradiction
  | append_singleton front last ih =>
    obtain ⟨digit, small, rfl⟩ := exists_digitChar (decimal last (by simp))
    rw [ofDigits_append_digit front small]
    cases front with
    | nil =>
      rw [show 10 * ofDigits [] + digit = digit from Nat.zero_add digit]
      exact .digit small
    | cons first rest =>
      exact .snoc (ih (List.cons_ne_nil _ _) fun c member => decimal c (List.mem_append_left _ member))
        small

theorem readDigits?_eq_some : readDigits? chars = some number ↔ Numeral chars number := by
  rw [readDigits?]
  constructor
  · intro read
    obtain ⟨⟨nonempty, decimal⟩, same⟩ := Option.ite_none_right_eq_some.mp read
    obtain rfl := Option.some.inj same
    exact numeral_ofDigits nonempty (List.all_eq_true.mp decimal)
  · intro numeral
    rw [if_pos ⟨numeral.ne_nil, List.all_eq_true.mpr numeral.isDigit⟩, numeral.ofDigits_eq]

/-- A numeral without a minus sign is read as the number it denotes, and nothing else is read. -/
theorem readNat?_eq_some : readNat? chars = some number ↔ PlusNumeral chars number := by
  constructor
  · intro read
    unfold readNat? at read
    split at read
    · exact .plus (readDigits?_eq_some.mp read)
    · exact .unsigned (readDigits?_eq_some.mp read)
  · intro numeral
    cases numeral with
    | plus digits =>
      rw [readNat?]
      exact readDigits?_eq_some.mpr digits
    | unsigned digits =>
      unfold readNat?
      split
      · exact absurd rfl (digits.ne_cons (by decide) _)
      · exact readDigits?_eq_some.mpr digits

/-- A numeral is read as the number it denotes, and nothing else is read. -/
theorem readInt?_eq_some : readInt? chars = some value ↔ SignedNumeral chars value := by
  constructor
  · intro read
    unfold readInt? at read
    split at read
    · obtain ⟨number, digits, rfl⟩ := Option.map_eq_some_iff.mp read
      exact .plus (readDigits?_eq_some.mp digits)
    · obtain ⟨_, magnitude, rfl⟩ := Option.map_eq_some_iff.mp read
      obtain ⟨number, digits, same⟩ := Option.bind_eq_some_iff.mp magnitude
      obtain rfl := Option.some.inj same
      exact .minus (readDigits?_eq_some.mp digits)
    · obtain ⟨number, digits, rfl⟩ := Option.map_eq_some_iff.mp read
      exact .unsigned (readDigits?_eq_some.mp digits)
  · intro numeral
    cases numeral with
    | plus digits | minus digits =>
      rw [readInt?, readDigits?_eq_some.mpr digits]
      rfl
    | unsigned digits =>
      unfold readInt?
      split
      · exact absurd rfl (digits.ne_cons (by decide) _)
      · exact absurd rfl (digits.ne_cons (by decide) _)
      · rw [readDigits?_eq_some.mpr digits]
        rfl

theorem numeral_natChars (number : Nat) : Numeral (natChars number) number := by
  induction number using Nat.strongRecOn with
  | ind number ih =>
    rw [natChars, Nat.toDigits_eq_if (by decide)]
    split
    · next small => exact .digit small
    · next large =>
      have whole : 10 * (number / 10) + number % 10 = number := Nat.div_add_mod number 10
      have front := Numeral.snoc (ih (number / 10) (by omega)) (Nat.mod_lt number (by decide))
      rwa [whole] at front

/-- The canonical text of an integer denotes it. -/
theorem signedNumeral_intChars (value : Int) : SignedNumeral (intChars value) value := by
  have digits := numeral_natChars value.natAbs
  rw [intChars]
  split
  · next negative =>
    have sized : -(value.natAbs : Int) = value := by omega
    have numeral := SignedNumeral.minus digits
    rwa [sized] at numeral
  · next positive =>
    have sized : (value.natAbs : Int) = value := by omega
    have numeral := SignedNumeral.unsigned digits
    rwa [sized] at numeral

/-- A numeral has no white space. -/
theorem SignedNumeral.solid (numeral : SignedNumeral chars value) :
    ∀ c ∈ chars, isBlank c = false := by
  have digit {digits : List Char} {number : Nat} (numeral : Numeral digits number) :
      ∀ c ∈ digits, isBlank c = false := by
    intro c member
    obtain ⟨digit, small, rfl⟩ := exists_digitChar (numeral.isDigit c member)
    exact (by decide : ∀ digit < 10, isBlank (Nat.digitChar digit) = false) digit small
  cases numeral with
  | unsigned digits => exact digit digits
  | plus digits | minus digits => exact List.forall_mem_cons.mpr ⟨by decide, digit digits⟩

/-- What is read of a text between white space is a numeral that stands there. -/
theorem readInt?_trimChars_eq_some :
    readInt? (trimChars chars) = some value ↔
      ∃ before numeral after, (∀ c ∈ before, isBlank c = true) ∧ (∀ c ∈ after, isBlank c = true) ∧
        chars = before ++ (numeral ++ after) ∧ SignedNumeral numeral value := by
  rw [readInt?_eq_some]
  constructor
  · intro numeral
    obtain ⟨before, after, blankBefore, blankAfter, whole⟩ := exists_trimChars chars
    exact ⟨before, _, after, blankBefore, blankAfter, whole, numeral⟩
  · rintro ⟨before, numeral, after, blankBefore, blankAfter, whole, denotes⟩
    rwa [(trimChars_eq (.of_solid denotes.solid)).mpr ⟨before, after, blankBefore, blankAfter, whole⟩]

end FramedTasks.Decimal
