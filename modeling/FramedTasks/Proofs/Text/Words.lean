import FramedTasks.Proofs.Text.Decimal

/-! # Decimal numbers in words

A number is read into a word of 64 bits digit by digit. Either step, the product and the sum, is
checked before it is taken, so that none of them wraps around: the word is that of the number which
the digits denote, and there is none exactly if this number needs more bits (`readWord?_eq`).
-/

namespace FramedTasks.Decimal

def word? (number : Nat) : Option UInt64 :=
  if number < 0x10000000000000000 then some (UInt64.ofNat number) else none

/-- Ten times a word, unless that is too large for a word. -/
def tenfold? (word : UInt64) : Option UInt64 :=
  if word ≤ 0xFFFFFFFFFFFFFFFF / 10 then some (word * 10) else none

/-- The sum of two words, unless that is too large for a word. -/
def sum? (first second : UInt64) : Option UInt64 :=
  if first ≤ 0xFFFFFFFFFFFFFFFF - second then some (first + second) else none

def pushDigit? (word : UInt64) (digit : Char) : Option UInt64 :=
  (tenfold? word).bind fun tens => sum? tens (UInt64.ofNat (digitValue digit))

def readWordDigits? (chars : List Char) : Option UInt64 :=
  if chars ≠ [] ∧ chars.all isDigit then chars.foldlM pushDigit? 0 else none

/-- Read digits after an optional plus sign into a word. -/
def readWord? : List Char → Option UInt64
  | '+' :: rest => readWordDigits? rest
  | chars => readWordDigits? chars

variable {word : UInt64} {number : Nat}

theorem toNat_of_word? (held : word? number = some word) : word.toNat = number := by
  obtain ⟨small, same⟩ := Option.ite_none_right_eq_some.mp held
  obtain rfl := Option.some.inj same
  exact UInt64.toNat_ofNat_of_lt' small

theorem word?_toNat (word : UInt64) : word? word.toNat = some word := by
  rw [word?, if_pos word.toNat_lt, UInt64.ofNat_toNat]

theorem word?_eq_none : word? number = none ↔ 0x10000000000000000 ≤ number := by
  rw [word?]
  split <;> simp <;> omega

theorem tenfold?_eq (word : UInt64) : tenfold? word = word? (word.toNat * 10) := by
  have bound : word ≤ 0xFFFFFFFFFFFFFFFF / 10 ↔ word.toNat ≤ 1844674407370955161 :=
    UInt64.le_iff_toNat_le
  rw [tenfold?]
  split
  · next small =>
    have fits := bound.mp small
    have exact : (word * 10).toNat = word.toNat * 10 := by
      rw [UInt64.toNat_mul]
      change word.toNat * 10 % 0x10000000000000000 = word.toNat * 10
      exact Nat.mod_eq_of_lt (by omega)
    rw [← exact, word?_toNat]
  · next large =>
    have exceeds := mt bound.mpr large
    rw [word?_eq_none.mpr (by omega)]

theorem sum?_eq (first second : UInt64) : sum? first second = word? (first.toNat + second.toNat) := by
  have largest := second.toNat_lt
  have room : (0xFFFFFFFFFFFFFFFF - second).toNat = 0xFFFFFFFFFFFFFFFF - second.toNat := by
    apply UInt64.toNat_sub_of_le
    rw [UInt64.le_iff_toNat_le]
    exact Nat.le_of_lt_succ largest
  have bound : first ≤ 0xFFFFFFFFFFFFFFFF - second ↔
      first.toNat ≤ 0xFFFFFFFFFFFFFFFF - second.toNat := by
    rw [UInt64.le_iff_toNat_le, room]
  rw [sum?]
  split
  · next small =>
    have fits := bound.mp small
    have exact : (first + second).toNat = first.toNat + second.toNat := by
      rw [UInt64.toNat_add]
      exact Nat.mod_eq_of_lt (by omega)
    rw [← exact, word?_toNat]
  · next large =>
    have exceeds := mt bound.mpr large
    rw [word?_eq_none.mpr (by omega)]

/-- A digit is put behind a word exactly if the number that results fits. -/
theorem pushDigit?_eq (word : UInt64) {digit : Char} (decimal : isDigit digit = true) :
    pushDigit? word digit = word? (word.toNat * 10 + digitValue digit) := by
  have small : (UInt64.ofNat (digitValue digit)).toNat = digitValue digit := by
    obtain ⟨value, least, rfl⟩ := exists_digitChar decimal
    rw [(digitChar_spec value least).2]
    exact UInt64.toNat_ofNat_of_lt' (Nat.lt_trans least (by decide))
  rw [pushDigit?, tenfold?_eq]
  by_cases fits : word.toNat * 10 < 0x10000000000000000
  · have tens : word? (word.toNat * 10) = some (UInt64.ofNat (word.toNat * 10)) := if_pos fits
    rw [tens, Option.bind_some, sum?_eq, small, toNat_of_word? tens]
  · rw [word?_eq_none.mpr (Nat.le_of_not_lt fits), word?_eq_none.mpr (by omega), Option.bind_none]

/-- Digits are read into a word exactly if their number fits, and then as that number. -/
theorem foldlM_pushDigit? {digits : List Char} (decimal : ∀ c ∈ digits, isDigit c = true)
    (word : UInt64) :
    digits.foldlM pushDigit? word =
      word? (digits.foldl (fun number digit => number * 10 + digitValue digit) word.toNat) := by
  induction digits generalizing word with
  | nil => exact (word?_toNat word).symm
  | cons digit digits ih =>
    obtain ⟨first, decimal⟩ := List.forall_mem_cons.mp decimal
    rw [List.foldlM_cons, pushDigit?_eq word first, List.foldl_cons]
    cases held : word? (word.toNat * 10 + digitValue digit) with
    | some next => exact toNat_of_word? held ▸ ih decimal next
    | none =>
      -- a number that is too large only grows
      have large := Nat.le_trans (word?_eq_none.mp held) (le_foldl_digits digitValue digits _)
      exact (word?_eq_none.mpr large).symm

theorem readWordDigits?_eq (chars : List Char) :
    readWordDigits? chars = (readDigits? chars).bind word? := by
  rw [readWordDigits?, readDigits?]
  split
  · next digits => exact foldlM_pushDigit? (List.all_eq_true.mp digits.2) 0
  · rfl

/-- The word that is read is that of the number which is read, if this fits. -/
theorem readWord?_eq (chars : List Char) : readWord? chars = (readNat? chars).bind word? := by
  fun_cases readNat? chars with
  | case1 rest => exact readWordDigits?_eq rest
  | case2 _ unsigned =>
    unfold readWord?
    split
    · next rest => exact absurd rfl (unsigned rest)
    · exact readWordDigits?_eq _

end FramedTasks.Decimal
