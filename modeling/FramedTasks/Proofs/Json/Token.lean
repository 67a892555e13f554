import FramedTasks.Json.Token
import FramedTasks.Proofs.Text.Decimal
import FramedTasks.Proofs.Text.Utf8

/-! # Tokens

Inside a text, an escape denotes a character, and every other character stands for itself. A decimal
number ends at the first byte that cannot go on with it.
-/

namespace FramedTasks.Json

open FramedTasks.Utf8 (encodeChars)

theorem skipBlank_cons {byte : UInt8} (solid : isBlank byte = false) (rest : Bytes) :
    skipBlank (byte :: rest) = byte :: rest :=
  List.dropWhile_cons_of_neg (by simp [solid])

theorem not_isBlank_of_isDigit {byte : UInt8} (digit : isDigit byte = true) :
    isBlank byte = false := by
  simp only [isDigit, Bool.and_eq_true, decide_eq_true_eq, UInt8.le_iff_toNat_le] at digit
  simp only [isBlank, Bool.or_eq_false_iff, beq_eq_false_iff_ne, ne_eq, ← UInt8.toNat_inj,
    UInt8.reduceToNat] at digit ⊢
  omega

section Text

variable {byte : UInt8} {reversed bytes rest : Bytes} {c : Char}

/-- A byte that stands for itself in a text. -/
def Plain (byte : UInt8) : Prop := byte ≠ 0x22 ∧ byte ≠ 0x5C ∧ ¬ byte < 0x20

theorem readTextBytes_plain (plain : Plain byte) :
    readTextBytes reversed (byte :: rest) = readTextBytes (byte :: reversed) rest := by
  obtain ⟨notQuote, notBackslash, notControl⟩ := plain
  rw [readTextBytes.eq_def]
  simp only [if_neg notQuote, if_neg notBackslash, if_neg notControl]

theorem readTextBytes_append (plain : ∀ byte ∈ bytes, Plain byte) :
    readTextBytes reversed (bytes ++ rest) = readTextBytes (bytes.reverse ++ reversed) rest := by
  induction bytes generalizing reversed with
  | nil => rfl
  | cons byte bytes ih =>
    rw [List.cons_append, readTextBytes_plain (plain byte (List.mem_cons_self ..)),
      ih fun other member => plain other (List.mem_cons_of_mem _ member), List.reverse_cons,
      List.append_assoc, List.singleton_append]

/-- An escape of one letter. -/
theorem readTextBytes_letter {letter denoted : UInt8} (known : escaped? letter = some denoted)
    (short : letter ≠ 0x75) :
    readTextBytes reversed (0x5C :: letter :: rest) = readTextBytes (denoted :: reversed) rest := by
  have notQuote : ¬ (0x5C : UInt8) = 0x22 := by decide
  rw [readTextBytes.eq_def]
  simp only [if_neg notQuote, if_true, if_neg short, known]

/-- An escape by number. -/
theorem readTextBytes_unit {x y z w : UInt8} {unit : Nat} (known : hexNumber? x y z w = some unit)
    (notLead : isLeadSurrogate unit = false) (notTrail : isTrailSurrogate unit = false) :
    readTextBytes reversed (0x5C :: 0x75 :: x :: y :: z :: w :: rest) =
      readTextBytes (pushCodePoint unit reversed) rest := by
  have notQuote : ¬ (0x5C : UInt8) = 0x22 := by decide
  rw [readTextBytes.eq_def]
  simp only [if_neg notQuote, if_true, known, notTrail, notLead, Bool.false_eq_true, if_false]

theorem not_isSurrogate_of_lt {unit : Nat} (low : unit < 0xD800) :
    isLeadSurrogate unit = false ∧ isTrailSurrogate unit = false := by
  simp only [isLeadSurrogate, isTrailSurrogate, Bool.and_eq_false_imp, decide_eq_true_eq,
    decide_eq_false_iff_not]
  omega

theorem plain_ofNat {code : Nat} (small : code < 256) (notQuote : code ≠ 0x22)
    (notBackslash : code ≠ 0x5C) (notControl : 0x20 ≤ code) : Plain (UInt8.ofNat code) := by
  have exact : (UInt8.ofNat code).toNat = code := by
    rw [UInt8.toNat_ofNat']
    omega
  constructor
  · intro same
    apply notQuote
    rw [← exact, same]
    rfl
  constructor
  · intro same
    apply notBackslash
    rw [← exact, same]
    rfl
  · intro control
    rw [UInt8.lt_iff_toNat_lt, exact] at control
    exact absurd control (Nat.not_lt.mpr notControl)

/-- The bytes of a character that needs no escape. -/
theorem plain_encodeChar (notQuote : c ≠ '"') (notBackslash : c ≠ '\\') (notControl : 0x20 ≤ c.toNat) :
    ∀ byte ∈ String.utf8EncodeChar c, Plain byte := by
  have quote : c.val.toNat ≠ 0x22 := fun same => notQuote (Char.toNat_inj.mp same)
  have backslash : c.val.toNat ≠ 0x5C := fun same => notBackslash (Char.toNat_inj.mp same)
  have control : 0x20 ≤ c.val.toNat := notControl
  unfold String.utf8EncodeChar
  generalize c.val.toNat = code at quote backslash control
  intro byte member
  simp only at member
  split at member
  · obtain rfl := List.mem_singleton.mp member
    exact plain_ofNat (by omega) quote backslash control
  · split at member
    · simp only [List.mem_cons, List.not_mem_nil, or_false] at member
      rcases member with rfl | rfl <;> apply plain_ofNat <;> omega
    · split at member
      · simp only [List.mem_cons, List.not_mem_nil, or_false] at member
        rcases member with rfl | rfl | rfl <;> apply plain_ofNat <;> omega
      · simp only [List.mem_cons, List.not_mem_nil, or_false] at member
        rcases member with rfl | rfl | rfl | rfl <;> apply plain_ofNat <;> omega

end Text

section Number

/-- A byte that ends a whole number. -/
def EndsNumber (byte : UInt8) : Prop := isDigit byte = false ∧ startsPart byte = false

/-- Digits that denote a number, without a leading zero. -/
structure Numeral (number : Nat) (digits : Bytes) : Prop where
  decimal : ∀ byte ∈ digits, isDigit byte
  value : digits.foldl (fun value digit => value * 10 + digitValue digit) 0 = number
  lead : ∃ first more, digits = first :: more ∧ (first = 0x30 → number = 0 ∧ more = [])

private theorem encodeChars_digit : ∀ digit < 10,
    encodeChars [Nat.digitChar digit] = [UInt8.ofNat (0x30 + digit)] := by decide

private theorem isDigit_ofNat : ∀ digit < 10, isDigit (UInt8.ofNat (0x30 + digit)) := by decide

private theorem digitValue_ofNat : ∀ digit < 10, digitValue (UInt8.ofNat (0x30 + digit)) = digit := by
  decide

private theorem ofNat_eq_zero : ∀ digit < 10, UInt8.ofNat (0x30 + digit) = 0x30 → digit = 0 := by
  decide

theorem numeral_digit {digit : Nat} (small : digit < 10) :
    Numeral digit [UInt8.ofNat (0x30 + digit)] := by
  refine ⟨?_, ?_, _, [], rfl, ?_⟩
  · intro byte member
    rw [List.mem_singleton.mp member]
    exact isDigit_ofNat digit small
  · rw [List.foldl_cons, List.foldl_nil, digitValue_ofNat digit small]
    omega
  · intro zero
    exact ⟨ofNat_eq_zero digit small zero, rfl⟩

/-- One more digit behind a number that is not zero. -/
theorem Numeral.snoc {number digit : Nat} {digits : Bytes} (numeral : Numeral number digits)
    (positive : 0 < number) (small : digit < 10) :
    Numeral (number * 10 + digit) (digits ++ [UInt8.ofNat (0x30 + digit)]) := by
  obtain ⟨decimal, value, first, more, rfl, lead⟩ := numeral
  refine ⟨?_, ?_, first, more ++ [_], rfl, ?_⟩
  · intro byte member
    rcases List.mem_append.mp member with member | member
    · exact decimal byte member
    · rw [List.mem_singleton.mp member]
      exact isDigit_ofNat digit small
  · rw [List.foldl_append, value, List.foldl_cons, List.foldl_nil, digitValue_ofNat digit small]
  · intro zero
    have none := (lead zero).1
    omega

theorem numeral_natChars (number : Nat) : Numeral number (encodeChars (Decimal.natChars number)) := by
  induction number using Nat.strongRecOn with
  | ind number ih =>
    rw [Decimal.natChars, Nat.toDigits_eq_if (by decide)]
    split
    · next small =>
      rw [encodeChars_digit number small]
      exact numeral_digit small
    · next large =>
      have last : number % 10 < 10 := by omega
      have whole : number / 10 * 10 + number % 10 = number := by omega
      have front := ih (number / 10) (by omega)
      have written : encodeChars (Nat.toDigits 10 (number / 10) ++ [Nat.digitChar (number % 10)]) =
          encodeChars (Decimal.natChars (number / 10)) ++ [UInt8.ofNat (0x30 + number % 10)] := by
        rw [← encodeChars_digit _ last]
        exact List.flatMap_append
      have extended := front.snoc (by omega) last
      rwa [whole, ← written] at extended

theorem takeDigits_of_lt {digits : Bytes} {significand : Nat}
    (small : digits.foldl (fun value digit => value * 10 + digitValue digit) significand < 0x10000000000000000) :
    takeDigits significand digits =
      (digits.foldl (fun value digit => value * 10 + digitValue digit) significand, []) := by
  induction digits generalizing significand with
  | nil => rfl
  | cons digit digits ih =>
    have more := Decimal.le_foldl_digits digitValue digits (significand * 10 + digitValue digit)
    rw [List.foldl_cons] at small ⊢
    have fits : significand * 10 + digitValue digit < 0x10000000000000000 := by omega
    simp only [takeDigits, if_pos fits, ih small]

/-- A number of at most 64 bits is read up to the byte that ends it. -/
theorem readNumber_natChars {number : Nat} (small : number < 0x10000000000000000) (positive : Bool) {stop : UInt8}
    (ends : EndsNumber stop) (rest : Bytes) :
    readNumber positive (encodeChars (Decimal.natChars number) ++ stop :: rest) =
      readNumber.whole positive number (stop :: rest) := by
  obtain ⟨decimal, value, first, more, written, lead⟩ := numeral_natChars number
  obtain ⟨noDigit, noPart⟩ := ends
  have noPoint : ¬ stop = 0x2E := by
    rintro rfl
    contradiction
  have noScale : ¬ (startsPart stop = true ∨ ([] : Bytes) ≠ []) := by simp [noPart]
  have starts : (!isDigit first) = false := by
    rw [Bool.not_eq_false', decimal first (written ▸ List.mem_cons_self ..)]
  have taken := @takeDigits_of_lt (encodeChars (Decimal.natChars number)) 0 (by rwa [value])
  rw [value, written] at taken
  rw [written, List.cons_append, readNumber]
  simp only [starts, Bool.false_eq_true, if_false]
  by_cases zero : first = 0x30
  · obtain ⟨rfl, rfl⟩ := lead zero
    subst zero
    simp only [if_true, List.nil_append, taken, noDigit, Bool.false_eq_true, and_false, if_false,
      if_neg noPoint, if_neg noScale]
  · have ended : ¬ isDigit stop = true := by simp [noDigit]
    have digits : (first :: (more ++ stop :: rest)).takeWhile isDigit = first :: more := by
      rw [← List.cons_append, List.takeWhile_append_of_pos (written ▸ decimal),
        List.takeWhile_cons_of_neg ended, List.append_nil]
    have left : (first :: (more ++ stop :: rest)).dropWhile isDigit = stop :: rest := by
      rw [← List.cons_append, List.dropWhile_append_of_pos (written ▸ decimal),
        List.dropWhile_cons_of_neg ended]
    simp only [digits, left, taken, zero, false_and, if_false, if_neg noPoint, if_neg noScale]

end Number

end FramedTasks.Json
