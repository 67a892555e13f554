import FramedTasks.CommandLine.Value
import FramedTasks.Proofs.Text.Words

/-! # Lengths of time on the command line

A length of time is a positive number of at most 64 bits with a unit behind it or none, and there may
be white space around the two (`Denotes`). That is all that is accepted, and anything else is an
error of usage (`parse_accepts_exactly`). What is accepted needs no more than words: neither the
number nor the seconds and nanoseconds that are made of it wrap around in any step (`parseInWords?`).
-/

namespace FramedTasks.CommandLine.Duration

open FramedTasks.Decimal (PlusNumeral)

variable {chars digits suffix : List Char} {number : Nat} {duration : Duration}

/-- The characters that stand for a unit, and the milliseconds in the unit. -/
inductive Suffix : List Char → Nat → Prop
  | none : Suffix [] 1000
  | seconds : Suffix ['s'] 1000
  | milliseconds : Suffix ['m', 's'] 1

/-- Whether some characters are a positive number that fits a word of 64 bits, with a unit behind it
or none. -/
def Spells (chars : List Char) (duration : Duration) : Prop :=
  ∃ numeral suffix number millis, chars = numeral ++ suffix ∧ PlusNumeral numeral number ∧
    Suffix suffix millis ∧ 1 ≤ number ∧ number ≤ 0xFFFFFFFFFFFFFFFF ∧
    duration.millis = number * millis

/-- Whether a text stands for a length of time, with or without white space around it. -/
def Denotes (text : String) (duration : Duration) : Prop :=
  ∃ before chars after, (∀ c ∈ before, isBlank c = true) ∧ (∀ c ∈ after, isBlank c = true) ∧
    text.toList = before ++ (chars ++ after) ∧ Spells chars duration

def Unit.millis : Unit → Nat
  | .seconds => 1000
  | .milliseconds => 1

theorem millis_ofUnit (number : Nat) (unit : Unit) :
    (ofUnit number unit).millis = number * unit.millis := by
  cases unit with
  | seconds => rfl
  | milliseconds => exact (Nat.mul_one number).symm

/-- What is split off the end of a text is the suffix of the unit. -/
theorem suffix_splitUnit (chars : List Char) :
    ∃ suffix, chars = (splitUnit chars).1 ++ suffix ∧ Suffix suffix (splitUnit chars).2.millis := by
  have whole {front back : List Char} (reversed : chars.reverse = back.reverse ++ front) :
      chars = front.reverse ++ back := by
    rw [← List.reverse_reverse chars, reversed, List.reverse_append, List.reverse_reverse]
  unfold splitUnit
  split
  · next number reversed => exact ⟨['m', 's'], whole reversed, .milliseconds⟩
  · next number _ reversed => exact ⟨['s'], whole reversed, .seconds⟩
  · exact ⟨[], (List.append_nil chars).symm, .none⟩

/-- The last digit of a numeral begins no unit, so a suffix behind it is split off as a whole. -/
theorem splitUnit_append {millis : Nat} (numeral : PlusNumeral digits number)
    (stands : Suffix suffix millis) :
    ∃ unit : Unit, unit.millis = millis ∧ splitUnit (digits ++ suffix) = (digits, unit) := by
  obtain ⟨front, digit, small, rfl⟩ := numeral.exists_last
  obtain ⟨notS, notM⟩ : Nat.digitChar digit ≠ 's' ∧ Nat.digitChar digit ≠ 'm' :=
    (by decide : ∀ digit < 10, Nat.digitChar digit ≠ 's' ∧ Nat.digitChar digit ≠ 'm') digit small
  cases stands with
  | none =>
    refine ⟨.seconds, rfl, ?_⟩
    simp [splitUnit, notS]
  | seconds =>
    refine ⟨.seconds, rfl, ?_⟩
    simp [splitUnit, notM]
  | milliseconds =>
    refine ⟨.milliseconds, rfl, ?_⟩
    simp [splitUnit]

/-- A length of time is read as it is spelled. -/
theorem spells_iff :
    Spells chars duration ↔ ∃ number, Decimal.readNat? (splitUnit chars).1 = some number ∧
      number ≠ 0 ∧ number < numberLimit ∧ duration = ofUnit number (splitUnit chars).2 := by
  constructor
  · rintro ⟨digits, suffix, number, millis, rfl, numeral, stands, positive, fits, value⟩
    obtain ⟨unit, rfl, split⟩ := splitUnit_append numeral stands
    refine ⟨number, ?_, by omega, Nat.lt_succ_of_le fits, ?_⟩
    · rw [split, Decimal.readNat?_eq_some]
      exact numeral
    · have same := value.trans (millis_ofUnit number unit).symm
      rw [split]
      cases duration
      exact congrArg Duration.mk same
  · rintro ⟨number, read, positive, fits, rfl⟩
    obtain ⟨suffix, whole, stands⟩ := suffix_splitUnit chars
    exact ⟨_, suffix, number, _, whole, Decimal.readNat?_eq_some.mp read, stands, by omega,
      Nat.le_of_lt_succ fits, millis_ofUnit ..⟩

/-- Neither a numeral nor a unit has white space. -/
theorem Spells.solid (spells : Spells chars duration) : ∀ c ∈ chars, isBlank c = false := by
  obtain ⟨digits, suffix, number, millis, rfl, numeral, stands, -⟩ := spells
  intro c member
  rcases List.mem_append.mp member with member | member
  · exact numeral.signed.solid c member
  · cases stands with
    | none => contradiction
    | seconds =>
      obtain rfl := List.mem_singleton.mp member
      rfl
    | milliseconds =>
      obtain rfl | rfl : c = 'm' ∨ c = 's' := by simpa using member
      · rfl
      · rfl

/-- White space around a length of time is left out. -/
theorem denotes_iff {text : String} :
    Denotes text duration ↔ Spells (trimChars text.toList) duration := by
  constructor
  · rintro ⟨before, chars, after, blankBefore, blankAfter, whole, spells⟩
    rwa [(trimChars_eq (.of_solid spells.solid)).mpr ⟨before, after, blankBefore, blankAfter, whole⟩]
  · intro spells
    obtain ⟨before, after, blankBefore, blankAfter, whole⟩ := exists_trimChars text.toList
    exact ⟨before, _, after, blankBefore, blankAfter, whole, spells⟩

/-- What is accepted, by the number that is read in front of the unit. -/
theorem toOption_parse (text : String) :
    (parse text).toOption =
      (Decimal.readNat? (splitUnit (trimChars text.toList)).1).bind fun number =>
        if number ≠ 0 ∧ number < numberLimit then
          some (ofUnit number (splitUnit (trimChars text.toList)).2)
        else none := by
  simp only [parse]
  split
  · next empty =>
    rw [empty]
    rfl
  split
  · next unread =>
    rw [unread]
    rfl
  next number read =>
  rw [read, Option.bind_some]
  split
  · next large =>
    rw [if_neg fun fits => Nat.not_lt.mpr large fits.2]
    rfl
  split
  · next zero =>
    rw [if_neg fun fits => fits.1 zero]
    rfl
  · next small positive =>
    rw [if_pos ⟨positive, Nat.lt_of_not_le small⟩]
    rfl

/-- A text is accepted as the length of time that it spells between white space. -/
theorem parse_eq_ok (text : String) :
    parse text = .ok duration ↔ Spells (trimChars text.toList) duration := by
  have accepted : parse text = .ok duration ↔ (parse text).toOption = some duration := by
    cases parse text <;> simp [Except.toOption]
  rw [accepted, spells_iff, toOption_parse]
  simp only [Option.bind_eq_some_iff, Option.ite_none_right_eq_some, Option.some.injEq, and_assoc,
    eq_comm (a := duration)]

/-- Whatever is not accepted is an error of usage. -/
theorem parse_eq_ok_or_misuse (text : String) :
    (∃ duration, parse text = .ok duration) ∨ ∃ message, parse text = .error (misuse message) := by
  simp only [parse]
  split
  · exact .inr ⟨_, rfl⟩
  split
  · exact .inr ⟨_, rfl⟩
  split
  · exact .inr ⟨_, rfl⟩
  split
  · exact .inr ⟨_, rfl⟩
  · exact .inl ⟨_, rfl⟩

/-- A length of time in two words: whole seconds, and the nanoseconds after them. -/
structure Clock where
  seconds : UInt64
  nanos : UInt32
  nanos_lt : nanos < 1000000000

namespace Clock

def nanoseconds (clock : Clock) : Nat := clock.seconds.toNat * 1000000000 + clock.nanos.toNat

theorem toNat_rest (word : UInt64) :
    ((word % 1000).toUInt32 * 1000000).toNat = word.toNat % 1000 * 1000000 := by
  have small : word.toNat % 1000 < 1000 := Nat.mod_lt _ (by decide)
  have rest : (word % 1000).toUInt32.toNat = word.toNat % 1000 := by
    rw [UInt64.toNat_toUInt32, UInt64.toNat_mod]
    exact Nat.mod_eq_of_lt (Nat.lt_trans small (by decide))
  rw [UInt32.toNat_mul, rest]
  change word.toNat % 1000 * 1000000 % 0x100000000 = word.toNat % 1000 * 1000000
  exact Nat.mod_eq_of_lt (by omega)

def ofUnit (word : UInt64) : Unit → Clock
  | .seconds => ⟨word, 0, by decide⟩
  | .milliseconds =>
    ⟨word / 1000, (word % 1000).toUInt32 * 1000000, by
      rw [UInt32.lt_iff_toNat_lt, toNat_rest]
      change word.toNat % 1000 * 1000000 < 1000000000
      omega⟩

/-- No step of the division wraps around. -/
theorem nanoseconds_ofUnit (word : UInt64) (unit : Unit) :
    (ofUnit word unit).nanoseconds = (Duration.ofUnit word.toNat unit).millis * 1000000 := by
  rw [millis_ofUnit]
  cases unit with
  | seconds =>
    change word.toNat * 1000000000 + 0 = word.toNat * 1000 * 1000000
    omega
  | milliseconds =>
    have quotient : (word / 1000).toNat = word.toNat / 1000 := UInt64.toNat_div word 1000
    simp only [nanoseconds, ofUnit, toNat_rest, quotient, Unit.millis]
    omega

end Clock

/-- Read a positive number with a unit behind it into words. -/
def parseInWords? (text : String) : Option Clock :=
  let (digits, unit) := splitUnit (trimChars text.toList)
  (Decimal.readWord? digits).bind fun word =>
    if word = 0 then none else some (Clock.ofUnit word unit)

/-- Words are enough for what is accepted, and they hold it exactly. -/
theorem nanoseconds_parseInWords? (text : String) :
    (parseInWords? text).map Clock.nanoseconds =
      (parse text).toOption.map fun duration => duration.millis * 1000000 := by
  rw [toOption_parse]
  simp only [parseInWords?, Decimal.readWord?_eq]
  cases Decimal.readNat? (splitUnit (trimChars text.toList)).1 with
  | none => rfl
  | some number =>
    simp only [Option.bind_some]
    cases held : Decimal.word? number with
    | none =>
      have large : numberLimit ≤ number := Decimal.word?_eq_none.mp held
      rw [if_neg fun fits => Nat.not_lt.mpr large fits.2]
      rfl
    | some word =>
      obtain rfl := Decimal.toNat_of_word? held
      have isZero : word = 0 ↔ word.toNat = 0 := UInt64.toNat_inj.symm
      by_cases zero : word = 0
      · rw [Option.bind_some, if_pos zero, if_neg fun fits => fits.1 (isZero.mp zero)]
        rfl
      · rw [Option.bind_some, if_neg zero, if_pos ⟨mt isZero.mpr zero, word.toNat_lt⟩]
        exact congrArg some (Clock.nanoseconds_ofUnit word _)

/-- A text is accepted exactly if it stands for a length of time, and then as this; any other is an
error of usage. All of it can be done in words, without a step that wraps around. -/
theorem parse_accepts_exactly (text : String) :
    (∀ duration, parse text = .ok duration ↔ Denotes text duration) ∧
      ((∀ duration, ¬ Denotes text duration) ↔
        ∃ message, parse text = .error (misuse message)) ∧
      (parseInWords? text).map Clock.nanoseconds =
        (parse text).toOption.map fun duration => duration.millis * 1000000 := by
  have accepted (duration : Duration) : parse text = .ok duration ↔ Denotes text duration :=
    (parse_eq_ok text).trans denotes_iff.symm
  refine ⟨accepted, ?_, nanoseconds_parseInWords? text⟩
  rcases parse_eq_ok_or_misuse text with ⟨duration, parsed⟩ | ⟨message, refused⟩
  · constructor
    · intro none
      exact absurd ((accepted duration).mp parsed) (none duration)
    · rintro ⟨message, refused⟩
      rw [parsed] at refused
      contradiction
  · refine ⟨fun _ => ⟨message, refused⟩, fun _ duration denotes => ?_⟩
    have parsed := (accepted duration).mpr denotes
    rw [refused] at parsed
    contradiction

example : parse "\u2003+007ms\n" = .ok ⟨7⟩ := rfl

example : parse "18446744073709551616s" =
    .error (misuse "invalid duration value: 18446744073709551616s") := rfl

end FramedTasks.CommandLine.Duration
