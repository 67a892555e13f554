import FramedTasks.Proofs.Json.Document

/-! # What the readers of numbers take

A number is a digit and more bytes that numbers are made of. It ends in front of another byte, so a
reader that stopped in front of one stops there again if the bytes go on, while at the end of the
bytes a number might have gone on itself.
-/

namespace FramedTasks.Json

theorem span_append {p : UInt8 → Bool} {bytes : Bytes} (left : bytes.dropWhile p ≠ []) (more : Bytes) :
    (bytes ++ more).takeWhile p = bytes.takeWhile p ∧
      (bytes ++ more).dropWhile p = bytes.dropWhile p ++ more := by
  induction bytes with
  | nil => exact absurd rfl left
  | cons byte bytes ih =>
    by_cases holds : p byte = true
    · rw [List.dropWhile_cons_of_pos holds] at left
      obtain ⟨taken, dropped⟩ := ih left
      simp [holds, taken, dropped]
    · simp [holds]

theorem AllNumeric.append {front more : Bytes} (first : AllNumeric front) (second : AllNumeric more) :
    AllNumeric (front ++ more) := fun byte member =>
  (List.mem_append.mp member).elim (first byte) (second byte)

theorem AllNumeric.cons {byte : UInt8} {more : Bytes} (first : isNumeric byte = true)
    (second : AllNumeric more) : AllNumeric (byte :: more) :=
  List.forall_mem_cons.mpr ⟨first, second⟩

theorem isNumeric_of_isDigit {byte : UInt8} (digit : isDigit byte = true) : isNumeric byte = true := by
  rw [isNumeric, digit]
  rfl

theorem isNumeric_of_startsPart {byte : UInt8} (starts : startsPart byte = true) :
    isNumeric byte = true := by
  rw [isNumeric, starts, Bool.or_true]
  rfl

theorem allNumeric_digits (bytes : Bytes) : AllNumeric (bytes.takeWhile isDigit) := fun _ member =>
  isNumeric_of_isDigit (List.mem_takeWhile_imp member)

theorem steady_finish (positive : Bool) (significand : Nat) (exponent : Int) :
    Steady true (finish positive significand exponent) (finish positive significand exponent)
      fun _ => AllNumeric where
  taken done := by
    rw [finish] at done
    split at done
    · next x scaled =>
      obtain ⟨rfl, rfl⟩ := Prod.mk.inj (Except.ok.inj done)
      exact ⟨[], rfl, nofun, fun more _ => by rw [finish, scaled, List.nil_append]⟩
    · contradiction

/-- The sign of an exponent, and the bytes after it. -/
def exponentSign (bytes : Bytes) : Bool × Bytes :=
  match bytes with
  | 0x2B :: rest => (true, rest)
  | 0x2D :: rest => (false, rest)
  | _ => (true, bytes)

theorem exponentSign_cons (byte : UInt8) (rest : Bytes) : exponentSign (byte :: rest) =
    if byte = 0x2B then (true, rest) else if byte = 0x2D then (false, rest)
    else (true, byte :: rest) := by
  unfold exponentSign
  split <;> simp_all

theorem exponentSign_append {bytes rest : Bytes} {up : Bool} (signed : exponentSign bytes = (up, rest))
    (left : rest ≠ []) : ∃ sign, bytes = sign ++ rest ∧ AllNumeric sign ∧
      ∀ more, exponentSign (bytes ++ more) = (up, rest ++ more) := by
  cases bytes with
  | nil =>
    obtain ⟨-, rfl⟩ := Prod.mk.inj signed
    contradiction
  | cons byte bytes =>
    rw [exponentSign_cons] at signed
    by_cases plus : byte = 0x2B
    · rw [if_pos plus] at signed
      obtain ⟨rfl, rfl⟩ := Prod.mk.inj signed
      refine ⟨[byte], rfl, List.forall_mem_singleton.mpr (plus ▸ rfl), fun more => ?_⟩
      rw [List.cons_append, exponentSign_cons, if_pos plus]
    · by_cases minus : byte = 0x2D
      · rw [if_neg plus, if_pos minus] at signed
        obtain ⟨rfl, rfl⟩ := Prod.mk.inj signed
        refine ⟨[byte], rfl, List.forall_mem_singleton.mpr (minus ▸ rfl), fun more => ?_⟩
        rw [List.cons_append, exponentSign_cons, if_neg plus, if_pos minus]
      · rw [if_neg plus, if_neg minus] at signed
        obtain ⟨rfl, rfl⟩ := Prod.mk.inj signed
        refine ⟨[], rfl, nofun, fun more => ?_⟩
        rw [List.cons_append, exponentSign_cons, if_neg plus, if_neg minus]

/-- Exponent digits are read on unless they were too many or a byte that is no digit came. -/
theorem readPower_append {bytes rest : Bytes} {start power : Nat} {capped : Bool}
    (read : readPower start bytes = (power, capped, rest)) :
    ∃ front, bytes = front ++ rest ∧ AllNumeric front ∧
      (rest ≠ [] → ∀ more, readPower start (bytes ++ more) = (power, capped, rest ++ more)) := by
  induction bytes generalizing start with
  | nil =>
    obtain ⟨-, -, rfl⟩ := Prod.mk.inj read
    exact ⟨[], rfl, nofun, fun left => absurd rfl left⟩
  | cons byte bytes ih =>
    rw [readPower] at read
    by_cases digit : isDigit byte = true
    · have numeric := isNumeric_of_isDigit digit
      simp only [List.cons_append, readPower, if_pos digit] at read ⊢
      split at read
      · next small =>
        obtain ⟨front, rfl, digits, again⟩ := ih read
        refine ⟨byte :: front, rfl, digits.cons numeric, fun left more => ?_⟩
        rw [if_pos small, again left]
      · next large =>
        obtain ⟨rfl, rfl, rfl⟩ := Prod.mk.inj read
        exact ⟨[byte], rfl, List.forall_mem_singleton.mpr numeric, fun _ more => if_neg large⟩
    · rw [if_neg digit] at read
      cases read
      refine ⟨[], rfl, nofun, fun _ more => ?_⟩
      rw [List.cons_append, readPower, if_neg digit]

def readUnsigned (positive : Bool) (significand : Nat) (exponent : Int) (up : Bool) (bytes : Bytes) :
    Except Fault (Number × Bytes) :=
  match bytes with
  | [] => failAt .endInValue []
  | byte :: rest =>
    if isDigit byte then
      match readPower 0 bytes with
      | (_, true, rest) =>
        if significand ≠ 0 ∧ up then failAt .numberOutOfRange rest
        else finish positive 0 0 (rest.dropWhile isDigit)
      | (power, false, rest) =>
        finish positive significand (if up then exponent + power else exponent - power) rest
    else failAt .invalidNumber rest

theorem readExponent_eq (positive : Bool) (significand : Nat) (exponent : Int) (bytes : Bytes) :
    readExponent positive significand exponent bytes =
      readUnsigned positive significand exponent (exponentSign bytes).1 (exponentSign bytes).2 := rfl

variable {positive : Bool} {significand : Nat} {exponent : Int}

theorem steady_readUnsigned {up : Bool} : Steady true (readUnsigned positive significand exponent up)
    (readUnsigned positive significand exponent up) fun _ => AllNumeric := by
  refine .of_append fun {bytes number rest} done => ?_
  rw [readUnsigned.eq_def] at done
  cases bytes with
  | nil => contradiction
  | cons byte bytes =>
    dsimp only at done
    split at done
    · next digit =>
      split at done
      · next power middle read =>
        obtain ⟨front, same, numeric, again⟩ := readPower_append read
        split at done
        · contradiction
        · next fits =>
          obtain ⟨none, dropped, nothing, -⟩ := (steady_finish positive 0 0).taken done
          refine ⟨front ++ (middle.takeWhile isDigit ++ none), ?_,
            numeric.append ((allNumeric_digits middle).append nothing), fun left more => ?_⟩
          · rw [same, List.append_assoc, List.append_assoc, ← dropped, List.takeWhile_append_dropWhile]
          · have stops : middle.dropWhile isDigit ≠ [] :=
              dropped ▸ List.append_ne_nil_of_right_ne_nil none (left rfl)
            have some : middle ≠ [] := by
              rintro rfl
              exact stops rfl
            have read := again some more
            rw [List.cons_append] at read
            simp only [List.cons_append, readUnsigned, if_pos digit, read, if_neg fits,
              (span_append stops more).2]
            exact (steady_finish positive 0 0).append done left more
      · next power middle read =>
        obtain ⟨front, same, numeric, again⟩ := readPower_append read
        obtain ⟨none, rfl, nothing, -⟩ := (steady_finish ..).taken done
        refine ⟨front ++ none, by rw [same, List.append_assoc], numeric.append nothing,
          fun left more => ?_⟩
        have read := again (List.append_ne_nil_of_right_ne_nil none (left rfl)) more
        rw [List.cons_append] at read
        simp only [List.cons_append, readUnsigned, if_pos digit, read]
        exact (steady_finish ..).append done left more
    · contradiction

theorem steady_readExponent : Steady true (readExponent positive significand exponent)
      (readExponent positive significand exponent) fun _ => AllNumeric := by
  refine .of_append fun {bytes number rest} done => ?_
  obtain ⟨up, unsigned, signed⟩ : ∃ up unsigned, exponentSign bytes = (up, unsigned) := ⟨_, _, rfl⟩
  rw [readExponent_eq, signed] at done
  obtain ⟨front, split, numeric, -⟩ := steady_readUnsigned.taken done
  have some : unsigned ≠ [] := by
    rintro rfl
    contradiction
  obtain ⟨sign, rfl, numericSign, again⟩ := exponentSign_append signed some
  refine ⟨sign ++ front, by rw [List.append_assoc, ← split], numericSign.append numeric, fun left more => ?_⟩
  rw [readExponent_eq, again]
  exact steady_readUnsigned.append done left more

theorem steady_readScale : Steady true (readScale positive significand exponent)
    (readScale positive significand exponent) fun _ => AllNumeric := by
  refine .of_append fun {bytes number rest} done => ?_
  cases bytes with
  | nil =>
    obtain ⟨front, split, numeric, -⟩ := (steady_finish ..).taken done
    obtain ⟨rfl, rfl⟩ := List.nil_eq_append_iff.mp split
    exact ⟨[], rfl, numeric, fun left => absurd rfl (left rfl)⟩
  | cons byte bytes =>
    rw [readScale] at done
    by_cases letter : byte = 0x65 ∨ byte = 0x45
    · rw [if_pos letter] at done
      obtain ⟨front, rfl, numeric, -⟩ := steady_readExponent.taken done
      have starts : startsPart byte = true := by
        rcases letter with rfl | rfl <;> rfl
      refine ⟨byte :: front, rfl, numeric.cons (isNumeric_of_startsPart starts), fun left more => ?_⟩
      rw [List.cons_append, readScale, if_pos letter]
      exact steady_readExponent.append done left more
    · rw [if_neg letter] at done
      obtain ⟨front, split, numeric, -⟩ := (steady_finish ..).taken done
      refine ⟨front, split, numeric, fun left more => ?_⟩
      rw [List.cons_append, readScale, if_neg letter]
      exact (steady_finish ..).append done left more

theorem steady_readFraction : Steady true (readFraction positive significand exponent)
    (readFraction positive significand exponent) fun _ => AllNumeric := by
  refine .of_append fun {bytes number rest} done => ?_
  simp only [readFraction] at done
  split at done
  · split at done <;> contradiction
  · next some =>
    obtain ⟨front, split, numeric, -⟩ := steady_readScale.taken done
    refine ⟨bytes.takeWhile isDigit ++ front, ?_, (allNumeric_digits bytes).append numeric,
      fun left more => ?_⟩
    · rw [List.append_assoc, ← split, List.takeWhile_append_dropWhile]
    · have stops : bytes.dropWhile isDigit ≠ [] :=
        split ▸ List.append_ne_nil_of_right_ne_nil front (left rfl)
      obtain ⟨taken, dropped⟩ := span_append stops more
      simp only [readFraction, taken, dropped, if_neg some]
      exact steady_readScale.append done left more

theorem readNumber_whole_eq_ok {number : Number} {bytes rest : Bytes}
    (done : readNumber.whole positive significand bytes = .ok (number, rest)) :
    bytes = rest ∧ ∀ more, readNumber.whole positive significand more = .ok (number, more) := by
  unfold readNumber.whole at done ⊢
  split at done
  · next up =>
    obtain ⟨rfl, rfl⟩ := Prod.mk.inj (Except.ok.inj done)
    exact ⟨rfl, fun more => if_pos up⟩
  · next down =>
    split at done
    · next rounded =>
      obtain ⟨rfl, rfl⟩ := Prod.mk.inj (Except.ok.inj done)
      exact ⟨rfl, fun more => by rw [if_neg down, if_pos rounded]⟩
    · next exact_ =>
      obtain ⟨rfl, rfl⟩ := Prod.mk.inj (Except.ok.inj done)
      exact ⟨rfl, fun more => by rw [if_neg down, if_neg exact_]⟩

/-- The bytes of a number without a sign. -/
def IsNumber (bytes : Bytes) : Prop :=
  ∃ first more, bytes = first :: more ∧ isDigit first = true ∧ AllNumeric more

/-- The digits before the point, and the bytes after them. -/
def wholeDigits (first : UInt8) (after : Bytes) : Bytes × Bytes :=
  if first = 0x30 then ([first], after)
  else ((first :: after).takeWhile isDigit, (first :: after).dropWhile isDigit)

def readParts (positive : Bool) (first : UInt8) (digits rest : Bytes) :
    Except Fault (Number × Bytes) :=
  let (significand, unused) := takeDigits 0 digits
  match rest with
  | byte :: more =>
    if first = 0x30 ∧ isDigit byte then failAfter .invalidNumber rest
    else if byte = 0x2E then readFraction positive significand unused.length more
    else if startsPart byte ∨ unused ≠ [] then
      readScale positive significand unused.length rest
    else readNumber.whole positive significand rest
  | [] =>
    if unused ≠ [] then finish positive significand unused.length []
    else readNumber.whole positive significand []

theorem readNumber_cons {first : UInt8} (digit : isDigit first = true) (after : Bytes) :
    readNumber positive (first :: after) =
      readParts positive first (wholeDigits first after).1 (wholeDigits first after).2 := by
  rw [readNumber, digit, wholeDigits]
  by_cases zero : first = 0x30
  · simp only [if_pos zero]
    rfl
  · simp only [if_neg zero]
    rfl

theorem wholeDigits_append {first : UInt8} {after digits rest : Bytes} (digit : isDigit first = true)
    (read : wholeDigits first after = (digits, rest)) :
    ∃ more, after = more ++ rest ∧ AllNumeric more ∧
      (rest ≠ [] → ∀ more, wholeDigits first (after ++ more) = (digits, rest ++ more)) := by
  rw [wholeDigits] at read
  split at read
  · next zero =>
    obtain ⟨rfl, rfl⟩ := Prod.mk.inj read
    exact ⟨[], rfl, nofun, fun _ more => by rw [wholeDigits, if_pos zero]⟩
  · next some =>
    obtain ⟨rfl, rfl⟩ := Prod.mk.inj read
    have dropped : (first :: after).dropWhile isDigit = after.dropWhile isDigit :=
      List.dropWhile_cons_of_pos digit
    refine ⟨after.takeWhile isDigit, ?_, allNumeric_digits after, fun left more => ?_⟩
    · rw [dropped, List.takeWhile_append_dropWhile]
    · obtain ⟨taken, dropped⟩ := span_append left more
      rw [List.cons_append] at taken dropped
      rw [wholeDigits, if_neg some, taken, dropped]

theorem steady_readParts {first : UInt8} {digits : Bytes} :
    Steady true (readParts positive first digits) (readParts positive first digits)
      fun _ => AllNumeric := by
  refine .of_append fun {bytes number rest} done => ?_
  cases bytes with
  | nil =>
    have nothing : rest = [] := by
      simp only [readParts] at done
      split at done
      · obtain ⟨front, split, -⟩ := (steady_finish ..).taken done
        exact (List.nil_eq_append_iff.mp split).2
      · exact (readNumber_whole_eq_ok done).1.symm
    exact ⟨[], nothing.symm, nofun, fun left => absurd nothing (left rfl)⟩
  | cons byte bytes =>
    simp only [readParts] at done
    split at done
    · contradiction
    · next apart =>
      split at done
      · next point =>
        obtain ⟨front, rfl, numeric, -⟩ := steady_readFraction.taken done
        have starts : startsPart byte = true := point ▸ rfl
        refine ⟨byte :: front, rfl, numeric.cons (isNumeric_of_startsPart starts), fun left more => ?_⟩
        simp only [List.cons_append, readParts, if_neg apart, if_pos point]
        exact steady_readFraction.append done left more
      · next notPoint =>
        split at done
        · next goesOn =>
          obtain ⟨front, split, numeric, -⟩ := steady_readScale.taken done
          refine ⟨front, split, numeric, fun left more => ?_⟩
          simp only [List.cons_append, readParts, if_neg apart, if_neg notPoint, if_pos goesOn]
          exact steady_readScale.append done left more
        · next ends =>
          obtain ⟨rfl, again⟩ := readNumber_whole_eq_ok done
          refine ⟨[], rfl, nofun, fun left more => ?_⟩
          simp only [List.cons_append, readParts, if_neg apart, if_neg notPoint, if_neg ends]
          exact again _

theorem steady_readNumber (positive : Bool) : Steady true (readNumber positive) (readNumber positive)
    fun _ => IsNumber := by
  refine .of_append fun {bytes number rest} done => ?_
  cases bytes with
  | nil => contradiction
  | cons first after =>
    by_cases digit : isDigit first = true
    · obtain ⟨digits, middle, read⟩ : ∃ digits middle, wholeDigits first after = (digits, middle) :=
        ⟨_, _, rfl⟩
      rw [readNumber_cons digit, read] at done
      obtain ⟨front, rfl, numeric, -⟩ := steady_readParts.taken done
      obtain ⟨more, rfl, digitsNumeric, again⟩ := wholeDigits_append digit read
      refine ⟨first :: (more ++ front), by simp, ⟨first, _, rfl, digit, digitsNumeric.append numeric⟩,
        fun left more => ?_⟩
      rw [List.cons_append, readNumber_cons digit,
        again (List.append_ne_nil_of_right_ne_nil front (left rfl))]
      exact steady_readParts.append done left more
    · simp [readNumber, digit, failAt] at done

def skipUnsigned (bytes : Bytes) : Except Fault Bytes :=
  match bytes with
  | [] => failAt .invalidNumber []
  | digit :: more => if isDigit digit then .ok (more.dropWhile isDigit) else failAt .invalidNumber more

theorem skipExponent_cons (byte : UInt8) (rest : Bytes) : skipNumber.skipExponent (byte :: rest) =
    if byte = 0x65 ∨ byte = 0x45 then skipUnsigned (exponentSign rest).2 else .ok (byte :: rest) := by
  have unsigned : (match rest with
      | 0x2B :: more => more
      | 0x2D :: more => more
      | _ => rest) = (exponentSign rest).2 := by
    unfold exponentSign
    split <;> rfl
  rw [← unsigned]
  rfl

theorem passing_skipUnsigned : Passing true skipUnsigned skipUnsigned AllNumeric := by
  refine .of_append fun {bytes rest} done => ?_
  rw [skipUnsigned.eq_def] at done
  cases bytes with
  | nil => contradiction
  | cons byte bytes =>
    dsimp only at done
    split at done
    · next digit =>
      obtain rfl := Except.ok.inj done
      refine ⟨byte :: bytes.takeWhile isDigit, by simp,
        (allNumeric_digits bytes).cons (isNumeric_of_isDigit digit), fun left more => ?_⟩
      rw [List.cons_append, skipUnsigned, if_pos digit, (span_append (left rfl) more).2]
    · contradiction

theorem passing_skipExponent :
    Passing true skipNumber.skipExponent skipNumber.skipExponent AllNumeric := by
  refine .of_append fun {bytes rest} done => ?_
  cases bytes with
  | nil =>
    obtain rfl := Except.ok.inj done
    exact ⟨[], rfl, nofun, fun left => absurd rfl (left rfl)⟩
  | cons byte bytes =>
    rw [skipExponent_cons] at done
    split at done
    · next letter =>
      obtain ⟨up, unsigned, signed⟩ : ∃ up unsigned, exponentSign bytes = (up, unsigned) :=
        ⟨_, _, rfl⟩
      rw [signed] at done
      obtain ⟨front, split, numeric, -⟩ := passing_skipUnsigned.passed done
      have some : unsigned ≠ [] := by
        rintro rfl
        contradiction
      obtain ⟨sign, rfl, numericSign, again⟩ := exponentSign_append signed some
      have starts : startsPart byte = true := by
        rcases letter with rfl | rfl <;> rfl
      have split : unsigned = front ++ rest := split
      refine ⟨byte :: (sign ++ front), by simp [split],
        (numericSign.append numeric).cons (isNumeric_of_startsPart starts), fun left more => ?_⟩
      rw [List.cons_append, skipExponent_cons, if_pos letter, again]
      exact passing_skipUnsigned.append done left more
    · next other =>
      obtain rfl := Except.ok.inj done
      refine ⟨[], rfl, nofun, fun left more => ?_⟩
      rw [List.cons_append, skipExponent_cons, if_neg other]

/-- Pass over what follows the digits before the point. -/
def skipParts (first : UInt8) (rest : Bytes) : Except Fault Bytes :=
  match rest with
  | [] => .ok []
  | byte :: more =>
    if first = 0x30 ∧ isDigit byte then failAfter .invalidNumber rest
    else if byte = 0x2E then
      if (more.takeWhile isDigit).isEmpty then failAfter .invalidNumber more
      else skipNumber.skipExponent (more.dropWhile isDigit)
    else skipNumber.skipExponent rest

theorem skipNumber_cons {first : UInt8} (digit : isDigit first = true) (after : Bytes) :
    skipNumber (first :: after) = skipParts first (wholeDigits first after).2 := by
  rw [skipNumber, digit, wholeDigits]
  by_cases zero : first = 0x30
  · simp only [if_pos zero]
    rfl
  · simp only [if_neg zero]
    rfl

theorem passing_skipParts {first : UInt8} :
    Passing true (skipParts first) (skipParts first) AllNumeric := by
  refine .of_append fun {bytes rest} done => ?_
  cases bytes with
  | nil =>
    obtain rfl := Except.ok.inj done
    exact ⟨[], rfl, nofun, fun left => absurd rfl (left rfl)⟩
  | cons byte bytes =>
    simp only [skipParts] at done
    split at done
    · contradiction
    · next apart =>
      split at done
      · next point =>
        split at done
        · contradiction
        · next some =>
          obtain ⟨front, split, numeric, -⟩ := passing_skipExponent.passed done
          have starts : startsPart byte = true := point ▸ rfl
          refine ⟨byte :: (bytes.takeWhile isDigit ++ front), ?_,
            ((allNumeric_digits bytes).append numeric).cons (isNumeric_of_startsPart starts),
            fun left more => ?_⟩
          · rw [List.cons_append, List.append_assoc, ← split, List.takeWhile_append_dropWhile]
          · have stops : bytes.dropWhile isDigit ≠ [] :=
              split ▸ List.append_ne_nil_of_right_ne_nil front (left rfl)
            obtain ⟨taken, dropped⟩ := span_append stops more
            simp only [List.cons_append, skipParts, if_neg apart, if_pos point, taken, dropped,
              if_neg some]
            exact passing_skipExponent.append done left more
      · next notPoint =>
        obtain ⟨front, split, numeric, -⟩ := passing_skipExponent.passed done
        refine ⟨front, split, numeric, fun left more => ?_⟩
        simp only [List.cons_append, skipParts, if_neg apart, if_neg notPoint]
        exact passing_skipExponent.append done left more

theorem passing_skipNumber : Passing true skipNumber skipNumber IsNumber := by
  refine .of_append fun {bytes rest} done => ?_
  cases bytes with
  | nil => contradiction
  | cons first after =>
    by_cases digit : isDigit first = true
    · obtain ⟨digits, middle, read⟩ : ∃ digits middle, wholeDigits first after = (digits, middle) :=
        ⟨_, _, rfl⟩
      rw [skipNumber_cons digit, read] at done
      obtain ⟨front, rfl, numeric, -⟩ := passing_skipParts.passed done
      obtain ⟨more, rfl, digitsNumeric, again⟩ := wholeDigits_append digit read
      refine ⟨first :: (more ++ front), by simp, ⟨first, _, rfl, digit, digitsNumeric.append numeric⟩,
        fun left more => ?_⟩
      rw [List.cons_append, skipNumber_cons digit,
        again (List.append_ne_nil_of_right_ne_nil front (left rfl))]
      exact passing_skipParts.append done left more
    · simp [skipNumber, digit, failAt] at done

end FramedTasks.Json
