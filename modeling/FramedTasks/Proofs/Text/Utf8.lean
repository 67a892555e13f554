import FramedTasks.Text.Utf8

/-! # Decoding undoes encoding

The bytes of a character take a reader from the start of a character to the start of the next one,
with that character as the only piece (`pieces_encodeChar`). The pieces of an encoded text are
therefore its characters, and decoding gives the text back.
-/

namespace FramedTasks.Utf8

theorem start_one {code : Nat} (ascii : code < 0x80) :
    State.start (UInt8.ofNat code) = ([.char (Char.ofNat code)], .ready) := by
  have small : UInt8.ofNat code < 0x80 := by
    rw [UInt8.lt_iff_toNat_lt, UInt8.toNat_ofNat']
    simp only [UInt8.reduceToNat]
    omega
  have exact : (UInt8.ofNat code).toNat = code := by
    rw [UInt8.toNat_ofNat']
    omega
  rw [State.start, if_pos small, exact]

theorem start_two {high : Nat} (most : high < 32) (least : 2 ≤ high) :
    State.start (UInt8.ofNat (high + 0xC0)) = ([], .inside 1 high 1 0x80 0xBF) := by
  revert high
  decide

/-- The second byte keeps out overlong forms below and surrogates above. -/
theorem start_three {high : Nat} (most : high < 16) :
    State.start (UInt8.ofNat (high + 0xE0)) =
      ([], .inside 1 high 2 (if high = 0 then 0xA0 else 0x80) (if high = 13 then 0x9F else 0xBF)) := by
  revert high
  decide

/-- The second byte keeps out overlong forms below and what is no code point above. -/
theorem start_four {high : Nat} (most : high < 5) :
    State.start (UInt8.ofNat (high + 0xF0)) =
      ([], .inside 1 high 3 (if high = 0 then 0x90 else 0x80) (if high = 4 then 0x8F else 0xBF)) := by
  revert high
  decide

theorem piecesFrom_start {byte : UInt8} {state : State} (start : State.start byte = ([], state))
    (rest : Bytes) : piecesFrom .ready (byte :: rest) = piecesFrom state rest := by
  rw [piecesFrom, State.feed, start]
  rfl

section Inside

variable {width value need low : Nat} {lowest highest : UInt8}

/-- A continuation byte within its bounds adds six bits. -/
theorem piecesFrom_inside (small : low < 64) (above : lowest.toNat ≤ low + 0x80)
    (below : low + 0x80 ≤ highest.toNat) (rest : Bytes) :
    piecesFrom (.inside width value need lowest highest) (UInt8.ofNat (low + 0x80) :: rest) =
      if need ≤ 1 then .char (Char.ofNat (value * 64 + low)) :: piecesFrom .ready rest
      else piecesFrom (.inside (width + 1) (value * 64 + low) (need - 1) 0x80 0xBF) rest := by
  have exact : (UInt8.ofNat (low + 0x80)).toNat = low + 0x80 := by
    rw [UInt8.toNat_ofNat']
    omega
  have within : lowest ≤ UInt8.ofNat (low + 0x80) ∧ UInt8.ofNat (low + 0x80) ≤ highest := by
    rw [UInt8.le_iff_toNat_le, UInt8.le_iff_toNat_le, exact]
    exact ⟨above, below⟩
  have payload : (low + 0x80) % 64 = low := by omega
  by_cases last : need ≤ 1
  · simp only [piecesFrom, State.feed, if_pos within, exact, payload, if_pos last, List.singleton_append]
  · simp only [piecesFrom, State.feed, if_pos within, exact, payload, if_neg last, List.nil_append]

end Inside

/-- The bytes of a character make one piece. -/
theorem pieces_encodeChar (c : Char) (rest : Bytes) :
    piecesFrom .ready (String.utf8EncodeChar c ++ rest) = .char c :: piecesFrom .ready rest := by
  have same : Char.ofNat c.val.toNat = c := Char.ofNat_toNat c
  have valid : c.val.toNat < 0xD800 ∨ 0xDFFF < c.val.toNat ∧ c.val.toNat < 0x110000 := c.valid
  unfold String.utf8EncodeChar
  generalize c.val.toNat = code at same valid
  simp only
  split
  · next one =>
    simp only [List.cons_append, List.nil_append, piecesFrom, State.feed, start_one (show code < 0x80 by omega), same]
  split
  · next notOne two =>
    have low : code % 64 < 64 := by omega
    have high : code / 64 % 32 = code / 64 := by omega
    have whole : code / 64 * 64 + code % 64 = code := by omega
    rw [high, List.cons_append, piecesFrom_start (start_two (by omega) (by omega)), List.cons_append,
      piecesFrom_inside low (by simp) (by simp; omega), if_pos (by omega), whole, same]
    rfl
  split
  · next notOne notTwo three =>
    have high : code / 4096 % 16 = code / 4096 := by omega
    have middle : code / 64 % 64 < 64 := by omega
    have low : code % 64 < 64 := by omega
    have whole : (code / 4096 * 64 + code / 64 % 64) * 64 + code % 64 = code := by omega
    rw [high, List.cons_append, piecesFrom_start (start_three (by omega)), List.cons_append,
      piecesFrom_inside middle ?_ ?_, if_neg (by omega), List.cons_append,
      piecesFrom_inside low (by simp) (by simp; omega), if_pos (by omega), whole, same]
    · rfl
    · -- no overlong form
      split
      · simp
        omega
      · simp
    · -- no surrogate
      split
      · simp
        omega
      · simp
        omega
  · next notOne notTwo notThree =>
    have high : code / 262144 % 8 = code / 262144 := by omega
    have upper : code / 4096 % 64 < 64 := by omega
    have middle : code / 64 % 64 < 64 := by omega
    have low : code % 64 < 64 := by omega
    have whole : ((code / 262144 * 64 + code / 4096 % 64) * 64 + code / 64 % 64) * 64 + code % 64 =
        code := by omega
    rw [high, List.cons_append, piecesFrom_start (start_four (by omega)), List.cons_append,
      piecesFrom_inside upper ?_ ?_, if_neg (by omega), List.cons_append,
      piecesFrom_inside middle (by simp) (by simp; omega), if_neg (by omega), List.cons_append,
      piecesFrom_inside low (by simp) (by simp; omega), if_pos (by omega), whole, same]
    · rfl
    · -- no overlong form
      split
      · simp
        omega
      · simp
    · -- no number above the last code point
      split
      · simp
        omega
      · simp
        omega

theorem encodeChars_append (first second : List Char) :
    encodeChars (first ++ second) = encodeChars first ++ encodeChars second :=
  List.flatMap_append

theorem pieces_encodeChars (chars : List Char) : pieces (encodeChars chars) = chars.map .char := by
  unfold pieces
  induction chars with
  | nil => rfl
  | cons c rest ih =>
    rw [encodeChars, List.flatMap_cons, pieces_encodeChar, List.map_cons]
    exact congrArg _ ih

theorem collect_char (offset : Nat) (acc chars : List Char) :
    collect offset acc (chars.map .char) = .ok (acc.reverse ++ chars) := by
  induction chars generalizing offset acc with
  | nil => simp [collect]
  | cons c rest ih =>
    rw [List.map_cons, collect, ih, List.reverse_cons, List.append_assoc, List.singleton_append]

/-- An encoded text decodes to itself. -/
theorem decode_encode (text : String) : decode (encode text) = .ok text := by
  rw [decode, encode, pieces_encodeChars, collect_char]
  exact congrArg Except.ok String.ofList_toList

theorem decodeLenient_encode (text : String) : decodeLenient (encode text) = text := by
  have shown : (text.toList.map Piece.char).map Piece.shown = text.toList := by
    rw [List.map_map]
    exact List.map_id _
  rw [decodeLenient, encode, pieces_encodeChars, shown, String.ofList_toList]

end FramedTasks.Utf8
