import FramedTasks.Proofs.Json.Token
import FramedTasks.Proofs.Record.Members

/-! # The JSON texts of a value

A value has many texts: blanks stand around its parts, and a character of a text stands for itself
or is escaped in one of several ways. `Spells` relates a part of a value to its texts. Lists and
objects come apart into their items and members, which are spelled together with the bracket that
closes them. Integers have 64 bits and no other spelling than their decimal digits.
-/

namespace FramedTasks.Json

open FramedTasks.Utf8 (encodeChars)

/-- The spellings of a character inside a text: itself, an escape of one letter, or one by number,
which takes two units for a character beyond the first plane. -/
inductive SpellsChar : Char → Bytes → Prop
  | plain {c : Char} : c ≠ '"' → c ≠ '\\' → 0x20 ≤ c.toNat → SpellsChar c (String.utf8EncodeChar c)
  | letter {letter denoted : UInt8} :
      escaped? letter = some denoted → SpellsChar (Char.ofNat denoted.toNat) [0x5C, letter]
  | unit {a b c d : UInt8} {unit : Nat} :
      hexNumber? a b c d = some unit → isLeadSurrogate unit = false →
      isTrailSurrogate unit = false → SpellsChar (Char.ofNat unit) [0x5C, 0x75, a, b, c, d]
  | pair {a b c d e f g h : UInt8} {lead trail : Nat} :
      hexNumber? a b c d = some lead → hexNumber? e f g h = some trail →
      isLeadSurrogate lead = true → isTrailSurrogate trail = true →
      SpellsChar (Char.ofNat (pairedCodePoint lead trail))
        [0x5C, 0x75, a, b, c, d, 0x5C, 0x75, e, f, g, h]

/-- The spellings of a text between its quotes. -/
inductive SpellsText : List Char → Bytes → Prop
  | nil : SpellsText [] []
  | cons {c : Char} {chars : List Char} {bytes more : Bytes} :
      SpellsChar c bytes → SpellsText chars more → SpellsText (c :: chars) (bytes ++ more)

/-- A stretch of blanks. -/
def Blank (bytes : Bytes) : Prop := ∀ byte ∈ bytes, isBlank byte = true

/-- What stands before an item or a key: blanks, with a comma among them unless it is the first. -/
inductive Separates : Bool → Bytes → Prop
  | first {before : Bytes} : Blank before → Separates true before
  | next {before after : Bytes} : Blank before → Blank after →
      Separates false (before ++ 0x2C :: after)

/-- A part of a value: a whole one, or the items or members from one of them on, which is the first
or a later one. -/
inductive Part where
  | whole (value : Value)
  | listFrom (first : Bool) (items : List Value)
  | objectFrom (first : Bool) (members : List (String × Value))

/-- The spellings of a part of a value. A value starts with its first byte and ends with its last;
blanks stand before the items, the members, the colons and the closing brackets. -/
inductive Spells : Part → Bytes → Prop
  | nullWord : Spells (.whole .null) (0x6E :: nullTail)
  | trueWord : Spells (.whole (.bool true)) (0x74 :: trueTail)
  | falseWord : Spells (.whole (.bool false)) (0x66 :: falseTail)
  | integer {value : Int} :
      -0x8000000000000000 ≤ value → value < 0x10000000000000000 →
      Spells (.whole (.integer value)) (encodeChars (Decimal.intChars value))
  | text {text : String} {bytes : Bytes} :
      SpellsText text.toList bytes → Spells (.whole (.text text)) (0x22 :: (bytes ++ [0x22]))
  | list {items : List Value} {bytes : Bytes} :
      Spells (.listFrom true items) bytes → Spells (.whole (.list items)) (0x5B :: bytes)
  | object {members : List (String × Value)} {bytes : Bytes} :
      Spells (.objectFrom true members) bytes → Spells (.whole (.object members)) (0x7B :: bytes)
  | noItem {first : Bool} {blanks : Bytes} :
      Blank blanks → Spells (.listFrom first []) (blanks ++ [0x5D])
  | item {first : Bool} {item : Value} {items : List Value} {separator bytes more : Bytes} :
      Separates first separator → Spells (.whole item) bytes → Spells (.listFrom false items) more →
      Spells (.listFrom first (item :: items)) (separator ++ (bytes ++ more))
  | noMember {first : Bool} {blanks : Bytes} :
      Blank blanks → Spells (.objectFrom first []) (blanks ++ [0x7D])
  | member {first : Bool} {key : String} {value : Value} {members : List (String × Value)}
      {separator name before after bytes more : Bytes} :
      Separates first separator → SpellsText key.toList name → Blank before → Blank after →
      Spells (.whole value) bytes → Spells (.objectFrom false members) more →
      Spells (.objectFrom first ((key, value) :: members))
        (separator ++ 0x22 :: (name ++ 0x22 :: (before ++ 0x3A :: (after ++ (bytes ++ more)))))

/-- The payloads of some members: an object of them with blanks around it. -/
inductive SpellsPayload (members : List (String × Value)) : Bytes → Prop
  | object {before bytes after : Bytes} :
      Blank before → Spells (.whole (.object members)) bytes → Blank after →
      SpellsPayload members (before ++ (bytes ++ after))

section Blank

variable {blanks rest : Bytes}

theorem skipBlank_append (blank : Blank blanks) : skipBlank (blanks ++ rest) = skipBlank rest :=
  List.dropWhile_append_of_pos blank

theorem skipBlank_append_cons (blank : Blank blanks) {byte : UInt8} (solid : isBlank byte = false) :
    skipBlank (blanks ++ byte :: rest) = byte :: rest := by
  rw [skipBlank_append blank, skipBlank_cons solid]

/-- A blank ends a number. -/
theorem endsNumber_of_isBlank {byte : UInt8} (blank : isBlank byte = true) : EndsNumber byte := by
  simp only [isBlank, Bool.or_eq_true, beq_iff_eq] at blank
  rcases blank with ((rfl | rfl) | rfl) | rfl <;> exact ⟨rfl, rfl⟩

/-- If a byte ends a number, so does what comes first when blanks stand before the byte. -/
theorem exists_endsNumber (blank : Blank blanks) {byte : UInt8} (ends : EndsNumber byte) :
    ∃ stop tail, blanks ++ byte :: rest = stop :: tail ∧ EndsNumber stop := by
  cases blanks with
  | nil => exact ⟨byte, rest, rfl, ends⟩
  | cons first blanks =>
    exact ⟨first, _, rfl, endsNumber_of_isBlank (blank first (List.mem_cons_self ..))⟩

end Blank

theorem endsNumber_comma : EndsNumber 0x2C := ⟨rfl, rfl⟩
theorem endsNumber_bracket : EndsNumber 0x5D := ⟨rfl, rfl⟩
theorem endsNumber_brace : EndsNumber 0x7D := ⟨rfl, rfl⟩

/-- What follows an item of a list ends a number. -/
theorem Spells.ends_item {items : List Value} {bytes : Bytes}
    (spells : Spells (.listFrom false items) bytes) (rest : Bytes) :
    ∃ stop tail, bytes ++ rest = stop :: tail ∧ EndsNumber stop := by
  cases spells with
  | noItem blank =>
    rw [List.append_assoc]
    exact exists_endsNumber blank endsNumber_bracket
  | item separates _ _ =>
    cases separates with
    | next before after =>
      rw [List.append_assoc, List.append_assoc, List.cons_append]
      exact exists_endsNumber before endsNumber_comma

/-- What follows a member of an object ends a number. -/
theorem Spells.ends_member {members : List (String × Value)} {bytes : Bytes}
    (spells : Spells (.objectFrom false members) bytes) (rest : Bytes) :
    ∃ stop tail, bytes ++ rest = stop :: tail ∧ EndsNumber stop := by
  cases spells with
  | noMember blank =>
    rw [List.append_assoc]
    exact exists_endsNumber blank endsNumber_brace
  | member separates _ _ _ _ _ =>
    cases separates with
    | next before after =>
      rw [List.append_assoc, List.append_assoc, List.cons_append]
      exact exists_endsNumber before endsNumber_comma

/-- Whether a value of the kind of the given one may start with a byte. -/
def Value.startsWith : Value → UInt8 → Bool
  | .null, byte => byte == 0x6E
  | .bool true, byte => byte == 0x74
  | .bool false, byte => byte == 0x66
  | .integer _, byte => byte == 0x2D || isDigit byte
  | .number _, _ => false
  | .text _, byte => byte == 0x22
  | .list _, byte => byte == 0x5B
  | .object _, byte => byte == 0x7B

theorem intChars_startsWith (value : Int) : ∃ byte rest,
    encodeChars (Decimal.intChars value) = byte :: rest ∧ (byte == 0x2D || isDigit byte) = true := by
  rw [Decimal.intChars]
  split
  · exact ⟨0x2D, _, rfl, rfl⟩
  · obtain ⟨decimal, -, first, more, written, -⟩ := numeral_natChars value.natAbs
    refine ⟨first, more, written, ?_⟩
    rw [decimal first (written ▸ List.mem_cons_self ..), Bool.or_true]

/-- The first byte of a value tells its kind. -/
theorem Spells.startsWith {value : Value} {bytes : Bytes} (spells : Spells (.whole value) bytes) :
    ∃ byte rest, bytes = byte :: rest ∧ value.startsWith byte = true := by
  cases spells with
  | integer _ _ => exact intChars_startsWith _
  | nullWord | trueWord | falseWord | text _ | list _ | object _ => exact ⟨_, _, rfl, rfl⟩

theorem Value.startsWith_solid {value : Value} {byte : UInt8}
    (starts : value.startsWith byte = true) : isBlank byte = false ∧ byte ≠ 0x5D := by
  rcases value with _ | (_ | _) | _ | _ | _ | _ | _
  case integer =>
    rcases Bool.or_eq_true_iff.mp starts with minus | digit
    · obtain rfl := beq_iff_eq.mp minus
      decide
    · refine ⟨not_isBlank_of_isDigit digit, ?_⟩
      rintro rfl
      contradiction
  case number => contradiction
  all_goals
    obtain rfl := beq_iff_eq.mp starts
    decide

end FramedTasks.Json
