import FramedTasks.Proofs.Json.Grammar

/-! # The compact text is a spelling

Every value without a fraction, its integers of at most 64 bits, is spelled by its compact text. So
what a writer produces is one spelling among those that a reader takes.
-/

namespace FramedTasks.Json

open FramedTasks.Utf8 (encodeChars encodeChars_append)

section Text

private theorem hexNumber?_code : ∀ code < 0x20, hexNumber? 0x30 0x30
    (UInt8.ofNat (Nat.digitChar (code / 16)).toNat) (UInt8.ofNat (Nat.digitChar (code % 16)).toNat) =
      some code := by decide

private theorem encodeChar_hexDigit : ∀ digit < 16, String.utf8EncodeChar (Nat.digitChar digit) =
    [UInt8.ofNat (Nat.digitChar digit).toNat] := by decide

/-- An escape of one letter spells the character of the byte that it denotes. -/
theorem spellsChar_letter {c : Char} {letter denoted : UInt8} (known : escaped? letter = some denoted)
    (code : denoted.toNat = c.toNat) : SpellsChar c [0x5C, letter] := by
  have spelled := SpellsChar.letter known
  rwa [code, Char.ofNat_toNat] at spelled

/-- What a writer makes of a character spells it. -/
theorem spellsChar_escape (c : Char) : SpellsChar c (encodeChars (escape c)) := by
  unfold escape
  split
  · next quote => exact @spellsChar_letter c 0x22 0x22 rfl (quote ▸ rfl)
  split
  · next backslash => exact @spellsChar_letter c 0x5C 0x5C rfl (backslash ▸ rfl)
  split
  · next control => exact @spellsChar_letter c 0x62 0x08 rfl control.symm
  split
  · next control => exact @spellsChar_letter c 0x74 0x09 rfl control.symm
  split
  · next control => exact @spellsChar_letter c 0x6E 0x0A rfl control.symm
  split
  · next control => exact @spellsChar_letter c 0x66 0x0C rfl control.symm
  split
  · next control => exact @spellsChar_letter c 0x72 0x0D rfl control.symm
  split
  · next control =>
    have high := encodeChar_hexDigit (c.toNat / 16) (by omega)
    have low := encodeChar_hexDigit (c.toNat % 16) (by omega)
    have written : encodeChars ['\\', 'u', '0', '0', Nat.digitChar (c.toNat / 16),
        Nat.digitChar (c.toNat % 16)] = [0x5C, 0x75, 0x30, 0x30,
          UInt8.ofNat (Nat.digitChar (c.toNat / 16)).toNat,
          UInt8.ofNat (Nat.digitChar (c.toNat % 16)).toNat] := by
      simp only [encodeChars, List.flatMap_cons, List.flatMap_nil, high, low]
      rfl
    obtain ⟨notLead, notTrail⟩ := @not_isSurrogate_of_lt c.toNat (by omega)
    have spelled := SpellsChar.unit (hexNumber?_code c.toNat control) notLead notTrail
    rwa [Char.ofNat_toNat, ← written] at spelled
  · next notQuote notBackslash _ _ _ _ _ notControl =>
    rw [encodeChars, List.flatMap_singleton]
    exact .plain notQuote notBackslash (Nat.not_lt.mp notControl)

theorem spellsText_escape (chars : List Char) :
    SpellsText chars (encodeChars (chars.flatMap escape)) := by
  induction chars with
  | nil => exact .nil
  | cons c chars ih =>
    rw [List.flatMap_cons, encodeChars_append]
    exact .cons (spellsChar_escape c) ih

end Text

/-- A quoted text is a quote, the escapes of its characters, and a quote. -/
theorem encodeChars_quoteChars (text : String) (rest : Bytes) :
    encodeChars (quoteChars text) ++ rest =
      0x22 :: (encodeChars (text.toList.flatMap escape) ++ 0x22 :: rest) := by
  rw [quoteChars, encodeChars_append, List.append_assoc]
  rfl

mutual

/-- Whether a value holds no number but integers of at most 64 bits. -/
def Value.isExact : Value → Bool
  | .null | .bool _ | .text _ => true
  | .integer value => -0x8000000000000000 ≤ value && value < 0x10000000000000000
  | .number _ => false
  | .list items => areExact items
  | .object members => holdExact members

/-- Whether the items of a list hold no number but integers of at most 64 bits. -/
def areExact : List Value → Bool
  | [] => true
  | item :: rest => item.isExact && areExact rest

/-- Whether the members of an object hold no number but integers of at most 64 bits. -/
def holdExact : List (String × Value) → Bool
  | [] => true
  | (_, value) :: rest => value.isExact && holdExact rest

end

def comma (first : Bool) : Bytes := if first then [] else [0x2C]

theorem blank_nil : Blank [] := fun _ member => absurd member List.not_mem_nil

theorem separates_comma (first : Bool) : Separates first (comma first) := by
  cases first with
  | true => exact .first blank_nil
  | false => exact .next blank_nil blank_nil

/-- The written items of a list from one of them on, with the closing bracket. -/
def listBytes : Bool → List Value → Bytes
  | _, [] => [0x5D]
  | first, item :: rest => comma first ++ (encodeChars item.chars ++ listBytes false rest)

/-- The written members of an object from one of them on, with the closing brace. -/
def objectBytes : Bool → List (String × Value) → Bytes
  | _, [] => [0x7D]
  | first, (key, value) :: rest =>
    comma first ++ (encodeChars (quoteChars key) ++
      0x3A :: (encodeChars value.chars ++ objectBytes false rest))

theorem encodeChars_list (items : List Value) :
    encodeChars (Value.chars (.list items)) = 0x5B :: listBytes true items := by
  have inner : encodeChars (itemChars items ++ [']']) = listBytes true items := by
    induction items with
    | nil => rfl
    | cons item rest ih =>
      cases rest with
      | nil =>
        rw [itemChars, encodeChars_append, listBytes, listBytes]
        rfl
      | cons next rest =>
        have later : listBytes false (next :: rest) = 0x2C :: listBytes true (next :: rest) := rfl
        rw [itemChars, listBytes, later, ← ih, List.append_assoc, encodeChars_append]
        · rfl
        · exact List.cons_ne_nil _ _
  rw [Value.chars, ← inner]
  rfl

theorem encodeChars_object (members : List (String × Value)) :
    encodeChars (Value.chars (.object members)) = 0x7B :: objectBytes true members := by
  have colon (chars : List Char) : encodeChars (':' :: chars) = 0x3A :: encodeChars chars := rfl
  have between (chars : List Char) : encodeChars (',' :: chars) = 0x2C :: encodeChars chars := rfl
  have inner : encodeChars (memberChars members ++ ['}']) = objectBytes true members := by
    induction members with
    | nil => rfl
    | cons member rest ih =>
      obtain ⟨key, value⟩ := member
      cases rest with
      | nil =>
        simp only [memberChars, List.append_assoc, List.cons_append, encodeChars_append, colon,
          objectBytes]
        rfl
      | cons next rest =>
        have later : objectBytes false (next :: rest) = 0x2C :: objectBytes true (next :: rest) := rfl
        rw [memberChars, objectBytes, later, ← ih]
        · simp only [List.append_assoc, List.cons_append, encodeChars_append, colon, between]
          rfl
        · exact List.cons_ne_nil _ _
  rw [Value.chars, ← inner]
  rfl

mutual

/-- The compact text of a value spells it. -/
theorem spells_chars : (value : Value) → value.isExact = true →
    Spells (.whole value) (encodeChars value.chars)
  | .null, _ => .nullWord
  | .bool true, _ => .trueWord
  | .bool false, _ => .falseWord
  | .integer value, exact => by
    obtain ⟨least, most⟩ := Bool.and_eq_true_iff.mp exact
    exact .integer (of_decide_eq_true least) (of_decide_eq_true most)
  | .text text, _ => by
    have spelled := Spells.text (spellsText_escape text.toList)
    have written := encodeChars_quoteChars text []
    rw [List.append_nil] at written
    rwa [Value.chars, written]
  | .list items, exact => by
    rw [encodeChars_list]
    exact .list (spells_listBytes items true exact)
  | .object members, exact => by
    rw [encodeChars_object]
    exact .object (spells_objectBytes members true exact)

theorem spells_listBytes : (items : List Value) → (first : Bool) → areExact items = true →
    Spells (.listFrom first items) (listBytes first items)
  | [], _, _ => .noItem blank_nil
  | item :: items, first, exact => by
    obtain ⟨here, later⟩ := Bool.and_eq_true_iff.mp exact
    exact .item (separates_comma first) (spells_chars item here) (spells_listBytes items false later)

theorem spells_objectBytes : (members : List (String × Value)) → (first : Bool) →
    holdExact members = true → Spells (.objectFrom first members) (objectBytes first members)
  | [], _, _ => .noMember blank_nil
  | (key, value) :: members, first, exact => by
    obtain ⟨here, later⟩ := Bool.and_eq_true_iff.mp exact
    rw [objectBytes, encodeChars_quoteChars]
    exact .member (separates_comma first) (spellsText_escape key.toList) blank_nil blank_nil
      (spells_chars value here) (spells_objectBytes members false later)

end

/-- The compact text of an object is a payload of its members. -/
theorem spellsPayload_chars {members : List (String × Value)} (exact : holdExact members = true) :
    SpellsPayload members (encodeChars (Value.chars (.object members))) := by
  have spelled := SpellsPayload.object blank_nil (spells_chars (.object members) exact) blank_nil
  rwa [List.nil_append, List.append_nil] at spelled

end FramedTasks.Json
