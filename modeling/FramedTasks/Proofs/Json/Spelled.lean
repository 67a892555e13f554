import FramedTasks.Proofs.Json.Grammar

/-! # Every spelling of a value is read and skipped

A reader takes any spelling of a value to the value with its members in key order, and leaves the
bytes after it; passing over a value leaves the same bytes. Both are shown part by part, along the
spelling: readers return to the part that follows, while skipping keeps a list of the enclosures
that are still open.
-/

namespace FramedTasks.Json

open FramedTasks.Utf8 (encodeChars)

/-! ## Texts -/

section Text

variable {bytes rest reversed : Bytes} {c : Char} {chars : List Char} {text : String}

theorem escaped?_ascii {letter denoted : UInt8} (known : escaped? letter = some denoted) :
    letter ≠ 0x75 ∧ String.utf8EncodeChar (Char.ofNat denoted.toNat) = [denoted] := by
  constructor
  · rintro rfl
    contradiction
  · unfold escaped? at known
    split at known
    · next self =>
      obtain rfl := Option.some.inj known
      rcases self with rfl | rfl | rfl <;> decide
    split at known
    · obtain rfl := Option.some.inj known
      decide
    split at known
    · obtain rfl := Option.some.inj known
      decide
    split at known
    · obtain rfl := Option.some.inj known
      decide
    split at known
    · obtain rfl := Option.some.inj known
      decide
    split at known
    · obtain rfl := Option.some.inj known
      decide
    · contradiction

theorem readTextBytes_pair {a b c d e f g h : UInt8} {lead trail : Nat}
    (first : hexNumber? a b c d = some lead) (second : hexNumber? e f g h = some trail)
    (leads : isLeadSurrogate lead = true) (trails : isTrailSurrogate trail = true) :
    readTextBytes reversed
        (0x5C :: 0x75 :: a :: b :: c :: d :: 0x5C :: 0x75 :: e :: f :: g :: h :: rest) =
      readTextBytes (pushCodePoint (pairedCodePoint lead trail) reversed) rest := by
  have notTrail : isTrailSurrogate lead = false := by
    simp only [isLeadSurrogate, isTrailSurrogate, Bool.and_eq_true, decide_eq_true_eq,
      Bool.and_eq_false_imp, decide_eq_false_iff_not] at leads ⊢
    omega
  have notQuote : ¬ (0x5C : UInt8) = 0x22 := by decide
  rw [readTextBytes.eq_def]
  simp only [if_neg notQuote, if_true, first, notTrail, leads, second, trails, Bool.false_eq_true,
    if_false, ne_eq, not_true_eq_false]

/-- However a character is spelled, it is what is read. -/
theorem readTextBytes_spelled (spells : SpellsChar c bytes) : readTextBytes reversed (bytes ++ rest) =
    readTextBytes ((String.utf8EncodeChar c).reverse ++ reversed) rest := by
  cases spells with
  | plain notQuote notBackslash notControl =>
    exact readTextBytes_append (plain_encodeChar notQuote notBackslash notControl)
  | letter known =>
    obtain ⟨notUnit, ascii⟩ := escaped?_ascii known
    rw [ascii]
    exact readTextBytes_letter known notUnit
  | unit known notLead notTrail => exact readTextBytes_unit known notLead notTrail
  | pair first second leads trails => exact readTextBytes_pair first second leads trails

/-- A text is read from just after its opening quote, however it is spelled. -/
theorem readText_spelled (spells : SpellsText text.toList bytes) :
    readText (bytes ++ 0x22 :: rest) = .ok (text, rest) := by
  have read (chars : List Char) (bytes : Bytes) (spells : SpellsText chars bytes) (reversed : Bytes) :
      readTextBytes reversed (bytes ++ 0x22 :: rest) =
        .ok (reversed.reverse ++ encodeChars chars, rest) := by
    induction spells generalizing reversed with
    | nil =>
      rw [readTextBytes.eq_def]
      simp [encodeChars]
    | @cons c chars bytes more char _ ih =>
      rw [List.append_assoc, readTextBytes_spelled char, ih, List.reverse_append, List.reverse_reverse,
        List.append_assoc]
      rfl
  have decoded : Utf8.decode (encodeChars text.toList) = .ok text := Utf8.decode_encode text
  simp only [readText, read text.toList bytes spells [], List.reverse_nil, List.nil_append, bind,
    Except.bind, decoded]

theorem skipText_append (plain : ∀ byte ∈ bytes, Plain byte) :
    skipText (bytes ++ rest) = skipText rest := by
  induction bytes with
  | nil => rfl
  | cons byte bytes ih =>
    obtain ⟨notQuote, notBackslash, notControl⟩ := plain byte (List.mem_cons_self ..)
    rw [List.cons_append, skipText.eq_def]
    simp only [if_neg notQuote, if_neg notBackslash, if_neg notControl]
    exact ih fun other member => plain other (List.mem_cons_of_mem _ member)

theorem skipText_unit {a b c d : UInt8} {unit : Nat} (known : hexNumber? a b c d = some unit) :
    skipText (0x5C :: 0x75 :: a :: b :: c :: d :: rest) = skipText rest := by
  have notQuote : ¬ (0x5C : UInt8) = 0x22 := by decide
  rw [skipText.eq_def]
  simp only [if_neg notQuote, if_true, known, Option.isSome_some]

theorem skipText_spelledChar (spells : SpellsChar c bytes) :
    skipText (bytes ++ rest) = skipText rest := by
  cases spells with
  | plain notQuote notBackslash notControl =>
    exact skipText_append (plain_encodeChar notQuote notBackslash notControl)
  | letter known =>
    have notQuote : ¬ (0x5C : UInt8) = 0x22 := by decide
    rw [List.cons_append, List.singleton_append, skipText.eq_def]
    simp only [if_neg notQuote, if_true, if_neg (escaped?_ascii known).1, known, Option.isSome_some]
  | unit known _ _ => exact skipText_unit known
  | pair first second _ _ => exact (skipText_unit first).trans (skipText_unit second)

theorem skipText_spelled (spells : SpellsText chars bytes) :
    skipText (bytes ++ 0x22 :: rest) = .ok rest := by
  induction spells with
  | nil =>
    rw [List.nil_append, skipText.eq_def]
    exact if_pos rfl
  | cons char _ ih => rw [List.append_assoc, skipText_spelledChar char, ih]

end Text

/-! ## Numbers -/

theorem EndsNumber.skipExponent {stop : UInt8} (ends : EndsNumber stop) (rest : Bytes) :
    skipNumber.skipExponent (stop :: rest) = .ok (stop :: rest) := by
  obtain ⟨-, noPart⟩ := ends
  simp only [startsPart, Bool.or_eq_false_iff, beq_eq_false_iff_ne] at noPart
  have noScale : ¬ (stop = 0x65 ∨ stop = 0x45) := not_or_intro noPart.1.2 noPart.2
  simp only [skipNumber.skipExponent, if_neg noScale]

/-- A number is passed over up to the byte that ends it. -/
theorem skipNumber_natChars (number : Nat) {stop : UInt8} (ends : EndsNumber stop) (rest : Bytes) :
    skipNumber (encodeChars (Decimal.natChars number) ++ stop :: rest) = .ok (stop :: rest) := by
  obtain ⟨decimal, -, first, more, written, lead⟩ := numeral_natChars number
  have noDigit := ends.1
  have noPoint : ¬ stop = 0x2E := by
    rintro rfl
    exact absurd ends.2 (by decide)
  have starts : (!isDigit first) = false := by
    rw [Bool.not_eq_false', decimal first (written ▸ List.mem_cons_self ..)]
  rw [written, List.cons_append, skipNumber]
  simp only [starts, Bool.false_eq_true, if_false]
  by_cases zero : first = 0x30
  · obtain ⟨-, rfl⟩ := lead zero
    simp only [if_pos zero, List.nil_append, noDigit, Bool.false_eq_true, and_false, if_false,
      if_neg noPoint, ends.skipExponent]
  · have ended : ¬ isDigit stop = true := by simp [noDigit]
    have left : (first :: (more ++ stop :: rest)).dropWhile isDigit = stop :: rest := by
      rw [← List.cons_append, List.dropWhile_append_of_pos (written ▸ decimal),
        List.dropWhile_cons_of_neg ended]
    simp only [zero, false_and, if_false, left, if_neg noPoint, ends.skipExponent]

/-- Bytes that are read as an integer up to a byte that ends a number, and passed over likewise. -/
inductive ReadsInteger (value : Int) : Bytes → Prop
  | negative {digits : Bytes} :
      (∀ stop rest, EndsNumber stop →
        readNumber false (digits ++ stop :: rest) = .ok (.integer value, stop :: rest) ∧
        skipNumber (digits ++ stop :: rest) = .ok (stop :: rest)) →
      ReadsInteger value (0x2D :: digits)
  | positive {first : UInt8} {digits : Bytes} :
      isDigit first = true →
      (∀ stop rest, EndsNumber stop →
        readNumber true (first :: (digits ++ stop :: rest)) = .ok (.integer value, stop :: rest) ∧
        skipNumber (first :: (digits ++ stop :: rest)) = .ok (stop :: rest)) →
      ReadsInteger value (first :: digits)

theorem readsInteger_intChars {value : Int} (least : -0x8000000000000000 ≤ value)
    (most : value < 0x10000000000000000) :
    ReadsInteger value (encodeChars (Decimal.intChars value)) := by
  have small : value.natAbs < 0x10000000000000000 := by omega
  rw [Decimal.intChars]
  split
  · next negative =>
    have inside : ¬ (value.natAbs = 0 ∨ 0x8000000000000000 < value.natAbs) := by omega
    have same : -(value.natAbs : Int) = value := by omega
    have minus : encodeChars ('-' :: Decimal.natChars value.natAbs) =
        0x2D :: encodeChars (Decimal.natChars value.natAbs) := rfl
    rw [minus]
    refine .negative fun stop rest ends => ⟨?_, skipNumber_natChars value.natAbs ends rest⟩
    rw [readNumber_natChars small false ends]
    simp only [readNumber.whole, Bool.false_eq_true, if_false, if_neg inside, same]
  · next positive =>
    have same : (value.natAbs : Int) = value := by omega
    obtain ⟨decimal, -, first, more, written, -⟩ := numeral_natChars value.natAbs
    rw [written]
    refine .positive (decimal first (written ▸ List.mem_cons_self ..)) fun stop rest ends => ?_
    rw [← List.cons_append, ← written]
    refine ⟨?_, skipNumber_natChars value.natAbs ends rest⟩
    rw [readNumber_natChars small true ends]
    simp only [readNumber.whole, if_true, same]

/-! ## Separators -/

section Separator

variable {first : Bool} {separator blanks : Bytes} (rest : Bytes)

theorem nextItem_separates (separates : Separates first separator) {byte : UInt8}
    (solid : isBlank byte = false ∧ byte ≠ 0x5D) :
    nextItem first (separator ++ byte :: rest) = .ok (true, byte :: rest) := by
  cases separates with
  | first blank =>
    simp only [nextItem, skipBlank_append_cons blank solid.1, if_neg solid.2, if_true]
  | next before after =>
    rw [List.append_assoc, List.cons_append, nextItem]
    simp only [skipBlank_append_cons before (show isBlank 0x2C = false from rfl),
      skipBlank_append_cons after solid.1, if_neg solid.2, Bool.false_eq_true, if_false, if_true]
    rfl

theorem nextItem_bracket (blank : Blank blanks) :
    nextItem first (blanks ++ 0x5D :: rest) = .ok (false, 0x5D :: rest) := by
  simp only [nextItem, skipBlank_append_cons blank (show isBlank 0x5D = false from rfl), if_true]

theorem nextKey_separates (separates : Separates first separator) :
    nextKey first (separator ++ 0x22 :: rest) = .ok (true, rest) := by
  cases separates with
  | first blank =>
    simp only [nextKey, skipBlank_append_cons blank (show isBlank 0x22 = false from rfl), if_true]
    rfl
  | next before after =>
    rw [List.append_assoc, List.cons_append, nextKey]
    simp only [skipBlank_append_cons before (show isBlank 0x2C = false from rfl),
      skipBlank_append_cons after (show isBlank 0x22 = false from rfl), Bool.false_eq_true, if_false,
      if_true]
    rfl

theorem nextKey_blank (blank : Blank blanks) :
    nextKey first (blanks ++ 0x7D :: rest) = .ok (false, 0x7D :: rest) := by
  simp only [nextKey, skipBlank_append_cons blank (show isBlank 0x7D = false from rfl), if_true]

theorem readColon_blank (blank : Blank blanks) :
    readColon (blanks ++ 0x3A :: rest) = .ok rest := by
  simp only [readColon, skipBlank_append_cons blank (show isBlank 0x3A = false from rfl), if_true]

/-- What follows a spelled member stands behind the members after it. -/
theorem member_append (separator name before after bytes more rest : Bytes) :
    separator ++ 0x22 :: (name ++ 0x22 :: (before ++ 0x3A :: (after ++ (bytes ++ more)))) ++ rest =
      separator ++
        0x22 :: (name ++ 0x22 :: (before ++ 0x3A :: (after ++ (bytes ++ (more ++ rest))))) := by
  simp only [List.append_assoc, List.cons_append]

end Separator

/-! ## Reading -/

section Value

variable {depth fuel : Nat} {bytes rest : Bytes}

theorem ne_of_isDigit {byte other : UInt8} (digit : isDigit byte = true)
    (letter : isDigit other = false) : ¬ byte = other := by
  rintro rfl
  rw [digit] at letter
  contradiction

theorem readValue_readsInteger {value : Int} (reads : ReadsInteger value bytes) {stop : UInt8}
    (ends : EndsNumber stop) : readValue depth (fuel + 1) (bytes ++ stop :: rest) =
      .ok (.integer value, stop :: rest) := by
  cases reads with
  | @negative digits reads =>
    obtain ⟨read, -⟩ := reads stop rest ends
    rw [List.cons_append, readValue, skipBlank_cons rfl]
    simp only [show ¬ (0x2D : UInt8) = 0x6E by decide, show ¬ (0x2D : UInt8) = 0x74 by decide,
      show ¬ (0x2D : UInt8) = 0x66 by decide, show ¬ (0x2D : UInt8) = 0x22 by decide, if_false,
      if_true, read, bind, Except.bind, readValue.ofNumber]
  | @positive first digits digit reads =>
    obtain ⟨read, -⟩ := reads stop rest ends
    rw [List.cons_append, readValue, skipBlank_cons (not_isBlank_of_isDigit digit)]
    simp only [ne_of_isDigit digit (show isDigit 0x6E = false from rfl),
      ne_of_isDigit digit (show isDigit 0x74 = false from rfl),
      ne_of_isDigit digit (show isDigit 0x66 = false from rfl),
      ne_of_isDigit digit (show isDigit 0x22 = false from rfl),
      ne_of_isDigit digit (show isDigit 0x2D = false from rfl), digit, if_false, if_true, read, bind,
      Except.bind, readValue.ofNumber]

theorem readValue_quote {text : String} (read : readText bytes = .ok (text, rest)) :
    readValue depth (fuel + 1) (0x22 :: bytes) = .ok (.text text, rest) := by
  rw [readValue, skipBlank_cons rfl]
  simp only [show ¬ (0x22 : UInt8) = 0x6E by decide, show ¬ (0x22 : UInt8) = 0x74 by decide,
    show ¬ (0x22 : UInt8) = 0x66 by decide, if_false, if_true, read, bind, Except.bind]

theorem readValue_bracket (deep : 1 < depth) {items : List Value}
    (read : readItems (depth - 1) true [] fuel bytes = .ok (items, rest)) :
    readValue depth (fuel + 1) (0x5B :: bytes) = .ok (.list items, rest) := by
  have inside : ¬ depth ≤ 1 := Nat.not_le.mpr deep
  rw [readValue, skipBlank_cons rfl]
  simp only [show ¬ (0x5B : UInt8) = 0x6E by decide, show ¬ (0x5B : UInt8) = 0x74 by decide,
    show ¬ (0x5B : UInt8) = 0x66 by decide, show ¬ (0x5B : UInt8) = 0x22 by decide,
    show ¬ (0x5B : UInt8) = 0x2D by decide, show isDigit 0x5B = false from rfl, Bool.false_eq_true,
    if_false, if_true, if_neg inside, read, bind, Except.bind]

theorem readValue_brace (deep : 1 < depth) {members : List (String × Value)}
    (read : readMembers (depth - 1) true [] fuel bytes = .ok (members, rest)) :
    readValue depth (fuel + 1) (0x7B :: bytes) = .ok (.object members, rest) := by
  have inside : ¬ depth ≤ 1 := Nat.not_le.mpr deep
  rw [readValue, skipBlank_cons rfl]
  simp only [show ¬ (0x7B : UInt8) = 0x6E by decide, show ¬ (0x7B : UInt8) = 0x74 by decide,
    show ¬ (0x7B : UInt8) = 0x66 by decide, show ¬ (0x7B : UInt8) = 0x22 by decide,
    show ¬ (0x7B : UInt8) = 0x2D by decide, show isDigit 0x7B = false from rfl,
    show ¬ (0x7B : UInt8) = 0x5B by decide, Bool.false_eq_true, if_false, if_true, if_neg inside,
    read, bind, Except.bind]

/-- Blanks before a value are passed over. -/
theorem readValue_blank {blanks : Bytes} (blank : Blank blanks) :
    readValue depth (fuel + 1) (blanks ++ bytes) = readValue depth (fuel + 1) bytes := by
  rw [readValue, readValue, skipBlank_append blank]

end Value

/-- A part is read from some bytes, however deep it stands and whatever follows. -/
def Part.IsRead : Part → Bytes → Prop
  | .whole value, bytes => ∀ depth fuel stop rest, value.nesting < depth →
      2 * bytes.length ≤ fuel + 1 → EndsNumber stop →
      readValue depth (fuel + 1) (bytes ++ stop :: rest) = .ok (value.ordered, stop :: rest)
  | .listFrom first items, bytes => ∀ depth fuel reversed rest, itemNesting items < depth →
      2 * bytes.length ≤ fuel →
      readItems depth first reversed (fuel + 1) (bytes ++ rest) =
        .ok (reversed.reverse ++ orderedItems items, rest)
  | .objectFrom first members, bytes => ∀ depth fuel before rest, memberNesting members < depth →
      2 * bytes.length ≤ fuel →
      readMembers depth first before (fuel + 1) (bytes ++ rest) =
        .ok ((orderedMembers members).foldl
          (fun members entry => Keyed.insert entry.1 entry.2 members) before, rest)

/-- Every spelling of a part is read. -/
theorem Spells.isRead {part : Part} {bytes : Bytes} (spells : Spells part bytes) :
    part.IsRead bytes := by
  induction spells with
  | nullWord | trueWord | falseWord => exact fun _ _ _ _ _ _ _ => rfl
  | integer least most =>
    exact fun _ _ _ _ _ _ ends => readValue_readsInteger (readsInteger_intChars least most) ends
  | text spelled =>
    intro depth fuel stop rest _ _ _
    rw [List.cons_append, List.append_assoc]
    exact readValue_quote (readText_spelled spelled)
  | @list items bytes _ read =>
    intro depth fuel stop rest shallow enough _
    simp only [Value.nesting, List.length_cons] at shallow enough
    obtain ⟨spare, rfl⟩ : ∃ spare, fuel = spare + 1 := ⟨fuel - 1, by omega⟩
    exact readValue_bracket (by omega) (read (depth - 1) spare [] (stop :: rest) (by omega) (by omega))
  | @object members bytes _ read =>
    intro depth fuel stop rest shallow enough _
    simp only [Value.nesting, List.length_cons] at shallow enough
    obtain ⟨spare, rfl⟩ : ∃ spare, fuel = spare + 1 := ⟨fuel - 1, by omega⟩
    exact readValue_brace (by omega) (read (depth - 1) spare [] (stop :: rest) (by omega) (by omega))
  | noItem blank =>
    intro depth fuel reversed rest _ _
    rw [List.append_assoc, List.singleton_append, readItems, nextItem_bracket rest blank]
    simp only [orderedItems, List.append_nil]
    rfl
  | @item first item items separator bytes more separates spelled others readItem readOthers =>
    intro depth fuel reversed rest shallow enough
    simp only [itemNesting, List.length_append] at shallow enough
    obtain ⟨byte, tail, begins, starts⟩ := spelled.startsWith
    obtain ⟨stop, after, follows, ends⟩ := others.ends_item rest
    rw [begins, List.length_cons] at enough
    obtain ⟨spare, rfl⟩ : ∃ spare, fuel = spare + 1 := ⟨fuel - 1, by omega⟩
    have read := readItem depth spare stop after (by omega)
      (by rw [begins, List.length_cons]; omega) ends
    have remaining := readOthers depth spare (item.ordered :: reversed) rest (by omega) (by omega)
    have next := nextItem_separates (tail ++ (more ++ rest)) separates (Value.startsWith_solid starts)
    rw [follows] at remaining next
    rw [begins] at read
    have split : separator ++ (bytes ++ more) ++ rest =
        separator ++ byte :: (tail ++ stop :: after) := by
      rw [begins, ← follows, List.append_assoc, List.append_assoc, List.cons_append]
    rw [split, readItems, next]
    simp only [bind, Except.bind]
    rw [← List.cons_append, read]
    simp only [remaining, orderedItems, List.reverse_cons, List.append_assoc, List.singleton_append]
  | noMember blank =>
    intro depth fuel before rest _ _
    rw [List.append_assoc, List.singleton_append, readMembers, nextKey_blank rest blank]
    rfl
  | @member first key value members separator name before after bytes more separates named colon gap
      spelled others readWhole readOthers =>
    intro depth fuel met rest shallow enough
    simp only [memberNesting, List.length_append, List.length_cons] at shallow enough
    obtain ⟨stop, tail, follows, ends⟩ := others.ends_member rest
    obtain ⟨spare, rfl⟩ : ∃ spare, fuel = spare + 1 := ⟨fuel - 1, by omega⟩
    have read := readWhole depth spare stop tail (by omega) (by omega) ends
    have remaining := readOthers depth spare (Keyed.insert key value.ordered met) rest (by omega) (by omega)
    rw [follows] at remaining
    rw [member_append, follows, readMembers, nextKey_separates _ separates]
    simp only [bind, Except.bind, readText_spelled named, readColon_blank _ colon]
    rw [readValue_blank gap, read]
    exact remaining

/-! ## Skipping -/

section Skip

variable {fuel : Nat} {outer : List Enclosure} {first : Bool} {separator blanks bytes rest : Bytes}

theorem skipInside_blank (blank : Blank blanks) :
    skipInside (fuel + 1) outer (blanks ++ bytes) = skipInside (fuel + 1) outer bytes := by
  rw [skipInside, skipInside, skipBlank_append blank]

theorem skipInside_readsInteger {value : Int} (reads : ReadsInteger value bytes) {stop : UInt8}
    (ends : EndsNumber stop) : skipInside (fuel + 1) outer (bytes ++ stop :: rest) =
      skipAfter fuel true outer (stop :: rest) := by
  cases reads with
  | @negative digits reads =>
    obtain ⟨-, skipped⟩ := reads stop rest ends
    rw [List.cons_append, skipInside, skipBlank_cons rfl]
    simp only [show ¬ (0x2D : UInt8) = 0x6E by decide, show ¬ (0x2D : UInt8) = 0x74 by decide,
      show ¬ (0x2D : UInt8) = 0x66 by decide, if_false, if_true, skipped, bind, Except.bind]
  | @positive first digits digit reads =>
    obtain ⟨-, skipped⟩ := reads stop rest ends
    rw [List.cons_append, skipInside, skipBlank_cons (not_isBlank_of_isDigit digit)]
    simp only [ne_of_isDigit digit (show isDigit 0x6E = false from rfl),
      ne_of_isDigit digit (show isDigit 0x74 = false from rfl),
      ne_of_isDigit digit (show isDigit 0x66 = false from rfl),
      ne_of_isDigit digit (show isDigit 0x2D = false from rfl), digit, if_false, if_true, skipped,
      bind, Except.bind]

theorem skipInside_quote (skipped : skipText bytes = .ok rest) :
    skipInside (fuel + 1) outer (0x22 :: bytes) = skipAfter fuel true outer rest := by
  rw [skipInside, skipBlank_cons rfl]
  simp only [show ¬ (0x22 : UInt8) = 0x6E by decide, show ¬ (0x22 : UInt8) = 0x74 by decide,
    show ¬ (0x22 : UInt8) = 0x66 by decide, show ¬ (0x22 : UInt8) = 0x2D by decide,
    show isDigit 0x22 = false from rfl, Bool.false_eq_true, if_false, if_true, skipped, bind,
    Except.bind]

theorem skipInside_bracket : skipInside (fuel + 1) outer (0x5B :: bytes) =
    skipAfter fuel false (.list :: outer) bytes := by
  rw [skipInside, skipBlank_cons rfl]
  rfl

theorem skipInside_brace : skipInside (fuel + 1) outer (0x7B :: bytes) =
    skipAfter fuel false (.object :: outer) bytes := by
  rw [skipInside, skipBlank_cons rfl]
  rfl

theorem skipAfter_closing (enclosure : Enclosure) (comma : Bool) (blank : Blank blanks) :
    skipAfter (fuel + 1) comma (enclosure :: outer) (blanks ++ enclosure.closing :: rest) =
      skipAfter fuel true outer rest := by
  cases enclosure with
  | list =>
    rw [skipAfter, skipBlank_append_cons blank (show isBlank Enclosure.list.closing = false from rfl)]
    simp only [Enclosure.closing, show ¬ (0x5D : UInt8) = 0x2C by decide, and_false, if_false, if_true]
  | object =>
    rw [skipAfter, skipBlank_append_cons blank (show isBlank Enclosure.object.closing = false from rfl)]
    simp only [Enclosure.closing, show ¬ (0x7D : UInt8) = 0x2C by decide, and_false, if_false, if_true]

/-- In a list, what separates an item from the one before it is passed over. -/
theorem skipAfter_item (separates : Separates first separator) {byte : UInt8}
    (solid : isBlank byte = false ∧ byte ≠ 0x5D) :
    skipAfter (fuel + 1 + 1) (!first) (.list :: outer) (separator ++ byte :: rest) =
      skipInside (fuel + 1) (.list :: outer) (byte :: rest) := by
  cases separates with
  | first blank =>
    rw [skipAfter, skipBlank_append_cons blank solid.1]
    simp only [Bool.not_true, Bool.false_eq_true, false_and, if_false, Enclosure.closing,
      if_neg solid.2, Enclosure.skipKey, bind, Except.bind]
  | next before after =>
    rw [List.append_assoc, List.cons_append, skipAfter,
      skipBlank_append_cons before (show isBlank 0x2C = false from rfl)]
    simp only [Bool.not_false, and_self, if_true, Enclosure.skipKey, bind, Except.bind]
    exact skipInside_blank after

theorem skipKey_object {name before : Bytes} {key : List Char} (blank : Blank blanks)
    (named : SpellsText key name) (colon : Blank before) :
    Enclosure.object.skipKey (blanks ++ 0x22 :: (name ++ 0x22 :: (before ++ 0x3A :: rest))) =
      .ok rest := by
  rw [Enclosure.skipKey, skipBlank_append_cons blank (show isBlank 0x22 = false from rfl)]
  simp only [if_true, skipText_spelled named, readColon_blank _ colon, bind, Except.bind]

/-- In an object, the next key is passed over along with what stands around it. -/
theorem skipAfter_member (separates : Separates first separator) {name before after : Bytes}
    {key : List Char} (named : SpellsText key name) (colon : Blank before) (gap : Blank after) :
    skipAfter (fuel + 1 + 1) (!first) (.object :: outer)
        (separator ++ 0x22 :: (name ++ 0x22 :: (before ++ 0x3A :: (after ++ bytes)))) =
      skipInside (fuel + 1) (.object :: outer) bytes := by
  cases separates with
  | first blank =>
    have key := @skipKey_object [] (after ++ bytes) name before key (by simp [Blank]) named colon
    rw [skipAfter, skipBlank_append_cons blank (show isBlank 0x22 = false from rfl)]
    rw [List.nil_append] at key
    simp only [Bool.not_true, Bool.false_eq_true, false_and, if_false, Enclosure.closing,
      show ¬ (0x22 : UInt8) = 0x7D by decide, key, bind, Except.bind]
    exact skipInside_blank gap
  | next blank blank' =>
    rw [List.append_assoc, List.cons_append, skipAfter,
      skipBlank_append_cons blank (show isBlank 0x2C = false from rfl)]
    simp only [Bool.not_false, and_self, if_true, skipKey_object blank' named colon, bind, Except.bind]
    exact skipInside_blank gap

end Skip

/-- A part is passed over in a number of steps that its length bounds. -/
def Part.IsSkipped : Part → Bytes → Prop
  | .whole _, bytes => ∃ steps, steps + 2 ≤ 2 * bytes.length ∧
      ∀ fuel outer stop rest, EndsNumber stop →
        skipInside (fuel + steps + 1) outer (bytes ++ stop :: rest) =
          skipAfter fuel true outer (stop :: rest)
  | .listFrom first _, bytes => ∃ steps, steps + 2 ≤ 2 * bytes.length ∧ ∀ fuel outer rest,
      skipAfter (fuel + steps + 1) (!first) (.list :: outer) (bytes ++ rest) =
        skipAfter fuel true outer rest
  | .objectFrom first _, bytes => ∃ steps, steps + 2 ≤ 2 * bytes.length ∧ ∀ fuel outer rest,
      skipAfter (fuel + steps + 1) (!first) (.object :: outer) (bytes ++ rest) =
        skipAfter fuel true outer rest

/-- Every spelling of a part is passed over. -/
theorem Spells.isSkipped {part : Part} {bytes : Bytes} (spells : Spells part bytes) :
    part.IsSkipped bytes := by
  induction spells with
  | nullWord | trueWord | falseWord => exact ⟨0, by decide, fun _ _ _ _ _ => rfl⟩
  | @integer value least most =>
    obtain ⟨byte, tail, begins, -⟩ := intChars_startsWith value
    refine ⟨0, ?_, fun _ _ _ _ ends => ?_⟩
    · rw [begins, List.length_cons]
      omega
    · exact skipInside_readsInteger (readsInteger_intChars least most) ends
  | text spelled =>
    refine ⟨0, ?_, fun fuel outer stop rest _ => ?_⟩
    · rw [List.length_cons]
      omega
    · rw [List.cons_append, List.append_assoc]
      exact skipInside_quote (skipText_spelled spelled)
  | list _ skipped =>
    obtain ⟨steps, bounded, skipped⟩ := skipped
    refine ⟨steps + 1, ?_, fun fuel outer stop rest _ => ?_⟩
    · rw [List.length_cons]
      omega
    · rw [List.cons_append, skipInside_bracket]
      exact skipped fuel outer (stop :: rest)
  | object _ skipped =>
    obtain ⟨steps, bounded, skipped⟩ := skipped
    refine ⟨steps + 1, ?_, fun fuel outer stop rest _ => ?_⟩
    · rw [List.length_cons]
      omega
    · rw [List.cons_append, skipInside_brace]
      exact skipped fuel outer (stop :: rest)
  | noItem blank =>
    refine ⟨0, ?_, fun fuel outer rest => ?_⟩
    · rw [List.length_append, List.length_singleton]
      omega
    · rw [List.append_assoc]
      exact skipAfter_closing .list _ blank
  | @item first item items separator bytes more separates spelled others skipped skippedOthers =>
    obtain ⟨steps, bounded, skipped⟩ := skipped
    obtain ⟨stepsOthers, boundedOthers, skippedOthers⟩ := skippedOthers
    obtain ⟨byte, tail, begins, starts⟩ := spelled.startsWith
    refine ⟨steps + stepsOthers + 2, ?_, fun fuel outer rest => ?_⟩
    · rw [List.length_append, List.length_append]
      omega
    · obtain ⟨stop, after, follows, ends⟩ := others.ends_item rest
      have counted : fuel + (steps + stepsOthers + 2) + 1 =
          fuel + stepsOthers + 1 + steps + 1 + 1 := by omega
      have split : separator ++ (bytes ++ more) ++ rest =
          separator ++ byte :: (tail ++ stop :: after) := by
        rw [begins, ← follows, List.append_assoc, List.append_assoc, List.cons_append]
      have skip := skipped (fuel + stepsOthers + 1) (.list :: outer) stop after ends
      rw [begins, List.cons_append] at skip
      rw [counted, split, skipAfter_item separates (Value.startsWith_solid starts), skip, ← follows]
      exact skippedOthers fuel outer rest
  | noMember blank =>
    refine ⟨0, ?_, fun fuel outer rest => ?_⟩
    · rw [List.length_append, List.length_singleton]
      omega
    · rw [List.append_assoc]
      exact skipAfter_closing .object _ blank
  | @member first key value members separator name before after bytes more separates named colon gap
      spelled others skipped skippedOthers =>
    obtain ⟨steps, bounded, skipped⟩ := skipped
    obtain ⟨stepsOthers, boundedOthers, skippedOthers⟩ := skippedOthers
    refine ⟨steps + stepsOthers + 2, ?_, fun fuel outer rest => ?_⟩
    · simp only [List.length_append, List.length_cons]
      omega
    · obtain ⟨stop, tail, follows, ends⟩ := others.ends_member rest
      have counted : fuel + (steps + stepsOthers + 2) + 1 =
          fuel + stepsOthers + 1 + steps + 1 + 1 := by omega
      rw [counted, member_append, follows, skipAfter_member separates named colon gap,
        skipped _ _ stop tail ends, ← follows]
      exact skippedOthers fuel outer rest

/-- A value is passed over up to a byte that ends a number, with the blanks before it. -/
theorem Spells.skipValue {value : Value} {bytes : Bytes} (spells : Spells (.whole value) bytes)
    {blanks : Bytes} (blank : Blank blanks) {stop : UInt8} (ends : EndsNumber stop) (rest : Bytes) :
    skipValue (blanks ++ (bytes ++ stop :: rest)) = .ok (stop :: rest) := by
  obtain ⟨steps, bounded, skipped⟩ := spells.isSkipped
  obtain ⟨spare, counted⟩ : ∃ spare,
      stepBound (blanks ++ (bytes ++ stop :: rest)) = spare + 1 + steps + 1 := by
    refine ⟨stepBound (blanks ++ (bytes ++ stop :: rest)) - (steps + 2), ?_⟩
    rw [stepBound, List.length_append, List.length_append]
    omega
  rw [Json.skipValue, counted, skipInside_blank blank, skipped _ _ _ _ ends, skipAfter]

end FramedTasks.Json
