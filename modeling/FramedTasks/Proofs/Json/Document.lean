import Mathlib.Data.List.TakeWhile
import FramedTasks.Proofs.Json.Spelled
import FramedTasks.Proofs.Record.Placed

/-! # What the bytes of a payload are

The brackets, commas and quotes of a payload say where its values stand, whatever a reader makes of
them. `Lex` gives the bytes of a value without what they denote: a text may hold any escapes, and a
number is a run of bytes that numbers are made of. `Entries` and `IsRecord` give the values under the
keys of headers and in the places of a record. Readers of words and texts are shown to take such
bytes, and to take them if the bytes go on as well.
-/

namespace FramedTasks.Json

/-- What the bytes of a text between its quotes denote. -/
inductive Denotes : Bytes → Bytes → Prop
  | nil : Denotes [] []
  | plain {byte : UInt8} {denoted written : Bytes} :
      Plain byte → Denotes denoted written → Denotes (byte :: denoted) (byte :: written)
  | letter {letter byte : UInt8} {denoted written : Bytes} :
      escaped? letter = some byte → Denotes denoted written →
      Denotes (byte :: denoted) (0x5C :: letter :: written)
  | unit {a b c d : UInt8} {unit : Nat} {denoted written : Bytes} :
      hexNumber? a b c d = some unit → isLeadSurrogate unit = false → isTrailSurrogate unit = false →
      Denotes denoted written →
      Denotes (String.utf8EncodeChar (Char.ofNat unit) ++ denoted)
        (0x5C :: 0x75 :: a :: b :: c :: d :: written)
  | pair {a b c d e f g h : UInt8} {lead trail : Nat} {denoted written : Bytes} :
      hexNumber? a b c d = some lead → hexNumber? e f g h = some trail →
      isLeadSurrogate lead = true → isTrailSurrogate trail = true → Denotes denoted written →
      Denotes (String.utf8EncodeChar (Char.ofNat (pairedCodePoint lead trail)) ++ denoted)
        (0x5C :: 0x75 :: a :: b :: c :: d :: 0x5C :: 0x75 :: e :: f :: g :: h :: written)

/-- The bytes of a text between its quotes. -/
def IsText (text : String) (written : Bytes) : Prop :=
  ∃ denoted, Denotes denoted written ∧ Utf8.decode denoted = .ok text

/-- Bytes that may stand between quotes, with any escapes. -/
inductive Quotable : Bytes → Prop
  | nil : Quotable []
  | plain {byte : UInt8} {written : Bytes} :
      Plain byte → Quotable written → Quotable (byte :: written)
  | letter {letter byte : UInt8} {written : Bytes} :
      escaped? letter = some byte → Quotable written → Quotable (0x5C :: letter :: written)
  | unit {a b c d : UInt8} {unit : Nat} {written : Bytes} :
      hexNumber? a b c d = some unit → Quotable written →
      Quotable (0x5C :: 0x75 :: a :: b :: c :: d :: written)

def isNumeric (byte : UInt8) : Bool :=
  isDigit byte || startsPart byte || byte == 0x2B || byte == 0x2D

/-- Bytes that numbers are made of. -/
def AllNumeric (bytes : Bytes) : Prop := ∀ byte ∈ bytes, isNumeric byte = true

/-- A part of a value: a whole one, or what is left of a list or an object, from its first item or
member on or from a later one. -/
inductive Extent where
  | whole
  | listFrom (first : Bool)
  | objectFrom (first : Bool)

def Enclosure.extent (first : Bool) : Enclosure → Extent
  | .list => .listFrom first
  | .object => .objectFrom first

/-- The bytes of a part of a value. -/
inductive Lex : Extent → Bytes → Prop
  | nullWord : Lex .whole (0x6E :: nullTail)
  | trueWord : Lex .whole (0x74 :: trueTail)
  | falseWord : Lex .whole (0x66 :: falseTail)
  | number {first : UInt8} {more : Bytes} :
      (first = 0x2D ∨ isDigit first = true) → AllNumeric more → Lex .whole (first :: more)
  | text {written : Bytes} : Quotable written → Lex .whole (0x22 :: (written ++ [0x22]))
  | list {bytes : Bytes} : Lex (.listFrom true) bytes → Lex .whole (0x5B :: bytes)
  | object {bytes : Bytes} : Lex (.objectFrom true) bytes → Lex .whole (0x7B :: bytes)
  | noItem {first : Bool} {blanks : Bytes} : Blank blanks → Lex (.listFrom first) (blanks ++ [0x5D])
  | item {first : Bool} {separator item more : Bytes} :
      Separates first separator → Lex .whole item → Lex (.listFrom false) more →
      Lex (.listFrom first) (separator ++ (item ++ more))
  | noMember {first : Bool} {blanks : Bytes} :
      Blank blanks → Lex (.objectFrom first) (blanks ++ [0x7D])
  | member {first : Bool} {separator name before after item more : Bytes} :
      Separates first separator → Quotable name → Blank before → Blank after → Lex .whole item →
      Lex (.objectFrom false) more →
      Lex (.objectFrom first)
        (separator ++ 0x22 :: (name ++ 0x22 :: (before ++ 0x3A :: (after ++ (item ++ more)))))

/-- The entries of an object to its closing brace, each a key and the bytes of its value. -/
inductive Entries : Bool → List (String × Bytes) → Bytes → Prop
  | none {first : Bool} {blanks : Bytes} : Blank blanks → Entries first [] (blanks ++ [0x7D])
  | some {first : Bool} {key : String} {separator name before after item more : Bytes}
      {entries : List (String × Bytes)} :
      Separates first separator → IsText key name → Blank before → Blank after → Lex .whole item →
      Entries false entries more →
      Entries first ((key, item) :: entries)
        (separator ++ 0x22 :: (name ++ 0x22 :: (before ++ 0x3A :: (after ++ (item ++ more)))))

/-- The items of a list, each the bytes of its value, without the closing bracket. -/
inductive Listed : Bool → List Bytes → Bytes → Prop
  | none {first : Bool} : Listed first [] []
  | some {first : Bool} {separator item more : Bytes} {items : List Bytes} :
      Separates first separator → Lex .whole item → Listed false items more →
      Listed first (item :: items) (separator ++ (item ++ more))

/-- The bytes of null. -/
def IsNull (item : Bytes) : Prop := item = 0x6E :: nullTail

/-- The bytes of headers: null, or an object of entries. -/
inductive IsHeaders : Option (List (String × Bytes)) → Bytes → Prop
  | null : IsHeaders .none (0x6E :: nullTail)
  | object {entries : List (String × Bytes)} {bytes : Bytes} :
      Entries true entries bytes → IsHeaders (.some entries) (0x7B :: bytes)

/-- A record, with what stands for the field at each place: the values under its names, or the value
at that place of a list. -/
inductive IsRecord (schema : Schema) : (Nat → List Bytes) → Bytes → Prop
  | object {entries : List (String × Bytes)} {bytes : Bytes} :
      Entries true entries bytes →
      IsRecord schema (itemsAt (entries.map fun entry => (schema.index? entry.1, entry.2)))
        (0x7B :: bytes)
  | list {items : List Bytes} {bytes blanks : Bytes} :
      Listed true items bytes → Blank blanks →
      IsRecord schema (fun place => items[place]?.toList) (0x5B :: (bytes ++ (blanks ++ [0x5D])))

/-- Bytes of a shape with blanks before them. -/
def Spaced {α : Type} (shape : α → Bytes → Prop) (value : α) (bytes : Bytes) : Prop :=
  ∃ blanks item, bytes = blanks ++ item ∧ Blank blanks ∧ shape value item

theorem Denotes.quotable {denoted written : Bytes} (denotes : Denotes denoted written) :
    Quotable written := by
  induction denotes with
  | nil => exact .nil
  | plain plain _ ih => exact .plain plain ih
  | letter known _ ih => exact .letter known ih
  | unit known _ _ _ ih => exact .unit known ih
  | pair first second _ _ _ ih => exact .unit first (.unit second ih)

theorem Entries.lex {first : Bool} {entries : List (String × Bytes)} {bytes : Bytes}
    (inside : Entries first entries bytes) : Lex (.objectFrom first) bytes := by
  induction inside with
  | none blank => exact .noMember blank
  | some separates isText before after item _ ih =>
    obtain ⟨_, denotes, -⟩ := isText
    exact .member separates denotes.quotable before after item ih

theorem IsHeaders.lex {entries? : Option (List (String × Bytes))} {bytes : Bytes}
    (isHeaders : IsHeaders entries? bytes) : Lex .whole bytes := by
  cases isHeaders with
  | null => exact .nullWord
  | object inside => exact .object inside.lex

theorem skipBlank_eq_cons {bytes rest : Bytes} {byte : UInt8} (skipped : skipBlank bytes = byte :: rest) :
    ∃ blanks, bytes = blanks ++ byte :: rest ∧ Blank blanks ∧ isBlank byte = false := by
  refine ⟨bytes.takeWhile isBlank, ?_, ?_, ?_⟩
  · rw [← skipped]
    exact List.takeWhile_append_dropWhile.symm
  · intro blank member
    exact List.mem_takeWhile_imp member
  · have first := List.head?_dropWhile_not isBlank bytes
    rw [show bytes.dropWhile isBlank = byte :: rest from skipped] at first
    simpa using first

theorem passing_readWord (letters : Bytes) :
    Passing true (readWord letters) (readWord letters) fun front => front = letters := by
  refine ⟨fun {bytes rest} done => ?_⟩
  induction letters generalizing bytes with
  | nil =>
    obtain rfl := Except.ok.inj done
    exact ⟨[], rfl, rfl, fun _ _ => rfl⟩
  | cons letter letters ih =>
    cases bytes with
    | nil => contradiction
    | cons byte bytes =>
      rw [readWord] at done
      split at done
      · next same =>
        subst same
        obtain ⟨front, rfl, rfl, again⟩ := ih done
        refine ⟨byte :: front, rfl, rfl, fun more resumes => ?_⟩
        rw [List.cons_append, readWord, if_pos rfl]
        exact again more resumes
      · contradiction

/-- Bytes of a text are read to what they denote. -/
theorem Denotes.read {denoted written : Bytes} (denotes : Denotes denoted written) (reversed rest : Bytes) :
    readTextBytes reversed (written ++ 0x22 :: rest) = .ok (reversed.reverse ++ denoted, rest) := by
  induction denotes generalizing reversed with
  | nil =>
    rw [readTextBytes.eq_def]
    simp
  | plain plain _ ih =>
    rw [List.cons_append, readTextBytes_plain plain, ih, List.reverse_cons, List.append_assoc]
    rfl
  | letter known _ ih =>
    have short := (escaped?_ascii known).1
    rw [List.cons_append, List.cons_append, readTextBytes_letter known short, ih, List.reverse_cons,
      List.append_assoc]
    rfl
  | unit known notLead notTrail _ ih =>
    simp only [List.cons_append]
    rw [readTextBytes_unit known notLead notTrail, ih]
    simp [pushCodePoint]
  | pair first second leads trails _ ih =>
    simp only [List.cons_append]
    rw [readTextBytes_pair first second leads trails, ih]
    simp [pushCodePoint]

/-- A text that is read ends at once, or goes on after a character or an escape at its front. -/
theorem readTextBytes_eq_ok {reversed bytes all rest : Bytes}
    (done : readTextBytes reversed bytes = .ok (all, rest)) :
    bytes = 0x22 :: rest ∧ all = reversed.reverse ∨
      ∃ front denoted later, bytes = front ++ later ∧ 0 < front.length ∧
        readTextBytes (denoted.reverse ++ reversed) later = .ok (all, rest) ∧
        ∀ {more written}, Denotes more written → Denotes (denoted ++ more) (front ++ written) := by
  rw [readTextBytes.eq_def] at done
  split at done
  · contradiction
  rename_i byte bytes
  split at done
  · next quote =>
    obtain ⟨rfl, rfl⟩ := Prod.mk.inj (Except.ok.inj done)
    exact .inl ⟨by rw [quote], rfl⟩
  rename_i notQuote
  right
  split at done
  · next backslash =>
    subst backslash
    split at done
    · contradiction
    rename_i letter bytes
    split at done
    · next isUnit =>
      subst isUnit
      split at done <;> try contradiction
      rename_i a b c d bytes
      split at done
      · contradiction
      rename_i unit known
      split at done
      · contradiction
      rename_i notTrail
      split at done
      · next leads =>
        -- one half of a pair, so the other one must follow
        split at done
        · contradiction
        rename_i backslash bytes
        split at done
        · contradiction
        rename_i isBackslash
        split at done
        · contradiction
        rename_i letter bytes
        split at done
        · contradiction
        rename_i isUnit
        split at done <;> try contradiction
        rename_i e f g h bytes
        split at done
        · contradiction
        rename_i trail second
        split at done <;> try contradiction
        rename_i trails
        obtain rfl := not_not.mp isBackslash
        obtain rfl := not_not.mp isUnit
        exact ⟨[0x5C, 0x75, a, b, c, d, 0x5C, 0x75, e, f, g, h], _, bytes, rfl, Nat.succ_pos _, done,
          .pair known second leads trails⟩
      · next notLead =>
        exact ⟨[0x5C, 0x75, a, b, c, d], _, bytes, rfl, Nat.succ_pos _, done,
          .unit known (Bool.eq_false_iff.mpr notLead) (Bool.eq_false_iff.mpr notTrail)⟩
    · split at done <;> try contradiction
      rename_i byte known
      exact ⟨[0x5C, letter], [byte], bytes, rfl, Nat.succ_pos _, done, .letter known⟩
  · next notBackslash =>
    split at done
    · contradiction
    rename_i notControl
    exact ⟨[byte], [byte], bytes, rfl, Nat.succ_pos _, done, .plain ⟨notQuote, notBackslash, notControl⟩⟩

/-- Bytes that are read as a text are those of a text, up to its closing quote. -/
theorem denotes_of_readTextBytes {reversed bytes all rest : Bytes}
    (done : readTextBytes reversed bytes = .ok (all, rest)) :
    ∃ denoted written, bytes = written ++ 0x22 :: rest ∧ Denotes denoted written ∧
      all = reversed.reverse ++ denoted := by
  -- an escape takes several bytes at once, so the induction is on the length
  induction size : bytes.length using Nat.strongRecOn generalizing reversed bytes with
  | ind size ih =>
    rcases readTextBytes_eq_ok done with ⟨rfl, rfl⟩ | ⟨front, denoted, later, rfl, filled, goesOn, spells⟩
    · exact ⟨[], [], rfl, .nil, (List.append_nil _).symm⟩
    · rw [List.length_append] at size
      obtain ⟨more, written, rfl, denotes, rfl⟩ := ih later.length (by omega) goesOn rfl
      refine ⟨denoted ++ more, front ++ written, (List.append_assoc ..).symm, spells denotes, ?_⟩
      rw [List.reverse_append, List.reverse_reverse, List.append_assoc]

/-- A text is read up to its closing quote. -/
theorem IsText.read {text : String} {written : Bytes} (isText : IsText text written) (rest : Bytes) :
    readText (written ++ 0x22 :: rest) = .ok (text, rest) := by
  obtain ⟨denoted, denotes, decoded⟩ := isText
  rw [readText]
  refine bind_eq_ok.mpr ⟨_, denotes.read [] rest, ?_⟩
  simp only [List.reverse_nil, List.nil_append, decoded]

theorem IsText.quotable {text : String} {written : Bytes} (isText : IsText text written) :
    Quotable written := by
  obtain ⟨denoted, denotes, -⟩ := isText
  exact denotes.quotable

theorem steady_readText : Steady false readText readText fun text front =>
    ∃ written, front = written ++ [0x22] ∧ IsText text written where
  taken done := by
    rw [readText] at done
    obtain ⟨⟨denoted, tail⟩, read, last⟩ := bind_eq_ok.mp done
    obtain ⟨_, written, rfl, denotes, rfl⟩ := denotes_of_readTextBytes read
    dsimp only at last
    split at last
    · next text decoded =>
      obtain ⟨rfl, rfl⟩ := Prod.mk.inj (Except.ok.inj last)
      have isText : IsText text written := ⟨_, denotes, decoded⟩
      refine ⟨written ++ [0x22], List.append_cons .., ⟨written, rfl, isText⟩, fun more _ => ?_⟩
      rw [← List.append_cons]
      exact isText.read more
    · contradiction

/-- Bytes of a text are passed over. -/
theorem Quotable.skip {written : Bytes} (quotable : Quotable written) (rest : Bytes) :
    skipText (written ++ 0x22 :: rest) = .ok rest := by
  induction quotable with
  | nil =>
    rw [List.nil_append, skipText.eq_def]
    exact if_pos rfl
  | @plain byte written plain _ ih =>
    have single : ∀ other ∈ [byte], Plain other := fun other member =>
      List.mem_singleton.mp member ▸ plain
    exact (skipText_append single).trans ih
  | letter known _ ih =>
    have notQuote : ¬ (0x5C : UInt8) = 0x22 := by decide
    rw [List.cons_append, List.cons_append, skipText.eq_def]
    simp only [if_neg notQuote, if_true, if_neg (escaped?_ascii known).1, known, Option.isSome_some,
      ih]
  | unit known _ ih => exact (skipText_unit known).trans ih

/-- A text that is passed over ends at once, or goes on after a character or an escape at its front. -/
theorem skipText_eq_ok {bytes rest : Bytes} (done : skipText bytes = .ok rest) :
    bytes = 0x22 :: rest ∨ ∃ front later, bytes = front ++ later ∧ 0 < front.length ∧
      skipText later = .ok rest ∧ ∀ {written}, Quotable written → Quotable (front ++ written) := by
  rw [skipText.eq_def] at done
  split at done
  · contradiction
  rename_i byte bytes
  split at done
  · next quote =>
    obtain rfl := Except.ok.inj done
    exact .inl (by rw [quote])
  rename_i notQuote
  right
  split at done
  · next backslash =>
    subst backslash
    split at done
    · contradiction
    rename_i letter bytes
    split at done
    · next isUnit =>
      subst isUnit
      split at done <;> try contradiction
      rename_i a b c d bytes
      split at done <;> try contradiction
      rename_i known
      obtain ⟨unit, known⟩ := Option.isSome_iff_exists.mp known
      exact ⟨[0x5C, 0x75, a, b, c, d], bytes, rfl, Nat.succ_pos _, done, .unit known⟩
    · split at done <;> try contradiction
      rename_i known
      obtain ⟨byte, known⟩ := Option.isSome_iff_exists.mp known
      exact ⟨[0x5C, letter], bytes, rfl, Nat.succ_pos _, done, .letter known⟩
  · next notBackslash =>
    split at done
    · contradiction
    rename_i notControl
    exact ⟨[byte], bytes, rfl, Nat.succ_pos _, done, .plain ⟨notQuote, notBackslash, notControl⟩⟩

/-- Bytes that are passed over as a text are those of a text, up to its closing quote. -/
theorem quotable_of_skipText {bytes rest : Bytes} (done : skipText bytes = .ok rest) :
    ∃ written, bytes = written ++ 0x22 :: rest ∧ Quotable written := by
  induction size : bytes.length using Nat.strongRecOn generalizing bytes with
  | ind size ih =>
    rcases skipText_eq_ok done with rfl | ⟨front, later, rfl, filled, goesOn, spells⟩
    · exact ⟨[], rfl, .nil⟩
    · rw [List.length_append] at size
      obtain ⟨written, rfl, quotable⟩ := ih later.length (by omega) goesOn rfl
      exact ⟨front ++ written, (List.append_assoc ..).symm, spells quotable⟩

theorem passing_skipText : Passing false skipText skipText fun front =>
    ∃ written, front = written ++ [0x22] ∧ Quotable written where
  passed done := by
    obtain ⟨written, rfl, quotable⟩ := quotable_of_skipText done
    refine ⟨written ++ [0x22], List.append_cons .., ⟨written, rfl, quotable⟩, fun more _ => ?_⟩
    rw [← List.append_cons]
    exact quotable.skip more

end FramedTasks.Json
