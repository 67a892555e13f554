import FramedTasks.Proofs.Json.Determined
import FramedTasks.Proofs.Json.Members
import FramedTasks.Proofs.Json.Numbers

/-! # What the readers of values take

Passing over a value and reading it take the bytes of one whole value, with the blanks before it. A
value that is read is null exactly if it is written so. A reader that ends with a bracket has no need
to look further, but the numbers inside a list or an object do, and there the next comma or bracket
ends them.
-/

namespace FramedTasks.Json

/-! ## From the first byte on -/

section Solid

variable {α : Type} {ahead : Bool} {cause : Cause}

def fromSolid (cause : Cause) (read : UInt8 → Bytes → Except Fault α) (bytes : Bytes) :
    Except Fault α :=
  match skipBlank bytes with
  | [] => failAfter cause []
  | byte :: rest => read byte rest

theorem fromSolid_eq_ok {read : UInt8 → Bytes → Except Fault α} {bytes : Bytes} {result : α}
    (done : fromSolid cause read bytes = .ok result) :
    ∃ blanks byte rest, bytes = blanks ++ byte :: rest ∧ Blank blanks ∧ isBlank byte = false ∧
      read byte rest = .ok result := by
  rw [fromSolid] at done
  split at done
  · contradiction
  · next byte rest skipped =>
    obtain ⟨blanks, split, blank, solid⟩ := skipBlank_eq_cons skipped
    exact ⟨blanks, byte, rest, split, blank, solid, done⟩

theorem fromSolid_append {blanks : Bytes} (blank : Blank blanks) {byte : UInt8}
    (solid : isBlank byte = false) (read : UInt8 → Bytes → Except Fault α) (rest : Bytes) :
    fromSolid cause read (blanks ++ byte :: rest) = read byte rest := by
  rw [fromSolid, skipBlank_append_cons blank solid]

theorem steady_fromSolid {read again : UInt8 → Bytes → Except Fault (α × Bytes)}
    {shape : α → Bytes → Prop} (steady : ∀ byte, isBlank byte = false →
      Steady ahead (read byte) (again byte) fun value front => shape value (byte :: front)) :
    Steady ahead (fromSolid cause read) (fromSolid cause again) (Spaced shape) where
  taken done := by
    obtain ⟨blanks, byte, tail, rfl, blank, solid, read⟩ := fromSolid_eq_ok done
    obtain ⟨front, rfl, shaped, again⟩ := (steady byte solid).taken read
    refine ⟨blanks ++ byte :: front, by simp, ⟨blanks, _, rfl, blank, shaped⟩, fun more resumes => ?_⟩
    rw [List.append_assoc, List.cons_append, fromSolid_append blank solid]
    exact again more resumes

theorem passing_fromSolid {skip again : UInt8 → Bytes → Except Fault Bytes} {shape : Bytes → Prop}
    (passing : ∀ byte, isBlank byte = false →
      Passing ahead (skip byte) (again byte) fun front => shape (byte :: front)) :
    Passing ahead (fromSolid cause skip) (fromSolid cause again)
      fun bytes => ∃ blanks front, bytes = blanks ++ front ∧ Blank blanks ∧ shape front where
  passed done := by
    obtain ⟨blanks, byte, tail, rfl, blank, solid, skip⟩ := fromSolid_eq_ok done
    obtain ⟨front, rfl, shaped, again⟩ := (passing byte solid).passed skip
    refine ⟨blanks ++ byte :: front, by simp, ⟨blanks, _, rfl, blank, shaped⟩, fun more resumes => ?_⟩
    rw [List.append_assoc, List.cons_append, fromSolid_append blank solid]
    exact again more resumes

end Solid

/-! ## Separators -/

section Separator

variable {first : Bool} {bytes rest : Bytes}

theorem Blank.append {blanks more : Bytes} (blank : Blank blanks) (also : Blank more) :
    Blank (blanks ++ more) := fun byte member =>
  (List.mem_append.mp member).elim (blank byte) (also byte)

theorem Separates.append {separator blanks : Bytes} (separates : Separates first separator)
    (blank : Blank blanks) : Separates first (separator ++ blanks) := by
  cases separates with
  | first before => exact .first (before.append blank)
  | next before after =>
    rw [List.append_assoc]
    exact .next before (after.append blank)

theorem nextItem_eq_ok {found : Bool} (done : nextItem first bytes = .ok (found, rest)) :
    ∃ front byte tail, bytes = front ++ byte :: tail ∧ rest = byte :: tail ∧
      if found then Separates first front ∧ isBlank byte = false ∧ byte ≠ 0x5D
      else Blank front ∧ byte = 0x5D := by
  obtain ⟨before, byte, tail, rfl, blank, solid, taken⟩ := fromSolid_eq_ok done
  split at taken
  · next closing =>
    obtain ⟨rfl, rfl⟩ := Prod.mk.inj (Except.ok.inj taken)
    exact ⟨before, byte, tail, rfl, rfl, blank, closing⟩
  · next open_ =>
    split at taken
    · next isFirst =>
      obtain ⟨rfl, rfl⟩ := Prod.mk.inj (Except.ok.inj taken)
      exact ⟨before, byte, tail, rfl, rfl, isFirst ▸ .first blank, solid, open_⟩
    · next later =>
      obtain rfl : first = false := Bool.eq_false_iff.mpr later
      split at taken
      · next comma =>
        subst comma
        obtain ⟨after, byte, tail, rfl, blank', solid, last⟩ := fromSolid_eq_ok taken
        split at last
        · contradiction
        · next open_ =>
          obtain ⟨rfl, rfl⟩ := Prod.mk.inj (Except.ok.inj last)
          exact ⟨before ++ 0x2C :: after, byte, tail, by simp, rfl, .next blank blank', solid, open_⟩
      · contradiction

theorem nextKey_eq_ok {found : Bool} (done : nextKey first bytes = .ok (found, rest)) :
    ∃ front, if found then bytes = front ++ 0x22 :: rest ∧ Separates first front
      else Blank front ∧ ∃ tail, bytes = front ++ 0x7D :: tail ∧ rest = 0x7D :: tail := by
  obtain ⟨before, byte, tail, rfl, blank, solid, taken⟩ := fromSolid_eq_ok done
  split at taken
  · next closing =>
    obtain ⟨rfl, rfl⟩ := Prod.mk.inj (Except.ok.inj taken)
    exact ⟨before, blank, tail, closing ▸ rfl, closing ▸ rfl⟩
  · split at taken
    · next isFirst =>
      split at taken
      · next quote =>
        obtain ⟨rfl, rfl⟩ := Prod.mk.inj (Except.ok.inj taken)
        exact ⟨before, quote ▸ rfl, isFirst ▸ .first blank⟩
      · contradiction
    · next later =>
      obtain rfl : first = false := Bool.eq_false_iff.mpr later
      split at taken
      · next comma =>
        subst comma
        obtain ⟨after, byte, tail, rfl, blank', -, last⟩ := fromSolid_eq_ok taken
        split at last
        · next quote =>
          obtain ⟨rfl, rfl⟩ := Prod.mk.inj (Except.ok.inj last)
          exact ⟨before ++ 0x2C :: after, by simp [quote], .next blank blank'⟩
        · split at last <;> contradiction
      · contradiction

theorem readColon_eq_ok (done : readColon bytes = .ok rest) :
    ∃ before, bytes = before ++ 0x3A :: rest ∧ Blank before := by
  obtain ⟨before, byte, tail, rfl, blank, -, done⟩ := fromSolid_eq_ok done
  split at done
  · next colon =>
    obtain rfl := Except.ok.inj done
    exact ⟨before, colon ▸ rfl, blank⟩
  · contradiction

theorem passing_readColon : Passing false readColon readColon fun front =>
    ∃ before, front = before ++ [0x3A] ∧ Blank before where
  passed done := by
    obtain ⟨before, rfl, blank⟩ := readColon_eq_ok done
    refine ⟨before ++ [0x3A], List.append_cons .., ⟨before, rfl, blank⟩, fun more _ => ?_⟩
    rw [← List.append_cons]
    exact readColon_blank more blank

end Separator

/-! ## Passing over values -/

section Skip

/-- Bytes that end some enclosures, innermost first. In the innermost one, a comma is due unless it
was just opened. -/
inductive Closes : Bool → List Enclosure → Bytes → Prop
  | none {comma : Bool} : Closes comma [] []
  | some {comma : Bool} {enclosure : Enclosure} {outer : List Enclosure} {bytes more : Bytes} :
      Lex (enclosure.extent !comma) bytes → Closes true outer more →
      Closes comma (enclosure :: outer) (bytes ++ more)

/-- A key and the colon after it. -/
def Naming (bytes : Bytes) : Prop :=
  ∃ name before, bytes = 0x22 :: (name ++ 0x22 :: (before ++ [0x3A])) ∧ Quotable name ∧ Blank before

/-- What stands between a separator and a value. -/
def Enclosure.Keying (enclosure : Enclosure) (bytes : Bytes) : Prop :=
  match enclosure with
  | .list => bytes = []
  | .object => ∃ blanks key, bytes = blanks ++ key ∧ Blank blanks ∧ Naming key

theorem passing_skipKey (enclosure : Enclosure) :
    Passing true enclosure.skipKey enclosure.skipKey enclosure.Keying := by
  cases enclosure with
  | list =>
    refine ⟨fun done => ?_⟩
    obtain rfl := Except.ok.inj done
    exact ⟨[], rfl, rfl, fun _ _ => rfl⟩
  | object =>
    refine passing_fromSolid fun byte _ => .ite (fun quote => ?_) fun _ => .of_fails fun _ => rfl
    subst quote
    refine (passing_skipText.bind passing_readColon).looks.mono ?_
    rintro _ ⟨_, _, rfl, ⟨name, rfl, quotable⟩, before, rfl, blank⟩
    exact ⟨name, before, by simp, quotable, blank⟩

/-- The next item or member, and the rest of what it stands in. -/
theorem Enclosure.Keying.lex {enclosure : Enclosure} {first : Bool}
    {separator key blanks item more : Bytes} (keying : enclosure.Keying key)
    (separates : Separates first separator) (blank : Blank blanks) (whole : Lex .whole item)
    (rest : Lex (enclosure.extent false) more) :
    Lex (enclosure.extent first) (separator ++ (key ++ (blanks ++ (item ++ more)))) := by
  cases enclosure with
  | list =>
    obtain rfl := keying
    have lex := Lex.item (separates.append blank) whole rest
    rwa [List.append_assoc] at lex
  | object =>
    obtain ⟨before, _, rfl, blank', name, colon, rfl, quotable, blank''⟩ := keying
    have lex := Lex.member (separates.append blank') quotable blank'' blank whole rest
    simpa [Enclosure.extent] using lex

theorem Lex.ne_nil {bytes : Bytes} (whole : Lex .whole bytes) : bytes ≠ [] := by
  rintro rfl
  cases whole

/-- A value and the end of what it stands in. -/
def Enclosed (outer : List Enclosure) (bytes : Bytes) : Prop :=
  ∃ item more, bytes = item ++ more ∧ Lex .whole item ∧ Closes true outer more

theorem Spaced.ne_nil {outer : List Enclosure} {bytes : Bytes} (enclosed : Spaced Enclosed outer bytes) :
    bytes ≠ [] := by
  obtain ⟨blanks, _, rfl, -, item, more, rfl, whole, -⟩ := enclosed
  exact List.append_ne_nil_of_right_ne_nil _ (List.append_ne_nil_of_left_ne_nil whole.ne_nil more)

theorem Enclosure.Keying.closes {enclosure : Enclosure} {outer : List Enclosure} {comma : Bool}
    {separator key bytes : Bytes} (keying : enclosure.Keying key)
    (separates : Separates (!comma) separator)
    (enclosed : Spaced Enclosed (enclosure :: outer) bytes) :
    Closes comma (enclosure :: outer) (separator ++ (key ++ bytes)) := by
  obtain ⟨blanks, _, rfl, blank, item, _, rfl, whole, closes⟩ := enclosed
  cases closes with
  | some rest closes =>
    have all := Closes.some (keying.lex separates blank whole rest) closes
    simpa only [List.append_assoc] using all

/-- Pass over a value from its first byte on, and over what follows it. -/
def skipFrom (after : Bool → List Enclosure → Bytes → Except Fault Bytes) (outer : List Enclosure)
    (byte : UInt8) (rest : Bytes) : Except Fault Bytes :=
  if byte = 0x6E then readWord nullTail rest >>= after true outer
  else if byte = 0x74 then readWord trueTail rest >>= after true outer
  else if byte = 0x66 then readWord falseTail rest >>= after true outer
  else if byte = 0x2D then skipNumber rest >>= after true outer
  else if isDigit byte then skipNumber (byte :: rest) >>= after true outer
  else if byte = 0x22 then skipText rest >>= after true outer
  else if byte = 0x5B then after false (.list :: outer) rest
  else if byte = 0x7B then after false (.object :: outer) rest
  else failAfter .expectedValue (byte :: rest)

theorem skipInside_succ (fuel : Nat) (outer : List Enclosure) : skipInside (fuel + 1) outer =
    fromSolid .endInValue (skipFrom (skipAfter fuel) outer) := by
  funext bytes
  rw [skipInside]
  rfl

/-- Pass over what may follow, from its first byte on. -/
def skipAfterFrom (inside : List Enclosure → Bytes → Except Fault Bytes)
    (after : Bool → List Enclosure → Bytes → Except Fault Bytes) (comma : Bool)
    (enclosure : Enclosure) (outer : List Enclosure) (byte : UInt8) (rest : Bytes) :
    Except Fault Bytes :=
  if comma ∧ byte = 0x2C then enclosure.skipKey rest >>= inside (enclosure :: outer)
  else if byte = enclosure.closing then after true outer rest
  else if comma then failAfter enclosure.commaCause (byte :: rest)
  else enclosure.skipKey (byte :: rest) >>= inside (enclosure :: outer)

theorem skipAfter_succ (fuel : Nat) (comma : Bool) (enclosure : Enclosure)
    (outer : List Enclosure) : skipAfter (fuel + 1) comma (enclosure :: outer) =
      fromSolid enclosure.endCause
        (skipAfterFrom (skipInside fuel) (skipAfter fuel) comma enclosure outer) := by
  funext bytes
  rw [skipAfter]
  rfl

variable {fuel fuel' : Nat}

theorem Enclosure.lex_closing (enclosure : Enclosure) {first : Bool} {blanks : Bytes}
    (blank : Blank blanks) : Lex (enclosure.extent first) (blanks ++ [enclosure.closing]) := by
  cases enclosure with
  | list => exact .noItem blank
  | object => exact .noMember blank

/-- A number without a sign is the whole of a value. -/
theorem IsNumber.lex {bytes : Bytes} (number : IsNumber bytes) : Lex .whole bytes := by
  obtain ⟨first, more, rfl, digit, numeric⟩ := number
  exact .number (.inr digit) numeric

theorem IsNumber.lex_negative {bytes : Bytes} (number : IsNumber bytes) :
    Lex .whole (0x2D :: bytes) := by
  obtain ⟨first, more, rfl, digit, numeric⟩ := number
  exact .number (.inl rfl) (numeric.cons (isNumeric_of_isDigit digit))

theorem IsNumber.ne_nil {bytes : Bytes} (number : IsNumber bytes) : bytes ≠ [] := by
  obtain ⟨first, more, rfl, -⟩ := number
  exact List.cons_ne_nil first more

section Inside

variable {outer : List Enclosure} {byte : UInt8}
  (after : ∀ comma outer,
    Passing true (skipAfter fuel comma outer) (skipAfter fuel' comma outer) (Closes comma outer))
include after

theorem passing_skipFrom_plain {skip : Bytes → Except Fault Bytes} {shape : Bytes → Prop}
    (skips : Passing true skip skip shape)
    (whole : ∀ front, shape front → Lex .whole (byte :: front)) :
    Passing true (fun rest => skip rest >>= skipAfter fuel true outer)
      (fun rest => skip rest >>= skipAfter fuel' true outer)
      fun front => Enclosed outer (byte :: front) := by
  refine (skips.bind (after true outer)).mono ?_
  rintro _ ⟨item, more, rfl, shaped, closes⟩
  exact ⟨byte :: item, more, rfl, whole item shaped, closes⟩

theorem passing_skipFrom_nested (enclosure : Enclosure)
    (whole : ∀ bytes, Lex (enclosure.extent true) bytes → Lex .whole (byte :: bytes)) :
    Passing true (skipAfter fuel false (enclosure :: outer))
      (skipAfter fuel' false (enclosure :: outer)) fun front => Enclosed outer (byte :: front) := by
  refine (after false (enclosure :: outer)).mono ?_
  rintro _ (_ | ⟨rest, closes⟩)
  exact ⟨_, _, rfl, whole _ rest, closes⟩

theorem passing_skipInside (outer : List Enclosure) :
    Passing true (skipInside (fuel + 1) outer) (skipInside (fuel' + 1) outer)
      (Spaced Enclosed outer) := by
  rw [skipInside_succ, skipInside_succ]
  refine passing_fromSolid fun byte _ => ?_
  unfold skipFrom
  refine .ite (fun letter => ?_) fun _ => .ite (fun letter => ?_) fun _ => .ite (fun letter => ?_)
    fun _ => .ite (fun minus => ?_) fun _ => .ite (fun digit => ?_) fun _ =>
    .ite (fun quote => ?_) fun _ => .ite (fun bracket => ?_) fun _ =>
    .ite (fun brace => ?_) fun _ => .of_fails fun _ => rfl
  · exact passing_skipFrom_plain after (passing_readWord nullTail) fun _ same =>
      letter ▸ same ▸ .nullWord
  · exact passing_skipFrom_plain after (passing_readWord trueTail) fun _ same =>
      letter ▸ same ▸ .trueWord
  · exact passing_skipFrom_plain after (passing_readWord falseTail) fun _ same =>
      letter ▸ same ▸ .falseWord
  · exact passing_skipFrom_plain after passing_skipNumber fun _ number => minus ▸ number.lex_negative
  · exact passing_skipFrom_plain after (passing_skipNumber.from_cons (fun _ => IsNumber.ne_nil) byte)
      fun _ number => number.lex
  · refine passing_skipFrom_plain after passing_skipText.looks ?_
    rintro _ ⟨written, rfl, quotable⟩
    exact quote ▸ .text quotable
  · exact passing_skipFrom_nested after .list fun _ rest => bracket ▸ .list rest
  · exact passing_skipFrom_nested after .object fun _ rest => brace ▸ .object rest

end Inside

/-- Bytes that have a shape once blanks stand before them. -/
def Indented (shape : Bytes → Prop) (bytes : Bytes) : Prop :=
  ∀ blanks, Blank blanks → shape (blanks ++ bytes)

theorem passing_skipAfterFrom (inside : ∀ outer, Passing true (skipInside fuel outer)
      (skipInside fuel' outer) (Spaced Enclosed outer))
    (after : ∀ comma outer,
      Passing true (skipAfter fuel comma outer) (skipAfter fuel' comma outer) (Closes comma outer))
    (comma : Bool) (enclosure : Enclosure) (outer : List Enclosure) (byte : UInt8) :
    Passing true (skipAfterFrom (skipInside fuel) (skipAfter fuel) comma enclosure outer byte)
      (skipAfterFrom (skipInside fuel') (skipAfter fuel') comma enclosure outer byte)
      fun front => Indented (Closes comma (enclosure :: outer)) (byte :: front) := by
  have next := (passing_skipKey enclosure).bind (inside (enclosure :: outer))
  unfold skipAfterFrom
  refine .ite (fun due => next.mono ?_) fun _ => .ite (fun closing => ?_) fun _ =>
    .ite (fun _ => .of_fails fun _ => rfl) fun opened => (next.from_cons ?_ byte).mono ?_
  · rintro _ ⟨key, bytes, rfl, keying, enclosed⟩ before blank
    obtain ⟨rfl, rfl⟩ := due
    have separates : Separates false (before ++ [0x2C]) := .next blank nofun
    rw [List.append_cons]
    exact keying.closes separates enclosed
  · refine (after true outer).mono fun more closes blanks blank => ?_
    have all : Closes comma (enclosure :: outer) (blanks ++ [enclosure.closing] ++ more) :=
      .some (enclosure.lex_closing blank) closes
    rw [← List.append_cons] at all
    exact closing ▸ all
  · rintro _ ⟨key, bytes, rfl, -, enclosed⟩
    exact List.append_ne_nil_of_right_ne_nil key enclosed.ne_nil
  · rintro front ⟨key, bytes, split, keying, enclosed⟩ blanks blank
    obtain rfl : comma = false := Bool.eq_false_iff.mpr opened
    rw [split]
    exact keying.closes (.first blank) enclosed

theorem passing_skipAfter (inside : ∀ outer, Passing true (skipInside fuel outer)
      (skipInside fuel' outer) (Spaced Enclosed outer))
    (after : ∀ comma outer,
      Passing true (skipAfter fuel comma outer) (skipAfter fuel' comma outer) (Closes comma outer))
    (comma : Bool) (outer : List Enclosure) :
    Passing true (skipAfter (fuel + 1) comma outer) (skipAfter (fuel' + 1) comma outer)
      (Closes comma outer) := by
  cases outer with
  | nil =>
    refine ⟨fun done => ?_⟩
    obtain rfl := Except.ok.inj done
    exact ⟨[], rfl, .none, fun _ _ => rfl⟩
  | cons enclosure outer =>
    rw [skipAfter_succ, skipAfter_succ]
    refine (passing_fromSolid fun byte _ =>
      passing_skipAfterFrom inside after comma enclosure outer byte).mono ?_
    rintro _ ⟨blanks, front, rfl, blank, closes⟩
    exact closes blanks blank

theorem passing_skip (longer : fuel ≤ fuel') :
    (∀ outer, Passing true (skipInside fuel outer) (skipInside fuel' outer)
      (Spaced Enclosed outer)) ∧
    ∀ comma outer,
      Passing true (skipAfter fuel comma outer) (skipAfter fuel' comma outer) (Closes comma outer) := by
  induction fuel generalizing fuel' with
  | zero => exact ⟨fun _ => ⟨nofun⟩, fun _ _ => ⟨nofun⟩⟩
  | succ fuel ih =>
    obtain ⟨fuel', rfl⟩ : ∃ spare, fuel' = spare + 1 := ⟨fuel' - 1, by omega⟩
    obtain ⟨inside, after⟩ := ih (Nat.le_of_succ_le_succ longer)
    exact ⟨passing_skipInside after, passing_skipAfter inside after⟩

theorem stepBound_mono {bytes more : Bytes} (longer : bytes.length ≤ more.length) :
    stepBound bytes ≤ stepBound more := by
  rw [stepBound, stepBound]
  omega

/-- What is passed over is one whole value. -/
theorem passing_skipValue :
    Passing true skipValue skipValue fun bytes =>
      ∃ blanks item, bytes = blanks ++ item ∧ Blank blanks ∧ Lex .whole item := by
  refine (Passing.bounded (fun longer => (passing_skip longer).1 []) stepBound_mono).mono ?_
  rintro _ ⟨blanks, _, rfl, blank, item, _, rfl, whole, closes⟩
  cases closes
  exact ⟨blanks, item, by rw [List.append_nil], blank, whole⟩

end Skip

/-! ## Reading values -/

/-- A value and the bytes that it was read from. -/
def IsValue (value : Value) (item : Bytes) : Prop := Lex .whole item ∧ (value = .null ↔ IsNull item)

/-- A value that starts with another letter is not null. -/
theorem IsValue.of_ne {value : Value} {byte : UInt8} {front : Bytes} (whole : Lex .whole (byte :: front))
    (some : value ≠ .null) (other : byte ≠ 0x6E) : IsValue value (byte :: front) :=
  ⟨whole, iff_of_false some fun same => other (List.cons.inj same).1⟩

theorem IsValue.ne_nil {value : Value} {bytes : Bytes} (spaced : Spaced IsValue value bytes) :
    bytes ≠ [] := by
  obtain ⟨blanks, item, rfl, -, whole, -⟩ := spaced
  exact List.append_ne_nil_of_right_ne_nil blanks whole.ne_nil

/-- The members that were put one after another among others, and the entries that they were read
from. -/
def IsMembers (first : Bool) (before members : List (String × Value)) (bytes : Bytes) : Prop :=
  ∃ entries read, Entries first entries bytes ∧ ReadFrom IsNull entries read ∧
    members = read.foldl (fun members member => Keyed.insert member.1 member.2 members) before

section Read

variable {depth fuel fuel' : Nat}

def readFrom (depth : Nat) (items : Bytes → Except Fault (List Value × Bytes))
    (members : Bytes → Except Fault (List (String × Value) × Bytes)) (byte : UInt8) (rest : Bytes) :
    Except Fault (Value × Bytes) :=
  if byte = 0x6E then do let rest ← readWord nullTail rest; .ok (.null, rest)
  else if byte = 0x74 then do let rest ← readWord trueTail rest; .ok (.bool true, rest)
  else if byte = 0x66 then do let rest ← readWord falseTail rest; .ok (.bool false, rest)
  else if byte = 0x22 then do let (text, rest) ← readText rest; .ok (.text text, rest)
  else if byte = 0x2D then do
    let (number, rest) ← readNumber false rest
    .ok (readValue.ofNumber number, rest)
  else if isDigit byte then do
    let (number, rest) ← readNumber true (byte :: rest)
    .ok (readValue.ofNumber number, rest)
  else if byte = 0x5B then
    if depth ≤ 1 then failAfter .tooDeep (byte :: rest)
    else do let (items, rest) ← items rest; .ok (.list items, rest)
  else if byte = 0x7B then
    if depth ≤ 1 then failAfter .tooDeep (byte :: rest)
    else do let (members, rest) ← members rest; .ok (.object members, rest)
  else failAfter .expectedValue (byte :: rest)

theorem readValue_succ (depth fuel : Nat) : readValue depth (fuel + 1) =
    fromSolid .endInValue (readFrom depth (readItems (depth - 1) true [] fuel)
      (readMembers (depth - 1) true [] fuel)) := by
  funext bytes
  rw [readValue]
  rfl

theorem ofNumber_ne_null (number : Number) : readValue.ofNumber number ≠ .null := by
  cases number <;> exact nofun

theorem steady_readValue_succ
    (items : ∀ depth first reversed, Steady true (readItems depth first reversed fuel)
      (readItems depth first reversed fuel') fun _ => Lex (.listFrom first))
    (members : ∀ depth first before, Steady true (readMembers depth first before fuel)
      (readMembers depth first before fuel') (IsMembers first before)) (depth : Nat) :
    Steady true (readValue depth (fuel + 1)) (readValue depth (fuel' + 1)) (Spaced IsValue) := by
  rw [readValue_succ, readValue_succ]
  refine steady_fromSolid fun byte _ => ?_
  unfold readFrom
  refine .ite (fun letter => ?null) fun notNull => .ite (fun letter => ?yes) fun _ =>
    .ite (fun letter => ?no) fun _ => .ite (fun quote => ?text) fun _ =>
    .ite (fun minus => ?negative) fun _ => .ite (fun digit => ?positive) fun _ =>
    .ite (fun bracket => .ite (fun _ => .of_fails fun _ => rfl) fun _ => ?list) fun _ =>
    .ite (fun brace => .ite (fun _ => .of_fails fun _ => rfl) fun _ => ?object) fun _ =>
    .of_fails fun _ => rfl
  case null =>
    refine ((passing_readWord nullTail).value Value.null).mono ?_
    rintro _ _ ⟨rfl, rfl⟩
    exact letter ▸ ⟨.nullWord, iff_of_true rfl rfl⟩
  case yes =>
    refine ((passing_readWord trueTail).value (Value.bool true)).mono ?_
    rintro _ _ ⟨rfl, rfl⟩
    exact .of_ne (letter ▸ .trueWord) nofun notNull
  case no =>
    refine ((passing_readWord falseTail).value (Value.bool false)).mono ?_
    rintro _ _ ⟨rfl, rfl⟩
    exact .of_ne (letter ▸ .falseWord) nofun notNull
  case text =>
    refine (steady_readText.looks.wrap Value.text).mono ?_
    rintro _ _ ⟨text, rfl, written, rfl, isText⟩
    exact .of_ne (quote ▸ .text isText.quotable) nofun notNull
  case negative =>
    refine ((steady_readNumber false).wrap readValue.ofNumber).mono ?_
    rintro _ _ ⟨number, rfl, isNumber⟩
    exact .of_ne (minus ▸ isNumber.lex_negative) (ofNumber_ne_null number) notNull
  case positive =>
    refine (((steady_readNumber true).from_cons (fun _ _ => IsNumber.ne_nil) byte).wrap
      readValue.ofNumber).mono ?_
    rintro _ _ ⟨number, rfl, isNumber⟩
    exact .of_ne isNumber.lex (ofNumber_ne_null number) notNull
  case list =>
    refine ((items (depth - 1) true []).wrap Value.list).mono ?_
    rintro _ _ ⟨items, rfl, lex⟩
    exact .of_ne (bracket ▸ .list lex) nofun notNull
  case object =>
    refine ((members (depth - 1) true []).wrap Value.object).mono ?_
    rintro _ _ ⟨items, rfl, _, _, entries, -⟩
    exact .of_ne (brace ▸ .object entries.lex) nofun notNull

theorem steady_readItems_succ
    (value : Steady true (readValue depth fuel) (readValue depth fuel') (Spaced IsValue))
    (items : ∀ reversed, Steady true (readItems depth false reversed fuel)
      (readItems depth false reversed fuel') fun _ => Lex (.listFrom false))
    (first : Bool) (reversed : List Value) :
    Steady true (readItems depth first reversed (fuel + 1))
      (readItems depth first reversed (fuel' + 1)) fun _ => Lex (.listFrom first) where
  taken done := by
    rw [readItems] at done
    obtain ⟨⟨found, middle⟩, next, later⟩ := bind_eq_ok.mp done
    obtain ⟨front, byte, tail, rfl, rfl, shaped⟩ := nextItem_eq_ok next
    cases found with
    | false =>
      obtain ⟨blank, rfl⟩ := shaped
      obtain ⟨rfl, rfl⟩ := Prod.mk.inj (Except.ok.inj later)
      refine ⟨front ++ [0x5D], List.append_cons .., .noItem blank, fun more _ => ?_⟩
      rw [readItems, ← List.append_cons]
      exact bind_eq_ok.mpr ⟨_, nextItem_bracket more blank, rfl⟩
    | true =>
      obtain ⟨separates, solid⟩ := shaped
      obtain ⟨⟨item, tail'⟩, read, last⟩ := bind_eq_ok.mp later
      obtain ⟨written, rfl, ⟨blanks, item', split, blank, whole, -⟩, again⟩ :=
        (value.from_cons (fun _ _ => IsValue.ne_nil) byte).taken read
      obtain ⟨others, rfl, rest, againOthers⟩ := (items _).taken last
      have lex := Lex.item (separates.append blank) whole rest
      rw [List.append_assoc, ← List.append_assoc blanks, ← split] at lex
      refine ⟨front ++ (byte :: written ++ others), by simp, lex, fun more resumes => ?_⟩
      rw [readItems, List.append_assoc, List.cons_append, List.cons_append, List.append_assoc]
      refine bind_eq_ok.mpr ⟨_, nextItem_separates _ separates solid, ?_⟩
      exact bind_eq_ok.mpr ⟨_, again _ (resumes.append _), againOthers more resumes⟩

theorem steady_readMembers_succ
    (value : Steady true (readValue depth fuel) (readValue depth fuel') (Spaced IsValue))
    (members : ∀ before, Steady true (readMembers depth false before fuel)
      (readMembers depth false before fuel') (IsMembers false before))
    (first : Bool) (before : List (String × Value)) :
    Steady true (readMembers depth first before (fuel + 1))
      (readMembers depth first before (fuel' + 1)) (IsMembers first before) where
  taken done := by
    rw [readMembers] at done
    obtain ⟨⟨found, middle⟩, next, later⟩ := bind_eq_ok.mp done
    obtain ⟨front, shaped⟩ := nextKey_eq_ok next
    cases found with
    | false =>
      obtain ⟨blank, tail, rfl, rfl⟩ := shaped
      obtain ⟨rfl, rfl⟩ := Prod.mk.inj (Except.ok.inj later)
      refine ⟨front ++ [0x7D], List.append_cons .., ⟨[], [], .none blank, .nil, rfl⟩, fun more _ => ?_⟩
      rw [readMembers, ← List.append_cons]
      exact bind_eq_ok.mpr ⟨_, nextKey_blank more blank, rfl⟩
    | true =>
      obtain ⟨rfl, separates⟩ := shaped
      obtain ⟨⟨key, named⟩, keyed, later⟩ := bind_eq_ok.mp later
      obtain ⟨colon, passed, later⟩ := bind_eq_ok.mp later
      obtain ⟨⟨item, tail⟩, read, last⟩ := bind_eq_ok.mp later
      obtain ⟨_, rfl, ⟨name, rfl, isText⟩, -⟩ := steady_readText.taken keyed
      obtain ⟨gap, rfl, blank⟩ := readColon_eq_ok passed
      obtain ⟨_, rfl, ⟨blanks, item', rfl, blank', whole, null⟩, again⟩ := value.taken read
      obtain ⟨others, rfl, ⟨entries, read', rest, readFrom, rfl⟩, againOthers⟩ :=
        (members _).taken last
      refine ⟨front ++ 0x22 :: (name ++ 0x22 :: (gap ++ 0x3A :: (blanks ++ (item' ++ others)))),
        by simp, ⟨(key, item') :: entries, (key, item) :: read',
          .some separates isText blank blank' whole rest, .cons null readFrom, rfl⟩,
        fun more resumes => ?_⟩
      have value := again _ (resumes.append others)
      rw [member_append, readMembers]
      refine bind_eq_ok.mpr ⟨_, nextKey_separates _ separates, bind_eq_ok.mpr ⟨_, isText.read _, ?_⟩⟩
      refine bind_eq_ok.mpr ⟨_, readColon_blank _ blank, ?_⟩
      rw [← List.append_assoc blanks]
      exact bind_eq_ok.mpr ⟨_, value, againOthers more resumes⟩

/-- Values, items and members are read alike however many steps more there are to go. -/
theorem steady_read (longer : fuel ≤ fuel') :
    (∀ depth, Steady true (readValue depth fuel) (readValue depth fuel') (Spaced IsValue)) ∧
    (∀ depth first reversed, Steady true (readItems depth first reversed fuel)
      (readItems depth first reversed fuel') fun _ => Lex (.listFrom first)) ∧
    ∀ depth first before, Steady true (readMembers depth first before fuel)
      (readMembers depth first before fuel') (IsMembers first before) := by
  induction fuel generalizing fuel' with
  | zero => exact ⟨fun _ => ⟨nofun⟩, fun _ _ _ => ⟨nofun⟩, fun _ _ _ => ⟨nofun⟩⟩
  | succ fuel ih =>
    obtain ⟨fuel', rfl⟩ : ∃ spare, fuel' = spare + 1 := ⟨fuel' - 1, by omega⟩
    obtain ⟨value, items, members⟩ := ih (Nat.le_of_succ_le_succ longer)
    exact ⟨steady_readValue_succ items members,
      fun depth => steady_readItems_succ (value depth) (items depth false),
      fun depth => steady_readMembers_succ (value depth) (members depth false)⟩

end Read

/-! ## Fields -/

/-- Nothing stands between blanks and a byte that is none. -/
theorem Spaced.solid {α : Type} {shape : α → Bytes → Prop} {value : α} {byte : UInt8} {front : Bytes}
    (spaced : Spaced shape value (byte :: front)) (solid : isBlank byte = false) :
    shape value (byte :: front) := by
  obtain ⟨blanks, item, split, blank, shaped⟩ := spaced
  cases blanks with
  | nil => exact split ▸ shaped
  | cons first blanks =>
    obtain ⟨rfl, -⟩ := List.cons.inj split
    rw [blank byte (List.mem_cons_self ..)] at solid
    contradiction

theorem steady_readString :
    Steady true readString readString (Spaced fun _ => Lex .whole) := by
  refine steady_fromSolid fun byte _ => .ite (fun quote => ?_) fun _ =>
    .of_fails fun _ => toOption_failType _ _
  refine steady_readText.looks.mono ?_
  rintro _ _ ⟨written, rfl, isText⟩
  exact quote ▸ .text isText.quotable

theorem steady_readOptionalString :
    Steady true readOptionalString readOptionalString (Spaced fun _ => Lex .whole) := by
  refine steady_fromSolid fun byte solid => .ite (fun letter => ?_) fun _ => ?_
  · refine ((passing_readWord nullTail).value none).mono ?_
    rintro _ _ ⟨-, rfl⟩
    exact letter ▸ .nullWord
  · refine ((steady_readString.from_cons ?_ byte).wrap some).mono ?_
    · rintro _ _ ⟨blanks, item, rfl, -, whole⟩
      exact List.append_ne_nil_of_right_ne_nil blanks whole.ne_nil
    · rintro _ _ ⟨text, -, spaced⟩
      exact spaced.solid solid

theorem steady_ofNumber {read : Bytes → Except Fault (Number × Bytes)} {shape : Bytes → Prop}
    (steady : Steady true read read fun _ => shape) :
    Steady true (fun bytes => do readStatus.ofNumber (← read bytes))
      (fun bytes => do readStatus.ofNumber (← read bytes)) fun _ => shape where
  taken done := by
    obtain ⟨⟨number, tail⟩, read, last⟩ := bind_eq_ok.mp done
    obtain ⟨front, rfl, shaped, again⟩ := steady.taken read
    cases number with
    | number value => contradiction
    | integer value =>
      rw [readStatus.ofNumber] at last
      split at last
      · next status fits =>
        obtain ⟨rfl, rfl⟩ := Prod.mk.inj (Except.ok.inj last)
        refine ⟨front, rfl, shaped, fun more resumes => ?_⟩
        refine bind_eq_ok.mpr ⟨_, again more resumes, ?_⟩
        simp only [readStatus.ofNumber, fits]
      · contradiction

theorem steady_readStatus : Steady true readStatus readStatus (Spaced fun _ => Lex .whole) := by
  refine steady_fromSolid fun byte _ => .ite (fun minus => ?_) fun _ => .ite (fun digit => ?_) fun _ =>
    .of_fails fun _ => toOption_failType _ _
  · refine (steady_ofNumber (steady_readNumber false)).mono fun _ _ number => ?_
    exact minus ▸ number.lex_negative
  · refine (steady_ofNumber ((steady_readNumber true).from_cons (fun _ _ => IsNumber.ne_nil) byte)).mono
      fun _ _ number => ?_
    exact number.lex

/-- Headers and the bytes that they were read from. -/
def AreHeaders (headers : Option Headers) (item : Bytes) : Prop :=
  ∃ entries?, IsHeaders entries? item ∧ AccountsFor IsNull entries? headers

theorem steady_readHeaders (depth : Nat) :
    Steady true (readHeaders depth) (readHeaders depth) (Spaced AreHeaders) := by
  refine steady_fromSolid fun byte _ => .ite (fun letter => ?_) fun _ => .ite (fun brace => ?_) fun _ =>
    .of_fails fun _ => toOption_failType _ _
  · refine ((passing_readWord nullTail).value none).mono ?_
    rintro _ _ ⟨rfl, rfl⟩
    exact letter ▸ ⟨none, .null, trivial⟩
  · refine .ite (fun _ => .of_fails fun _ => rfl) fun _ => ?_
    have steady := Steady.bounded
      (fun longer => (steady_read longer).2.2 (depth - 1) true []) stepBound_mono
    refine (steady.wrap fun members => some (headersOf members)).mono ?_
    rintro _ _ ⟨_, rfl, entries, read, within, readFrom, rfl⟩
    exact brace ▸ ⟨some entries, .object within, readFrom.find?_eq_none⟩

theorem steady_readField (depth : Nat) (kind : FieldKind) :
    Steady true (readField depth kind) (readField depth kind) (Spaced (IsField shapes kind)) := by
  cases kind with
  | text =>
    refine (steady_readString.map FieldValue.text).mono ?_
    rintro _ _ ⟨text, rfl, blanks, item, rfl, blank, whole⟩
    exact ⟨blanks, item, rfl, blank, rfl, whole, nofun⟩
  | status =>
    refine (steady_readStatus.map FieldValue.status).mono ?_
    rintro _ _ ⟨status, rfl, blanks, item, rfl, blank, whole⟩
    exact ⟨blanks, item, rfl, blank, rfl, whole, nofun⟩
  | optionalText =>
    refine (steady_readOptionalString.map FieldValue.optionalText).mono ?_
    rintro _ _ ⟨text, rfl, blanks, item, rfl, blank, whole⟩
    exact ⟨blanks, item, rfl, blank, rfl, whole, nofun⟩
  | headers =>
    refine ((steady_readHeaders depth).map FieldValue.headers).mono ?_
    rintro _ _ ⟨headers, rfl, blanks, item, rfl, blank, entries?, isHeaders, accounts⟩
    refine ⟨blanks, item, rfl, blank, rfl, isHeaders.lex, ?_⟩
    rintro _ ⟨⟩
    exact ⟨entries?, isHeaders, accounts⟩

end FramedTasks.Json
