import FramedTasks.Proofs.Text.Blank
import FramedTasks.Proofs.Text.Utf8
import FramedTasks.Text.Lines

/-! # The lines of a text

`separated` is what stands between line feeds, in a text or in its bytes. A line feed is one byte
that occurs in no other character, so that the lines of the bytes of a text are the bytes of its
lines (`separated_encodeChars`), however the bytes are cut. Where a line ends is white space, which
is why it does not matter to a reader who leaves white space out how much of the end he strips.
-/

namespace FramedTasks

namespace Lines

theorem isBlank_of_isEnding {c : Char} (ending : isEnding c = true) : isBlank c = true := by
  simp only [isEnding, Bool.or_eq_true, beq_iff_eq] at ending
  rcases ending with rfl | rfl <;> decide

theorem trimChars_dropEnding (text : String) :
    trimChars (dropEnding text).toList = trimChars text.toList := by
  have whole : text.toList = (text.toList.reverse.dropWhile isEnding).reverse ++
      (text.toList.reverse.takeWhile isEnding).reverse := by
    rw [← List.reverse_append, List.takeWhile_append_dropWhile, List.reverse_reverse]
  have blank : ∀ c ∈ (text.toList.reverse.takeWhile isEnding).reverse, isBlank c = true := by
    intro c member
    exact isBlank_of_isEnding (List.mem_takeWhile_imp (List.mem_reverse.mp member))
  have same := trimChars_append_blank (text.toList.reverse.dropWhile isEnding).reverse blank
  rw [← whole] at same
  rw [same, dropEnding, String.toList_ofList]

theorem trimChars_dropBreak (text : String) :
    trimChars (dropBreak text).toList = trimChars text.toList := by
  have front (chars back : List Char) (whole : text.toList.reverse = back.reverse ++ chars)
      (blank : ∀ c ∈ back, isBlank c = true) : trimChars chars.reverse = trimChars text.toList := by
    have same := trimChars_append_blank chars.reverse blank
    rw [← same, ← List.reverse_reverse text.toList, whole, List.reverse_append, List.reverse_reverse]
  simp only [dropBreak]
  split
  · next chars whole =>
    rw [String.toList_ofList]
    refine front chars ['\r', '\n'] whole fun c member => isBlank_of_isEnding ?_
    simpa [isEnding, or_comm] using member
  · next chars _ whole =>
    rw [String.toList_ofList]
    refine front chars ['\n'] whole fun c member => isBlank_of_isEnding ?_
    rw [List.mem_singleton.mp member]
    rfl
  · rfl

section Separated

variable {α : Type}

/-- The same lines, the first of which has more in front; it is a line of its own if there is none. -/
def prepend (front : List α) : List (List α) → List (List α)
  | [] => [front]
  | line :: lines => (front ++ line) :: lines

theorem prepend_append (first second : List α) (lines : List (List α)) :
    prepend (first ++ second) lines = prepend first (prepend second lines) := by
  cases lines <;> simp [prepend]

variable [DecidableEq α] {feed : α}

/-- What stands before each feed, and behind the last one if anything does. -/
def separated (feed : α) : List α → List (List α)
  | [] => []
  | first :: rest =>
    if first = feed then [] :: separated feed rest else prepend [first] (separated feed rest)

theorem separated_append_inside {front : List α} (inside : ∀ x ∈ front, x ≠ feed)
    (nonempty : front ≠ []) (rest : List α) :
    separated feed (front ++ rest) = prepend front (separated feed rest) := by
  induction front with
  | nil => contradiction
  | cons first front ih =>
    obtain ⟨other, inside⟩ := List.forall_mem_cons.mp inside
    rw [List.cons_append, separated, if_neg other]
    cases front with
    | nil => rfl
    | cons second front => rw [ih inside (by simp), ← prepend_append, List.singleton_append]

/-- A line with its feed. -/
theorem separated_append_feed {front : List α} (inside : ∀ x ∈ front, x ≠ feed) (rest : List α) :
    separated feed (front ++ feed :: rest) = front :: separated feed rest := by
  have fed : separated feed (feed :: rest) = [] :: separated feed rest := by rw [separated, if_pos rfl]
  cases front with
  | nil => exact fed
  | cons first front => rw [separated_append_inside inside (by simp), fed, prepend, List.append_nil]

/-- A last line without a feed. -/
theorem separated_inside {front : List α} (inside : ∀ x ∈ front, x ≠ feed) (nonempty : front ≠ []) :
    separated feed front = [front] := by
  have alone := separated_append_inside inside nonempty []
  rwa [List.append_nil] at alone

end Separated

/-- The byte of a line feed occurs in no other character. -/
theorem ne_lineFeed_of_encodeChar {c : Char} (other : c ≠ '\n') :
    ∀ byte ∈ String.utf8EncodeChar c, byte ≠ lineFeed := by
  have apart : c.val.toNat ≠ 10 := by
    intro same
    apply other
    rw [← Char.ofNat_toNat c]
    exact congrArg Char.ofNat same
  have valid : c.val.toNat < 0xD800 ∨ 0xDFFF < c.val.toNat ∧ c.val.toNat < 0x110000 := c.valid
  have distinct {number : Nat} (small : number < 256) (others : number ≠ 10) :
      UInt8.ofNat number ≠ lineFeed := by
    intro same
    have values := congrArg UInt8.toNat same
    rw [UInt8.toNat_ofNat', Nat.mod_eq_of_lt small] at values
    exact others values
  unfold String.utf8EncodeChar
  generalize c.val.toNat = code at apart valid
  simp only
  split
  · simp only [List.mem_singleton, forall_eq]
    exact distinct (by omega) apart
  split
  · simp only [List.mem_cons, List.not_mem_nil, or_false, forall_eq_or_imp, forall_eq]
    exact ⟨distinct (by omega) (by omega), distinct (by omega) (by omega)⟩
  split
  · simp only [List.mem_cons, List.not_mem_nil, or_false, forall_eq_or_imp, forall_eq]
    exact ⟨distinct (by omega) (by omega), distinct (by omega) (by omega),
      distinct (by omega) (by omega)⟩
  · simp only [List.mem_cons, List.not_mem_nil, or_false, forall_eq_or_imp, forall_eq]
    exact ⟨distinct (by omega) (by omega), distinct (by omega) (by omega),
      distinct (by omega) (by omega), distinct (by omega) (by omega)⟩

theorem map_prepend (front : List Char) (lines : List (List Char)) :
    (prepend front lines).map Utf8.encodeChars =
      prepend (Utf8.encodeChars front) (lines.map Utf8.encodeChars) := by
  cases lines with
  | nil => rfl
  | cons line lines => rw [prepend, List.map_cons, Utf8.encodeChars_append, List.map_cons, prepend]

/-- The lines of the bytes are the bytes of the lines. -/
theorem separated_encodeChars (chars : List Char) :
    separated lineFeed (Utf8.encodeChars chars) = (separated '\n' chars).map Utf8.encodeChars := by
  induction chars with
  | nil => rfl
  | cons c rest ih =>
    rw [Utf8.encodeChars, List.flatMap_cons]
    by_cases feeds : c = '\n'
    · subst feeds
      rw [separated, if_pos rfl, List.map_cons, ← ih]
      exact @separated_append_feed _ _ _ [] (by simp) _
    · have nonempty : String.utf8EncodeChar c ≠ [] := by
        intro empty
        have lengths := String.length_utf8EncodeChar c
        rw [empty, List.length_nil] at lengths
        exact absurd lengths.symm (Nat.ne_of_gt c.utf8Size_pos)
      rw [separated_append_inside (ne_lineFeed_of_encodeChar feeds) nonempty, separated, if_neg feeds,
        map_prepend, ← ih]
      simp only [Utf8.encodeChars, List.flatMap_cons, List.flatMap_nil, List.append_nil]

section Buffer

variable {buffer line rest more : Bytes} {lines : List (List Char)}

/-- The bytes of a line, with or without its line feed, are those of a text that differs from the
line by white space at its end. -/
theorem chars_of_line {chars : List Char} (spelled : line = Utf8.encodeChars chars ∨
    line = Utf8.encodeChars chars ++ [lineFeed]) :
    ∃ text : String, line = Utf8.encode text ∧ trimChars text.toList = trimChars chars := by
  rcases spelled with rfl | rfl
  · refine ⟨String.ofList chars, ?_, ?_⟩
    · rw [Utf8.encode, String.toList_ofList]
    · rw [String.toList_ofList]
  · refine ⟨String.ofList (chars ++ ['\n']), ?_, ?_⟩
    · rw [Utf8.encode, String.toList_ofList, Utf8.encodeChars_append]
      rfl
    · rw [String.toList_ofList]
      refine trimChars_append_blank chars fun c member => isBlank_of_isEnding ?_
      rw [List.mem_singleton.mp member]
      rfl

/-- A complete line ends in the only line feed that it has. -/
theorem eq_of_complete (found : firstComplete? buffer = some (line, rest)) :
    ∃ front, (∀ byte ∈ front, byte ≠ lineFeed) ∧ line = front ++ [lineFeed] ∧
      buffer = front ++ lineFeed :: rest := by
  unfold firstComplete? at found
  split at found
  · simp at found
  · next feed behind shape =>
    obtain ⟨rfl, rfl⟩ := Prod.mk.inj (Option.some.inj found)
    have feeds : feed = lineFeed := by
      have stops := @List.head_dropWhile_not _ isInside buffer (by simp [shape])
      simpa [shape, isInside] using stops
    subst feeds
    refine ⟨buffer.takeWhile isInside, fun byte member => ?_, rfl, ?_⟩
    · simpa [isInside] using List.mem_takeWhile_imp member
    · rw [← shape, List.takeWhile_append_dropWhile]

/-- A buffer without a complete line has no line feed. -/
theorem inside_of_incomplete (missing : firstComplete? buffer = none) :
    ∀ byte ∈ buffer, byte ≠ lineFeed := by
  unfold firstComplete? at missing
  split at missing
  · next gone =>
    intro byte member
    simpa [isInside] using List.dropWhile_eq_nil_iff.mp gone byte member
  · simp at missing

/-- A line that is complete in a buffer is the first one of the bytes that begin with the buffer. -/
theorem separated_of_complete (found : firstComplete? buffer = some (line, rest)) (more : Bytes) :
    ∃ front, line = front ++ [lineFeed] ∧
      separated lineFeed (buffer ++ more) = front :: separated lineFeed (rest ++ more) := by
  obtain ⟨front, inside, rfl, rfl⟩ := eq_of_complete found
  refine ⟨front, rfl, ?_⟩
  rw [List.append_assoc, List.cons_append]
  exact separated_append_feed inside _

/-- The bytes of a buffer without a complete line are at most one line. -/
theorem separated_of_incomplete (missing : firstComplete? buffer = none) (nonempty : buffer ≠ []) :
    separated lineFeed buffer = [buffer] :=
  separated_inside (inside_of_incomplete missing) nonempty

/-- Taking a complete line out of a buffer takes the first one off the lines to come. -/
theorem lines_of_complete (found : firstComplete? buffer = some (line, rest))
    (whole : separated lineFeed (buffer ++ more) = lines.map Utf8.encodeChars) :
    ∃ chars others text, lines = chars :: others ∧ line = Utf8.encode text ∧
      trimChars text.toList = trimChars chars ∧
      separated lineFeed (rest ++ more) = others.map Utf8.encodeChars := by
  obtain ⟨front, rfl, first⟩ := separated_of_complete found more
  rw [first] at whole
  obtain ⟨chars, others, rfl, rfl, remains⟩ := List.map_eq_cons_iff.mp whole.symm
  obtain ⟨text, spelled, same⟩ := @chars_of_line _ chars (.inr rfl)
  exact ⟨chars, others, text, rfl, spelled, same, remains.symm⟩

/-- The end of the input makes a last line of what is left in a buffer. -/
theorem lines_of_incomplete (missing : firstComplete? buffer = none) (nonempty : buffer ≠ [])
    (whole : separated lineFeed buffer = lines.map Utf8.encodeChars) :
    ∃ chars text, lines = [chars] ∧ buffer = Utf8.encode text ∧
      trimChars text.toList = trimChars chars := by
  rw [separated_of_incomplete missing nonempty] at whole
  obtain ⟨chars, others, rfl, rfl, remains⟩ := List.map_eq_cons_iff.mp whole.symm
  obtain rfl : others = [] := List.map_eq_nil_iff.mp remains
  obtain ⟨text, spelled, same⟩ := @chars_of_line _ chars (.inl rfl)
  exact ⟨chars, text, rfl, spelled, same⟩

end Buffer

end Lines

end FramedTasks
