import Mathlib.Data.List.TakeWhile
import FramedTasks.Text.Blank

/-! # White space around a text

What `trimChars` leaves of a text has white space around it there (`exists_trimChars`) and none at
its own ends (`bareEnds_trimChars`). Only one part of a text is like that (`trimChars_eq`), so a
reader who leaves white space out finds what was written between white space, also where that has
white space inside.
-/

namespace FramedTasks

variable {chars core : List Char}

/-- White space at the end of a text is left out. -/
theorem trimChars_append_blank (front : List Char) {back : List Char}
    (blank : ∀ c ∈ back, isBlank c = true) : trimChars (front ++ back) = trimChars front := by
  have gone : back.dropWhile isBlank = [] := List.dropWhile_eq_nil_iff.mpr blank
  simp only [trimChars, List.dropWhile_append]
  split
  · next alone => rw [gone, List.isEmpty_iff.mp alone]
  · rw [List.reverse_append, List.dropWhile_append_of_pos (by simpa using blank)]

/-- Neither the first character nor the last one is white space. -/
def BareEnds (chars : List Char) : Prop :=
  (∀ c ∈ chars.head?, isBlank c = false) ∧ ∀ c ∈ chars.getLast?, isBlank c = false

theorem BareEnds.of_solid (solid : ∀ c ∈ chars, isBlank c = false) : BareEnds chars :=
  ⟨fun c first => solid c (List.mem_of_mem_head? first),
    fun c last => solid c (List.mem_of_getLast? last)⟩

/-- The first character behind white space is none. -/
theorem isBlank_of_mem_head? (chars : List Char) :
    ∀ c ∈ (chars.dropWhile isBlank).head?, isBlank c = false := by
  intro c first
  have visible := List.head?_dropWhile_not isBlank chars
  rwa [Option.mem_def.mp first] at visible

/-- Characters without white space at their ends stay. -/
theorem BareEnds.trimChars_eq (bare : BareEnds chars) : trimChars chars = chars := by
  have kept {chars : List Char} (visible : ∀ c ∈ chars.head?, isBlank c = false) :
      chars.dropWhile isBlank = chars := by
    cases chars with
    | nil => rfl
    | cons first rest => exact List.dropWhile_cons_of_neg (by simp [visible first rfl])
  have visibleBack : ∀ c ∈ chars.reverse.head?, isBlank c = false := by
    rw [List.head?_reverse]
    exact bare.2
  rw [trimChars, kept bare.1, kept visibleBack, List.reverse_reverse]

/-- What is left of a text has white space before and after it there, and nothing else. -/
theorem exists_trimChars (chars : List Char) :
    ∃ before after, (∀ c ∈ before, isBlank c = true) ∧ (∀ c ∈ after, isBlank c = true) ∧
      chars = before ++ (trimChars chars ++ after) := by
  refine ⟨chars.takeWhile isBlank, ((chars.dropWhile isBlank).reverse.takeWhile isBlank).reverse,
    fun c member => List.mem_takeWhile_imp member,
    fun c member => List.mem_takeWhile_imp (List.mem_reverse.mp member), ?_⟩
  rw [trimChars, ← List.reverse_append, List.takeWhile_append_dropWhile, List.reverse_reverse,
    List.takeWhile_append_dropWhile]

theorem bareEnds_trimChars (chars : List Char) : BareEnds (trimChars chars) := by
  let behind := chars.dropWhile isBlank
  have whole : behind = trimChars chars ++ (behind.reverse.takeWhile isBlank).reverse := by
    rw [trimChars, ← List.reverse_append, List.takeWhile_append_dropWhile, List.reverse_reverse]
  constructor
  · intro c first
    -- it is the first character behind the white space as well
    refine isBlank_of_mem_head? chars c ?_
    rw [show chars.dropWhile isBlank = behind from rfl, whole, List.head?_append,
      Option.mem_def.mp first]
    rfl
  · intro c last
    rw [trimChars, List.getLast?_reverse] at last
    exact isBlank_of_mem_head? _ c last

/-- What is left of a text is the part without white space at its ends that only white space
surrounds. -/
theorem trimChars_eq (bare : BareEnds core) :
    trimChars chars = core ↔
      ∃ before after, (∀ c ∈ before, isBlank c = true) ∧ (∀ c ∈ after, isBlank c = true) ∧
        chars = before ++ (core ++ after) := by
  constructor
  · rintro rfl
    exact exists_trimChars chars
  · rintro ⟨before, after, blankBefore, blankAfter, rfl⟩
    calc
      trimChars (before ++ (core ++ after)) = trimChars (before ++ core) := by
        rw [← List.append_assoc, trimChars_append_blank _ blankAfter]
      _ = trimChars core := by rw [trimChars, List.dropWhile_append_of_pos blankBefore, trimChars]
      _ = core := bare.trimChars_eq

/-- Nothing is left of a text of white space alone. -/
theorem trimChars_eq_nil : trimChars chars = [] ↔ ∀ c ∈ chars, isBlank c = true := by
  rw [trimChars_eq (.of_solid (List.forall_mem_nil _))]
  constructor
  · rintro ⟨before, after, blankBefore, blankAfter, rfl⟩
    exact List.forall_mem_append.mpr ⟨blankBefore, blankAfter⟩
  · intro blank
    exact ⟨chars, [], blank, List.forall_mem_nil _, (List.append_nil chars).symm⟩

end FramedTasks
