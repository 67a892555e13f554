import FramedTasks.Text.Utf8

/-! # Lines of bytes

A line is a run of bytes up to and with a line feed. The bytes after the last line feed, if there
are any, form a last line of their own.
-/

namespace FramedTasks.Lines

def lineFeed : UInt8 := 10

def isInside (byte : UInt8) : Bool := byte != lineFeed

/-- The first line of some bytes if its line feed is there, and the bytes after it. -/
def firstComplete? (bytes : Bytes) : Option (Bytes × Bytes) :=
  match bytes.dropWhile isInside with
  | [] => none
  | feed :: rest => some (bytes.takeWhile isInside ++ [feed], rest)

/-- The first line of some bytes and the bytes after it; no bytes have no line. -/
def first? (bytes : Bytes) : Option (Bytes × Bytes) :=
  match firstComplete? bytes with
  | some found => some found
  | none => if bytes.isEmpty then none else some (bytes, [])

theorem append_of_firstComplete? {bytes line rest : Bytes}
    (found : firstComplete? bytes = some (line, rest)) : line ++ rest = bytes ∧ line ≠ [] := by
  unfold firstComplete? at found
  split at found
  · simp at found
  · next shape =>
    obtain ⟨rfl, rfl⟩ := Prod.mk.inj (Option.some.inj found)
    refine ⟨?_, by simp⟩
    rw [List.append_assoc, List.singleton_append, ← shape, List.takeWhile_append_dropWhile]

theorem append_of_first? {bytes line rest : Bytes} (found : first? bytes = some (line, rest)) :
    line ++ rest = bytes ∧ line ≠ [] := by
  unfold first? at found
  split at found
  · next complete => exact append_of_firstComplete? (complete.trans found)
  · split at found
    · simp at found
    · next nonempty =>
      obtain ⟨rfl, rfl⟩ := Prod.mk.inj (Option.some.inj found)
      exact ⟨List.append_nil _, by simpa using nonempty⟩

theorem length_of_first? {bytes line rest : Bytes} (found : first? bytes = some (line, rest)) :
    rest.length < bytes.length := by
  obtain ⟨rfl, nonempty⟩ := append_of_first? found
  have := List.length_pos_iff.mpr nonempty
  simp
  omega

/-- Whether a character belongs to the end of a line. -/
def isEnding (c : Char) : Bool := c == '\n' || c == '\r'

/-- A text without the line feeds and carriage returns at its end. -/
def dropEnding (text : String) : String :=
  String.ofList (text.toList.reverse.dropWhile isEnding).reverse

/-- A text without the line feed at its end, and without a carriage return before that. -/
def dropBreak (text : String) : String :=
  match text.toList.reverse with
  | '\n' :: '\r' :: front => String.ofList front.reverse
  | '\n' :: front => String.ofList front.reverse
  | _ => text

/-- The text of a line, each ill-formed piece shown as one replacement character. -/
def lenientText (line : Bytes) : String := dropEnding (Utf8.decodeLenient line)

/-- The text of a line, if its bytes are well-formed. -/
def text? (line : Bytes) : Option String := (Utf8.decode line).toOption.map dropEnding

end FramedTasks.Lines
