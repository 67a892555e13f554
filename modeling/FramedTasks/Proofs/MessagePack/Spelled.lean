import FramedTasks.Proofs.MessagePack.Grammar

/-! # Every item of a value is read and skipped

A reader takes any item of a value to the value with its members in key order, and leaves the bytes
after it; passing over the item leaves the same bytes. Both are shown part by part, along the item.
-/

namespace FramedTasks.MessagePack

open Json (Value itemNesting memberNesting orderedItems orderedMembers)

section Text

variable {text : String} {bytes : Bytes} (spells : SpellsText text bytes) (rest : Bytes)
include spells

/-- A text starts with a head that gives its length. -/
theorem SpellsText.split : ∃ head, ReadsHead head (.text (Utf8.encode text).length) ∧
    bytes ++ rest = head ++ (Utf8.encode text ++ rest) := by
  cases spells with
  | @intro head spelled => exact ⟨head, spelled.reads, List.append_assoc ..⟩

theorem readString_spelled (depth : Nat) : readString depth (bytes ++ rest) = .ok (text, rest) := by
  obtain ⟨head, reads, split⟩ := spells.split rest
  rw [split, readString, reads.readItemHead]
  exact readStringContent_encode rest depth

theorem readKey_spelled (depth : Nat) : readKey depth (bytes ++ rest) = .ok (text, rest) := by
  obtain ⟨head, reads, split⟩ := spells.split rest
  rw [split, readKey, reads.readItemHead]
  exact readStringContent_encode rest depth

theorem readValue_spelledText (depth fuel : Nat) :
    readValue depth (fuel + 1) (bytes ++ rest) = .ok (.text text, rest) := by
  obtain ⟨head, reads, split⟩ := spells.split rest
  simp only [split, readValue, reads.readItemHead, bind, Except.bind, readStringContent_encode]

theorem skipItem_spelledText (depth fuel : Nat) :
    skipItem depth (fuel + 1) (bytes ++ rest) = .ok rest := by
  obtain ⟨head, reads, split⟩ := spells.split rest
  simp only [split, skipItem, reads.readItemHead, bind, Except.bind, readContent_append]

end Text

theorem enter_of_lt {depth : Nat} (deep : 1 < depth) : enter depth = .ok (depth - 1) :=
  if_neg (Nat.not_le.mpr deep)

/-- A part is read from some bytes, however deep it stands and whatever follows. -/
def Part.IsRead : Part → Bytes → Prop
  | .whole value, bytes => ∀ depth fuel rest, value.nesting < depth → 2 * bytes.length ≤ fuel + 1 →
      readValue depth (fuel + 1) (bytes ++ rest) = .ok (value.ordered, rest)
  | .listItems items, bytes => ∀ depth fuel reversed rest, itemNesting items < depth →
      2 * bytes.length ≤ fuel →
      readItems depth items.length reversed (fuel + 1) (bytes ++ rest) =
        .ok (reversed.reverse ++ orderedItems items, rest)
  | .objectMembers members, bytes => ∀ depth fuel strict before rest,
      memberNesting members < depth → 2 * bytes.length ≤ fuel →
      readMembers depth strict members.length before (fuel + 1) (bytes ++ rest) =
        .ok ((orderedMembers members).foldl
          (fun members entry => Keyed.insert entry.1 entry.2 members) before, rest)

/-- Every item of a part is read. -/
theorem Spells.isRead {part : Part} {bytes : Bytes} (spells : Spells part bytes) :
    part.IsRead bytes := by
  induction spells with
  | nil head =>
    intro depth fuel rest _ _
    rw [readValue, head.reads.readItemHead]
    rfl
  | bool head =>
    intro depth fuel rest _ _
    rw [readValue, head.reads.readItemHead]
    rfl
  | @integer value number head spelled integer =>
    intro depth fuel rest _ _
    rw [readValue, spelled.reads.readItemHead]
    cases number with
    | unsigned magnitude =>
      obtain rfl := Option.some.inj integer
      rfl
    | signed code =>
      obtain rfl := Option.some.inj integer
      rfl
    | _ => contradiction
  | text spelled => exact fun depth fuel rest _ _ => readValue_spelledText spelled rest depth fuel
  | @list items head bytes spelled _ read =>
    intro depth fuel rest shallow enough
    have positive := spelled.length_pos
    rw [Value.nesting] at shallow
    rw [List.length_append] at enough
    obtain ⟨spare, rfl⟩ : ∃ spare, fuel = spare + 1 := ⟨fuel - 1, by omega⟩
    have inner := read (depth - 1) spare [] rest (by omega) (by omega)
    simp only [List.append_assoc, readValue, spelled.reads.readItemHead, bind, Except.bind,
      enter_of_lt (show 1 < depth by omega), inner]
    rfl
  | @object members head bytes spelled _ read =>
    intro depth fuel rest shallow enough
    have positive := spelled.length_pos
    rw [Value.nesting] at shallow
    rw [List.length_append] at enough
    obtain ⟨spare, rfl⟩ : ∃ spare, fuel = spare + 1 := ⟨fuel - 1, by omega⟩
    have inner := read (depth - 1) spare true [] rest (by omega) (by omega)
    simp only [List.append_assoc, readValue, spelled.reads.readItemHead, bind, Except.bind,
      enter_of_lt (show 1 < depth by omega), inner]
    rfl
  | noItem =>
    intro depth fuel reversed rest _ _
    rw [orderedItems, List.append_nil]
    rfl
  | @item item items bytes more spelled _ readItem readOthers =>
    intro depth fuel reversed rest shallow enough
    have positive := spelled.length_pos
    rw [itemNesting] at shallow
    rw [List.length_append] at enough
    obtain ⟨spare, rfl⟩ : ∃ spare, fuel = spare + 1 := ⟨fuel - 1, by omega⟩
    have first := readItem depth spare (more ++ rest) (by omega) (by omega)
    have others := readOthers depth spare (item.ordered :: reversed) rest (by omega) (by omega)
    have some : ¬ items.length + 1 = 0 := Nat.succ_ne_zero _
    rw [List.length_cons, List.append_assoc, readItems, if_neg some]
    simp only [bind, Except.bind, first, Nat.add_sub_cancel, others, orderedItems,
      List.reverse_cons, List.append_assoc, List.singleton_append]
  | noMember => exact fun _ _ _ _ _ _ _ => rfl
  | @member key value members name bytes more named spelled _ readWhole readOthers =>
    intro depth fuel strict before rest shallow enough
    have positive := spelled.length_pos
    rw [memberNesting] at shallow
    rw [List.length_append, List.length_append] at enough
    obtain ⟨spare, rfl⟩ : ∃ spare, fuel = spare + 1 := ⟨fuel - 1, by omega⟩
    have first := readWhole depth spare (more ++ rest) (by omega) (by omega)
    have others := readOthers depth spare false (Keyed.insert key value.ordered before) rest
      (by omega) (by omega)
    have some : ¬ members.length + 1 = 0 := Nat.succ_ne_zero _
    rw [List.length_cons, List.append_assoc, List.append_assoc, readMembers, if_neg some]
    cases strict with
    | true =>
      simp only [if_true, readKey_spelled named, bind, Except.bind, first, Nat.add_sub_cancel, others]
      rfl
    | false =>
      simp only [Bool.false_eq_true, if_false, readString_spelled named, bind, Except.bind, first,
        Nat.add_sub_cancel, others]
      rfl

/-- A part is passed over, however deep it stands and whatever follows. -/
def Part.IsSkipped : Part → Bytes → Prop
  | .whole value, bytes => ∀ depth fuel rest, value.nesting < depth → 2 * bytes.length ≤ fuel + 1 →
      skipItem depth (fuel + 1) (bytes ++ rest) = .ok rest
  | .listItems items, bytes => ∀ depth fuel rest, itemNesting items < depth →
      2 * bytes.length ≤ fuel → skipItems depth items.length (fuel + 1) (bytes ++ rest) = .ok rest
  | .objectMembers members, bytes => ∀ depth fuel rest, memberNesting members < depth →
      2 * bytes.length ≤ fuel →
      skipItems depth (2 * members.length) (fuel + 1) (bytes ++ rest) = .ok rest

theorem skipItems_succ {depth count fuel : Nat} {bytes rest : Bytes}
    (skipped : skipItem depth fuel bytes = .ok rest) :
    skipItems depth (count + 1) (fuel + 1) bytes = skipItems depth count fuel rest := by
  rw [skipItems, if_neg (Nat.succ_ne_zero count), skipped]
  rfl

/-- Every item of a part is passed over. -/
theorem Spells.isSkipped {part : Part} {bytes : Bytes} (spells : Spells part bytes) :
    part.IsSkipped bytes := by
  induction spells with
  | nil head =>
    intro depth fuel rest _ _
    rw [skipItem, head.reads.readItemHead]
    rfl
  | bool head =>
    intro depth fuel rest _ _
    rw [skipItem, head.reads.readItemHead]
    rfl
  | @integer value number head spelled integer =>
    intro depth fuel rest _ _
    rw [skipItem, spelled.reads.readItemHead]
    cases number with
    | unsigned magnitude => rfl
    | signed code => rfl
    | _ => contradiction
  | text spelled => exact fun depth fuel rest _ _ => skipItem_spelledText spelled rest depth fuel
  | @list items head bytes spelled _ skipped =>
    intro depth fuel rest shallow enough
    have positive := spelled.length_pos
    rw [Value.nesting] at shallow
    rw [List.length_append] at enough
    obtain ⟨spare, rfl⟩ : ∃ spare, fuel = spare + 1 := ⟨fuel - 1, by omega⟩
    simp only [List.append_assoc, skipItem, spelled.reads.readItemHead, bind, Except.bind,
      enter_of_lt (show 1 < depth by omega)]
    exact skipped (depth - 1) spare rest (by omega) (by omega)
  | @object members head bytes spelled _ skipped =>
    intro depth fuel rest shallow enough
    have positive := spelled.length_pos
    rw [Value.nesting] at shallow
    rw [List.length_append] at enough
    obtain ⟨spare, rfl⟩ : ∃ spare, fuel = spare + 1 := ⟨fuel - 1, by omega⟩
    simp only [List.append_assoc, skipItem, spelled.reads.readItemHead, bind, Except.bind,
      enter_of_lt (show 1 < depth by omega)]
    exact skipped (depth - 1) spare rest (by omega) (by omega)
  | noItem | noMember => exact fun _ _ _ _ _ => rfl
  | @item item items bytes more spelled _ skippedItem skippedOthers =>
    intro depth fuel rest shallow enough
    have positive := spelled.length_pos
    rw [itemNesting] at shallow
    rw [List.length_append] at enough
    obtain ⟨spare, rfl⟩ : ∃ spare, fuel = spare + 1 := ⟨fuel - 1, by omega⟩
    have first := skippedItem depth spare (more ++ rest) (by omega) (by omega)
    rw [List.length_cons, List.append_assoc, skipItems_succ first]
    exact skippedOthers depth spare rest (by omega) (by omega)
  | @member key value members name bytes more named spelled _ skippedWhole skippedOthers =>
    intro depth fuel rest shallow enough
    have positive := spelled.length_pos
    have positive' := named.length_pos
    rw [memberNesting] at shallow
    rw [List.length_append, List.length_append] at enough
    obtain ⟨spare, rfl⟩ : ∃ spare, fuel = spare + 1 + 1 := ⟨fuel - 2, by omega⟩
    have first := skipItem_spelledText named (bytes ++ (more ++ rest)) depth (spare + 1)
    have second := skippedWhole depth spare (more ++ rest) (by omega) (by omega)
    have count : 2 * (members.length + 1) = 2 * members.length + 1 + 1 := by omega
    rw [List.length_cons, count, List.append_assoc, List.append_assoc, skipItems_succ first,
      skipItems_succ second]
    exact skippedOthers depth spare rest (by omega) (by omega)

end FramedTasks.MessagePack
