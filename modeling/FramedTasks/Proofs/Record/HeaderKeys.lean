import Mathlib.Data.List.Induction
import FramedTasks.Proofs.Record.Values

/-! # Headers by their keys

What stands under a key of an ordered list is the last value that was put there, whatever was put
under other keys before or after (`Keyed.find?_ofList`). Headers are taken from such a list, so the
last value under a key alone decides whether the key is kept and which text it has
(`Json.find?_headersOf`).
-/

namespace FramedTasks

namespace Keyed

variable {α : Type} {key : String} {entries : List (String × α)}

def last? (key : String) (entries : List (String × α)) : Option α :=
  ((entries.filter fun entry => entry.1 == key).getLast?).map (·.2)

theorem last?_cons (key : String) (entry : String × α) (entries : List (String × α)) :
    last? key (entry :: entries) =
      (last? key entries).or (if entry.1 = key then some entry.2 else none) := by
  rw [last?, last?, List.filter_cons]
  by_cases same : entry.1 = key
  · rw [if_pos (beq_iff_eq.mpr same), if_pos same, List.getLast?_cons]
    cases (entries.filter fun entry => entry.1 == key).getLast? <;> rfl
  · rw [if_neg (mt beq_iff_eq.mp same), if_neg same, Option.or_none]

theorem last?_append_singleton (key : String) (entries : List (String × α)) (entry : String × α) :
    last? key (entries ++ [entry]) = if entry.1 = key then some entry.2 else last? key entries := by
  rw [last?, List.filter_append]
  by_cases same : entry.1 = key
  · simp [same]
  · simp [same, last?]

theorem last?_eq_none (absent : ∀ entry ∈ entries, entry.1 ≠ key) : last? key entries = none := by
  have nothing : (entries.filter fun entry => entry.1 == key) = [] :=
    List.filter_eq_nil_iff.mpr fun entry member => mt beq_iff_eq.mp (absent entry member)
  rw [last?, nothing]
  rfl

theorem find?_cons (key : String) (entry : String × α) (entries : List (String × α)) :
    find? key (entry :: entries) = if entry.1 = key then some entry.2 else find? key entries := by
  rw [find?, List.find?_cons]
  by_cases same : entry.1 = key
  · simp [same]
  · simp [beq_eq_false_iff_ne.mpr same, same, find?]

theorem mem_of_find? {value : α} (found : find? key entries = some value) :
    (key, value) ∈ entries := by
  obtain ⟨⟨held, _⟩, first, rfl⟩ := Option.map_eq_some_iff.mp found
  have same : held = key := by simpa using List.find?_some first
  rw [← same]
  exact List.mem_of_find?_eq_some first

theorem Sorted.find?_eq_none {value : α} (sorted : Sorted ((key, value) :: entries)) :
    find? key entries = none := by
  apply Option.eq_none_iff_forall_ne_some.mpr
  intro other found
  exact String.lt_irrefl key ((List.pairwise_cons.mp sorted).1 _ (mem_of_find? found))

/-- Entries in key order are determined by what stands under each key. -/
theorem Sorted.ext {others : List (String × α)} (sorted : Sorted entries)
    (sortedOthers : Sorted others) (same : ∀ key, find? key entries = find? key others) :
    entries = others := by
  induction entries generalizing others with
  | nil =>
    cases others with
    | nil => rfl
    | cons other others =>
      have found := same other.1
      rw [find?_cons, if_pos rfl] at found
      contradiction
  | cons entry entries ih =>
    obtain ⟨key, value⟩ := entry
    cases others with
    | nil =>
      have found := same key
      rw [find?_cons, if_pos rfl] at found
      contradiction
    | cons other others =>
      obtain ⟨first, held⟩ := other
      obtain ⟨above, tail⟩ := List.pairwise_cons.mp sorted
      obtain ⟨aboveOthers, tailOthers⟩ := List.pairwise_cons.mp sortedOthers
      -- neither of the first keys comes after the other
      obtain rfl : key = first := by
        by_contra different
        have later := same first
        have laterOthers := same key
        rw [find?_cons, find?_cons, if_neg different, if_pos rfl] at later
        rw [find?_cons, find?_cons, if_pos rfl, if_neg (Ne.symm different)] at laterOthers
        exact String.lt_asymm (above _ (mem_of_find? later))
          (aboveOthers _ (mem_of_find? laterOthers.symm))
      obtain rfl : value = held := by
        have found := same key
        rw [find?_cons, find?_cons, if_pos rfl, if_pos rfl] at found
        exact Option.some.inj found
      apply congrArg
      apply ih tail tailOthers
      intro later
      by_cases here : key = later
      · subst here
        rw [sorted.find?_eq_none, sortedOthers.find?_eq_none]
      · have found := same later
        rwa [find?_cons, find?_cons, if_neg here, if_neg here] at found

theorem find?_insert (key other : String) (value : α) (entries : List (String × α)) :
    find? other (insert key value entries) =
      if key = other then some value else find? other entries := by
  induction entries with
  | nil => exact find?_cons other (key, value) []
  | cons entry entries ih =>
    obtain ⟨held, old⟩ := entry
    rw [insert]
    split
    · exact find?_cons other (key, value) _
    · split
      · next same =>
        subst same
        rw [find?_cons, find?_cons]
        split <;> rfl
      · next different =>
        rw [find?_cons, find?_cons, ih]
        by_cases here : held = other
        · rw [if_pos here, if_pos here, if_neg fun also => different (also.trans here.symm)]
        · rw [if_neg here, if_neg here]

/-- Of several values under a key the last one stays. -/
theorem find?_ofList (key : String) (entries : List (String × α)) :
    find? key (ofList entries) = last? key entries := by
  induction entries using List.reverseRecOn with
  | nil => rfl
  | append_singleton entries entry ih =>
    rw [ofList, List.foldl_append, List.foldl_cons, List.foldl_nil, find?_insert, ← ofList, ih,
      last?_append_singleton]

/-- Where no key stands twice, values that are changed or dropped are found changed or dropped. -/
theorem Sorted.last?_filterMap {β : Type} (sorted : Sorted entries) (key : String)
    (change : α → Option β) :
    last? key (entries.filterMap fun entry => (change entry.2).map fun value => (entry.1, value)) =
      (find? key entries).bind change := by
  induction entries with
  | nil => rfl
  | cons entry entries ih =>
    obtain ⟨held, value⟩ := entry
    obtain ⟨above, sorted⟩ := List.pairwise_cons.mp sorted
    rw [find?_cons]
    by_cases here : held = key
    · -- the entries after this one stand under later keys
      have absent : last? key (entries.filterMap fun entry =>
          (change entry.2).map fun value => (entry.1, value)) = none := by
        apply last?_eq_none
        intro entry member
        obtain ⟨kept, within, changed⟩ := List.mem_filterMap.mp member
        obtain ⟨_, -, rfl⟩ := Option.map_eq_some_iff.mp changed
        intro (same : kept.1 = key)
        have later : held < kept.1 := above kept within
        rw [here, same] at later
        exact String.lt_irrefl key later
      rw [if_pos here, Option.bind_some, List.filterMap_cons]
      cases change value with
      | none => exact absent
      | some value =>
        simp only [Option.map_some, last?_cons, absent, if_pos here, Option.none_or]
    · rw [if_neg here, ← ih sorted, List.filterMap_cons]
      cases change value with
      | none => rfl
      | some value => simp only [Option.map_some, last?_cons, if_neg here, Option.or_none]

end Keyed

/-- Headers are determined by what stands under each key. -/
theorem Headers.ext_find? {first second : Headers}
    (same : ∀ key, first.find? key = second.find? key) : first = second := by
  obtain ⟨entries, sorted⟩ := first
  obtain ⟨others, sorted'⟩ := second
  obtain rfl := sorted.ext sorted' same
  rfl

/-- The last value under a key says what the header of that key is. -/
theorem Json.find?_headersOf (members : List (String × Value)) (key : String) :
    (headersOf (Keyed.ofList members)).find? key =
      (Keyed.last? key members).bind headerText? := by
  rw [headersOf, Headers.ofList, Headers.find?, Keyed.find?_ofList,
    (Keyed.sorted_ofList members).last?_filterMap, Keyed.find?_ofList]

theorem Json.headerText?_eq_none {value : Json.Value} : headerText? value = none ↔ value = .null := by
  cases value <;> simp [headerText?]

/-- Members that were read from entries: they have the same keys in the same order, and a value is
null exactly if a dropped item was read. -/
inductive ReadFrom (dropped : Bytes → Prop) : List (String × Bytes) → List (String × Json.Value) → Prop
  | nil : ReadFrom dropped [] []
  | cons {key : String} {item : Bytes} {value : Json.Value} {entries : List (String × Bytes)}
      {members : List (String × Json.Value)} :
      (value = .null ↔ dropped item) → ReadFrom dropped entries members →
      ReadFrom dropped ((key, item) :: entries) ((key, value) :: members)

namespace ReadFrom

variable {dropped : Bytes → Prop} {entries : List (String × Bytes)}
  {members : List (String × Json.Value)}

/-- The last value under a key was read from the last item under it. -/
theorem last? (read : ReadFrom dropped entries members) (key : String) :
    (Keyed.last? key entries = none ∧ Keyed.last? key members = none) ∨
      ∃ item value, Keyed.last? key entries = some item ∧ Keyed.last? key members = some value ∧
        (value = .null ↔ dropped item) := by
  induction read with
  | nil => exact .inl ⟨rfl, rfl⟩
  | @cons held item value entries members same _ ih =>
    rw [Keyed.last?_cons, Keyed.last?_cons]
    rcases ih with ⟨noItem, noValue⟩ | ⟨later, other, found, read, also⟩
    · by_cases here : held = key
      · exact .inr ⟨item, value, by simp [noItem, here], by simp [noValue, here], same⟩
      · exact .inl ⟨by simp [noItem, here], by simp [noValue, here]⟩
    · exact .inr ⟨later, other, by simp [found], by simp [read], also⟩

/-- A key is missing from the headers if no item stands under it or the last one is dropped. -/
theorem find?_eq_none (read : ReadFrom dropped entries members) (key : String) :
    (Json.headersOf (Keyed.ofList members)).find? key = none ↔
      ∀ item, Keyed.last? key entries = some item → dropped item := by
  rw [Json.find?_headersOf]
  rcases read.last? key with ⟨noItem, noValue⟩ | ⟨item, value, found, read, same⟩
  · simp [noItem, noValue]
  · simp [found, read, Json.headerText?_eq_none, same]

end ReadFrom

/-- Headers account for the entries they were read from: a key is missing exactly if no item stands
under it or the last one is dropped. -/
def AccountsFor (dropped : Bytes → Prop) :
    Option (List (String × Bytes)) → Option Headers → Prop
  | none, none => True
  | some entries, some headers => ∀ key, headers.find? key = none ↔
      ∀ item, Keyed.last? key entries = some item → dropped item
  | _, _ => False

end FramedTasks
