import Mathlib.Data.List.Forall2
import FramedTasks.CommandLine.Value
import FramedTasks.Proofs.Record.HeaderKeys
import FramedTasks.Proofs.Text.Blank

/-! # Headers on the command line

An entry means a header if a key stands before its first equals sign: the text there without the
white space around it (`Means`). Otherwise there is a complaint about it, and the first entry that is
complained about is reported (`parse_eq_error`). If there is none, the headers are those of the last
entry under each key (`Collects`), and no other map has them (`parse_eq_some`).
-/

namespace FramedTasks.CommandLine.HeaderArgument

variable {entry key value : String} {entries : List String} {failure : Failure}

/-- Whether an entry means a header: before its first equals sign stands the key, with or without
white space around it, and the rest is the value. -/
structure Means (entry key value : String) : Prop where
  named : key ≠ ""
  bare : BareEnds key.toList
  unmarked : '=' ∉ key.toList
  spelled : ∃ before after, (∀ c ∈ before, isBlank c = true) ∧ (∀ c ∈ after, isBlank c = true) ∧
    entry.toList = before ++ (key.toList ++ after) ++ '=' :: value.toList

/-- What is wrong with an entry that means no header. -/
inductive Complaint (entry : String) : String → Prop
  | unmarked : '=' ∉ entry.toList → Complaint entry s!"header must be KEY=VALUE: {entry}"
  | unnamed {before value : List Char} : (∀ c ∈ before, isBlank c = true) →
      entry.toList = before ++ '=' :: value → Complaint entry s!"header key is empty: {entry}"

theorem mark_not_mem_of_blank {chars : List Char} (blank : ∀ c ∈ chars, isBlank c = true) :
    '=' ∉ chars := by
  intro member
  exact absurd (blank '=' member) (by decide)

theorem parseEntry_of_unmarked (unmarked : '=' ∉ entry.toList) :
    parseEntry entry = .error (misuse s!"header must be KEY=VALUE: {entry}") := by
  have nothing : entry.toList.dropWhile (· != '=') = [] := by
    apply List.dropWhile_eq_nil_iff.mpr
    intro c member
    exact bne_iff_ne.mpr fun same => unmarked (same ▸ member)
  simp only [parseEntry, nothing]

/-- An entry is split at its first equals sign. -/
theorem parseEntry_of_marked {before value : List Char} (first : '=' ∉ before)
    (marked : entry.toList = before ++ '=' :: value) :
    parseEntry entry =
      if trimChars before = [] then .error (misuse s!"header key is empty: {entry}")
      else .ok (String.ofList (trimChars before), String.ofList value) := by
  have inside : ∀ c ∈ before, (c != '=') = true := by
    intro c member
    exact bne_iff_ne.mpr fun same => first (same ▸ member)
  have rest : entry.toList.dropWhile (· != '=') = '=' :: value := by
    rw [marked, List.dropWhile_append_of_pos inside]
    rfl
  have front : entry.toList.takeWhile (· != '=') = before := by
    rw [marked, List.takeWhile_append_of_pos inside]
    exact List.append_nil before
  simp only [parseEntry, rest, front]

theorem means_of_marked {before value : List Char} (first : '=' ∉ before)
    (marked : entry.toList = before ++ '=' :: value) (named : trimChars before ≠ []) :
    Means entry (String.ofList (trimChars before)) (String.ofList value) := by
  obtain ⟨left, right, blankLeft, blankRight, whole⟩ := exists_trimChars before
  refine ⟨?_, ?_, ?_, left, right, blankLeft, blankRight, ?_⟩
  · intro empty
    apply named
    simpa using congrArg String.toList empty
  · rw [String.toList_ofList]
    exact bareEnds_trimChars before
  · rw [String.toList_ofList]
    intro member
    apply first
    rw [whole]
    exact List.mem_append_right _ (List.mem_append_left _ member)
  · rw [String.toList_ofList, String.toList_ofList, ← whole, marked]

theorem Means.parseEntry_eq (means : Means entry key value) : parseEntry entry = .ok (key, value) := by
  obtain ⟨before, after, blankBefore, blankAfter, marked⟩ := means.spelled
  have first : '=' ∉ before ++ (key.toList ++ after) := by
    simp only [List.mem_append, not_or]
    exact ⟨mark_not_mem_of_blank blankBefore, means.unmarked, mark_not_mem_of_blank blankAfter⟩
  have trimmed : trimChars (before ++ (key.toList ++ after)) = key.toList :=
    (trimChars_eq means.bare).mpr ⟨before, after, blankBefore, blankAfter, rfl⟩
  have named : key.toList ≠ [] := mt String.toList_eq_nil_iff.mp means.named
  rw [parseEntry_of_marked first marked, trimmed, if_neg named, String.ofList_toList,
    String.ofList_toList]

theorem Complaint.parseEntry_eq {message : String} (complaint : Complaint entry message) :
    parseEntry entry = .error (misuse message) := by
  cases complaint with
  | unmarked unmarked => exact parseEntry_of_unmarked unmarked
  | unnamed blank marked =>
    rw [parseEntry_of_marked (mark_not_mem_of_blank blank) marked]
    exact if_pos (trimChars_eq_nil.mpr blank)

/-- An entry means a header or is complained about. -/
theorem means_or_complaint (entry : String) :
    (∃ key value, Means entry key value) ∨ ∃ message, Complaint entry message := by
  by_cases marked : '=' ∈ entry.toList
  · obtain ⟨before, value, whole, first⟩ := List.eq_append_cons_of_mem marked
    by_cases unnamed : trimChars before = []
    · right
      exact ⟨_, .unnamed (trimChars_eq_nil.mp unnamed) whole⟩
    · left
      exact ⟨_, _, means_of_marked first whole unnamed⟩
  · right
    exact ⟨_, .unmarked marked⟩

/-- Whether an entry means a header with some value under a key. -/
def HasKey (key entry : String) : Prop := ∃ value, Means entry key value

/-- The value of the last entry that has a key. -/
inductive LastUnder (key value : String) : List String → Prop
  | here {entry : String} {rest : List String} : Means entry key value →
      (∀ later ∈ rest, ¬ HasKey key later) → LastUnder key value (entry :: rest)
  | later {entry : String} {rest : List String} : LastUnder key value rest →
      LastUnder key value (entry :: rest)

/-- Whether headers are those that some entries mean. -/
structure Collects (entries : List String) (headers : Headers) : Prop where
  meant : ∀ entry ∈ entries, ∃ key value, Means entry key value
  held : ∀ key value, headers.find? key = some value ↔ LastUnder key value entries

/-- Keys and values that were read from some entries. -/
def AreRead (entries : List String) (pairs : List (String × String)) : Prop :=
  List.Forall₂ (fun entry pair => Means entry pair.1 pair.2) entries pairs

theorem Means.unique {key' value' : String} (means : Means entry key value)
    (means' : Means entry key' value') : key = key' ∧ value = value' :=
  Prod.mk.inj (Except.ok.inj (means.parseEntry_eq.symm.trans means'.parseEntry_eq))

theorem last?_eq_none {pairs : List (String × String)} (read : AreRead entries pairs) :
    Keyed.last? key pairs = none ↔ ∀ entry ∈ entries, ¬ HasKey key entry := by
  induction read with
  | nil => simp [Keyed.last?]
  | @cons entry pair entries pairs means read ih =>
    rw [Keyed.last?_cons, Option.or_eq_none_iff, ih, List.forall_mem_cons, and_comm]
    apply and_congr_left
    intro _
    constructor
    · intro absent
      rintro ⟨value, means'⟩
      rw [if_pos (means.unique means').1] at absent
      contradiction
    · intro without
      apply if_neg
      rintro rfl
      exact without ⟨_, means⟩

/-- The last value that was read under a key is that of the last entry that has it. -/
theorem last?_eq_some {pairs : List (String × String)} (read : AreRead entries pairs) :
    Keyed.last? key pairs = some value ↔ LastUnder key value entries := by
  induction read with
  | nil => exact ⟨nofun, nofun⟩
  | @cons entry pair entries pairs means read ih =>
    rw [Keyed.last?_cons, Option.or_eq_some_iff, ih, last?_eq_none read]
    constructor
    · rintro (later | ⟨alone, here⟩)
      · exact .later later
      · obtain ⟨rfl, same⟩ := Option.ite_none_right_eq_some.mp here
        obtain rfl := Option.some.inj same
        exact .here means alone
    · intro last
      cases last with
      | later later => exact .inl later
      | here means' alone =>
        obtain ⟨rfl, rfl⟩ := means.unique means'
        exact .inr ⟨alone, if_pos rfl⟩

/-- The complaint about the first entry that there is one about. -/
inductive FirstComplaint (message : String) : List String → Prop
  | here {entry : String} {rest : List String} : Complaint entry message →
      FirstComplaint message (entry :: rest)
  | later {entry : String} {rest : List String} : (∀ other, ¬ Complaint entry other) →
      FirstComplaint message rest → FirstComplaint message (entry :: rest)

theorem mapM_of_areRead {pairs : List (String × String)} (read : AreRead entries pairs) :
    entries.mapM parseEntry = .ok pairs := by
  induction read with
  | nil => rfl
  | cons means _ ih =>
    rw [List.mapM_cons, means.parseEntry_eq, ih]
    rfl

theorem FirstComplaint.mapM_eq {message : String} (first : FirstComplaint message entries) :
    entries.mapM parseEntry = .error (misuse message) := by
  induction first with
  | here complaint =>
    rw [List.mapM_cons, complaint.parseEntry_eq]
    rfl
  | @later entry rest without _ ih =>
    rcases means_or_complaint entry with ⟨key, value, means⟩ | ⟨other, complaint⟩
    · rw [List.mapM_cons, means.parseEntry_eq, ih]
      rfl
    · exact absurd complaint (without other)

theorem Means.not_complaint (means : Means entry key value) (message : String) :
    ¬ Complaint entry message := by
  intro complaint
  have refused := complaint.parseEntry_eq
  rw [means.parseEntry_eq] at refused
  contradiction

theorem FirstComplaint.exists_mem {message : String} (first : FirstComplaint message entries) :
    ∃ entry ∈ entries, Complaint entry message := by
  induction first with
  | here complaint => exact ⟨_, List.mem_cons_self .., complaint⟩
  | later _ _ ih =>
    obtain ⟨entry, member, complaint⟩ := ih
    exact ⟨entry, List.mem_cons_of_mem _ member, complaint⟩

theorem areRead_or_firstComplaint (entries : List String) :
    (∃ pairs, AreRead entries pairs) ∨ ∃ message, FirstComplaint message entries := by
  induction entries with
  | nil => exact .inl ⟨[], .nil⟩
  | cons entry entries ih =>
    rcases means_or_complaint entry with ⟨key, value, means⟩ | ⟨message, complaint⟩
    · rcases ih with ⟨pairs, read⟩ | ⟨message, first⟩
      · exact .inl ⟨(key, value) :: pairs, .cons means read⟩
      · exact .inr ⟨message, .later means.not_complaint first⟩
    · exact .inr ⟨message, .here complaint⟩

theorem AreRead.meant {pairs : List (String × String)} (read : AreRead entries pairs) :
    ∀ entry ∈ entries, ∃ key value, Means entry key value := by
  induction read with
  | nil => exact List.forall_mem_nil _
  | cons means _ ih => exact List.forall_mem_cons.mpr ⟨⟨_, _, means⟩, ih⟩

theorem AreRead.collects {pairs : List (String × String)} (read : AreRead entries pairs) :
    Collects entries (.ofList pairs) where
  meant := read.meant
  held key value := by
    rw [Headers.find?, Headers.ofList, Keyed.find?_ofList]
    exact last?_eq_some read

/-- No two maps are those of the same entries. -/
theorem Collects.unique {headers others : Headers} (collects : Collects entries headers)
    (collects' : Collects entries others) : headers = others := by
  apply Headers.ext_find?
  intro key
  apply Option.ext
  intro value
  rw [collects.held, collects'.held]

theorem parse_of_areRead {pairs : List (String × String)} (filled : entries ≠ [])
    (read : AreRead entries pairs) : parse entries = .ok (some (.ofList pairs)) := by
  rw [parse, if_neg filled, mapM_of_areRead read]
  rfl

theorem FirstComplaint.parse_eq {message : String} (first : FirstComplaint message entries) :
    parse entries = .error (misuse message) := by
  have filled : entries ≠ [] := by
    rintro rfl
    cases first
  rw [parse, if_neg filled, first.mapM_eq]
  rfl

/-- What becomes of the entries. -/
theorem parse_cases (entries : List String) :
    (entries = [] ∧ parse entries = .ok none) ∨
      (∃ headers, entries ≠ [] ∧ Collects entries headers ∧ parse entries = .ok (some headers)) ∨
      ∃ message, FirstComplaint message entries ∧ parse entries = .error (misuse message) := by
  by_cases empty : entries = []
  · exact .inl ⟨empty, if_pos empty⟩
  · right
    rcases areRead_or_firstComplaint entries with ⟨pairs, read⟩ | ⟨message, first⟩
    · exact .inl ⟨_, empty, read.collects, parse_of_areRead empty read⟩
    · exact .inr ⟨message, first, first.parse_eq⟩

/-- Only where there are no entries there are no headers. -/
theorem parse_eq_none : parse entries = .ok none ↔ entries = [] := by
  refine ⟨fun parsed => ?_, fun empty => if_pos empty⟩
  obtain ⟨empty, -⟩ | ⟨headers, -, -, held⟩ | ⟨message, -, refused⟩ := parse_cases entries
  · exact empty
  · cases held.symm.trans parsed
  · cases refused.symm.trans parsed

theorem parse_eq_none_iff {headers : Option Headers} (parsed : parse entries = .ok headers) :
    headers = none ↔ entries = [] := by
  rw [← parse_eq_none, parsed, Except.ok.injEq]

/-- The headers are those that the entries mean, and no others. -/
theorem parse_eq_some {headers : Headers} :
    parse entries = .ok (some headers) ↔ entries ≠ [] ∧ Collects entries headers := by
  constructor
  · intro parsed
    obtain ⟨-, nothing⟩ | ⟨others, filled, collects, held⟩ | ⟨message, -, refused⟩ :=
      parse_cases entries
    · cases nothing.symm.trans parsed
    · obtain rfl := Option.some.inj (Except.ok.inj (held.symm.trans parsed))
      exact ⟨filled, collects⟩
    · cases refused.symm.trans parsed
  · rintro ⟨filled, collects⟩
    obtain ⟨empty, -⟩ | ⟨others, -, also, held⟩ | ⟨message, first, -⟩ := parse_cases entries
    · contradiction
    · rw [held, also.unique collects]
    · obtain ⟨entry, member, complaint⟩ := first.exists_mem
      obtain ⟨key, value, means⟩ := collects.meant entry member
      exact absurd complaint (means.not_complaint message)

/-- There is a first complaint if there is any. -/
theorem exists_firstComplaint_iff :
    (∃ message, FirstComplaint message entries) ↔
      ∃ entry ∈ entries, ∃ message, Complaint entry message := by
  constructor
  · rintro ⟨message, first⟩
    obtain ⟨entry, member, complaint⟩ := first.exists_mem
    exact ⟨entry, member, message, complaint⟩
  · rintro ⟨entry, member, message, complaint⟩
    rcases areRead_or_firstComplaint entries with ⟨pairs, read⟩ | first
    · obtain ⟨key, value, means⟩ := read.meant entry member
      exact absurd complaint (means.not_complaint message)
    · exact first

/-- The first entry that means no header is reported. -/
theorem parse_eq_error :
    parse entries = .error failure ↔
      ∃ message, FirstComplaint message entries ∧ failure = misuse message := by
  constructor
  · intro refused
    obtain ⟨-, nothing⟩ | ⟨headers, -, -, held⟩ | ⟨message, first, also⟩ := parse_cases entries
    · cases nothing.symm.trans refused
    · cases held.symm.trans refused
    · exact ⟨message, first, Except.error.inj (refused.symm.trans also)⟩
  · rintro ⟨message, first, rfl⟩
    exact first.parse_eq

end FramedTasks.CommandLine.HeaderArgument
