import FramedTasks.Json.Record

/-! # Values that survive a reader

Entries that are put one after another in key order stay in that order, so headers are what a
reader makes of the members that hold their values as texts. A status is what it makes of its code.
-/

namespace FramedTasks

namespace Keyed

variable {α : Type} {entries first rest : List (String × α)}

theorem insert_of_forall_lt {key : String} (value : α) (below : ∀ entry ∈ entries, entry.1 < key) :
    insert key value entries = entries ++ [(key, value)] := by
  induction entries with
  | nil => rfl
  | cons head tail ih =>
    obtain ⟨k, v⟩ := head
    have lower : k < key := below (k, v) (List.mem_cons_self ..)
    have notBefore : ¬ key < k := fun before => String.lt_irrefl key (String.lt_trans before lower)
    have different : key ≠ k := fun same => String.lt_irrefl key (same ▸ lower)
    rw [insert, if_neg notBefore, if_neg different,
      ih fun entry member => below entry (List.mem_cons_of_mem _ member), List.cons_append]

/-- Entries that follow in key order go to the end. -/
theorem foldl_insert_of_sorted (sorted : Sorted (first ++ rest)) :
    rest.foldl (fun entries entry => insert entry.1 entry.2 entries) first = first ++ rest := by
  induction rest generalizing first with
  | nil => exact (List.append_nil _).symm
  | cons entry rest ih =>
    have below : ∀ other ∈ first, other.1 < entry.1 := fun other member =>
      (List.pairwise_append.mp sorted).2.2 other member entry (List.mem_cons_self ..)
    rw [List.append_cons] at sorted
    rw [List.foldl_cons, insert_of_forall_lt entry.2 below, ih sorted, ← List.append_cons]

theorem ofList_of_sorted (sorted : Sorted entries) : ofList entries = entries :=
  @foldl_insert_of_sorted _ [] entries sorted

theorem Sorted.map {β : Type} (sorted : Sorted entries) (value : α → β) :
    Sorted (entries.map fun entry => (entry.1, value entry.2)) :=
  List.pairwise_map.mpr sorted

end Keyed

def Headers.members (headers : Headers) : List (String × Json.Value) :=
  headers.entries.map fun entry => (entry.1, .text entry.2)

theorem Json.headersOf_members (headers : Headers) : Json.headersOf headers.members = headers := by
  obtain ⟨entries, sorted⟩ := headers
  have texts : (Headers.members ⟨entries, sorted⟩).filterMap (fun member =>
      (headerText? member.2).map fun text => (member.1, text)) = entries := by
    rw [Headers.members, List.filterMap_map]
    exact List.filterMap_some
  simp only [headersOf, texts, Headers.ofList, Keyed.ofList_of_sorted sorted]

theorem Status.ofInt?_toInt (status : Status) : ofInt? status.code.toInt = some status := by
  have least := status.code.le_toInt
  have most := status.code.toInt_lt
  rw [ofInt?, if_pos ⟨by omega, by omega⟩, Int32.ofInt_toInt]

end FramedTasks
