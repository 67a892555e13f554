/-! # Lists of entries in key order

Insertion keeps strictly increasing keys, replaces the value under a key that is present, and
moves no other entry. Keys are compared by code points.
-/

namespace FramedTasks.Keyed

variable {α : Type}

/-- The keys increase strictly. -/
def Sorted (entries : List (String × α)) : Prop := entries.Pairwise fun a b => a.1 < b.1

/-- Put a value under a key. -/
def insert (key : String) (value : α) : List (String × α) → List (String × α)
  | [] => [(key, value)]
  | (k, v) :: rest =>
    if key < k then (key, value) :: (k, v) :: rest
    else if key = k then (key, value) :: rest
    else (k, v) :: insert key value rest

def find? (key : String) (entries : List (String × α)) : Option α :=
  (entries.find? fun entry => entry.1 == key).map (·.2)

/-- Put several values one after another; the last value under a key stays. -/
def ofList (entries : List (String × α)) : List (String × α) :=
  entries.foldl (fun acc entry => insert entry.1 entry.2 acc) []

theorem key_of_mem_insert {key : String} {value : α} {entries : List (String × α)}
    {entry : String × α} (member : entry ∈ insert key value entries) :
    entry.1 = key ∨ entry ∈ entries := by
  induction entries with
  | nil => simp [insert] at member; simp [member]
  | cons head rest ih =>
    obtain ⟨k, v⟩ := head
    simp only [insert] at member
    split at member
    · rcases List.mem_cons.mp member with rfl | member
      · exact .inl rfl
      · exact .inr member
    · split at member
      · rcases List.mem_cons.mp member with rfl | member
        · exact .inl rfl
        · exact .inr (List.mem_cons_of_mem _ member)
      · rcases List.mem_cons.mp member with rfl | member
        · exact .inr (List.mem_cons_self ..)
        · exact (ih member).imp_right (List.mem_cons_of_mem _)

theorem Sorted.insert {entries : List (String × α)} (sorted : Sorted entries) (key : String)
    (value : α) : Sorted (insert key value entries) := by
  induction entries with
  | nil => simp [Keyed.insert, Sorted]
  | cons head rest ih =>
    obtain ⟨k, v⟩ := head
    obtain ⟨above, tail⟩ := List.pairwise_cons.mp sorted
    simp only [Keyed.insert]
    split
    · next before =>
      refine List.pairwise_cons.mpr ⟨fun entry member => ?_, sorted⟩
      rcases List.mem_cons.mp member with rfl | member
      · exact before
      · exact String.lt_trans before (above entry member)
    · next notBefore =>
      split
      · next same => subst same; exact List.pairwise_cons.mpr ⟨above, tail⟩
      · next different =>
        refine List.pairwise_cons.mpr ⟨fun entry member => ?_, ih tail⟩
        rcases key_of_mem_insert member with same | member
        · rw [same]
          rcases Decidable.em (k < key) with after | notAfter
          · exact after
          · exact absurd (String.le_antisymm (String.not_lt.mp notAfter)
              (String.not_lt.mp notBefore)) different
        · exact above entry member

theorem sorted_ofList (entries : List (String × α)) : Sorted (ofList entries) := by
  suffices ∀ acc : List (String × α), Sorted acc →
      Sorted (entries.foldl (fun acc entry => Keyed.insert entry.1 entry.2 acc) acc) from
    this [] List.Pairwise.nil
  induction entries with
  | nil => exact fun _ sorted => sorted
  | cons entry rest ih => exact fun acc sorted => ih _ (sorted.insert entry.1 entry.2)

end FramedTasks.Keyed
