/-! # Totals over lists

Loops that use up a list are measured by the total of what its items weigh.
-/

namespace FramedTasks

/-- The sum of a measure over the items of a list. -/
def total {α : Type} (measure : α → Nat) : List α → Nat
  | [] => 0
  | item :: rest => measure item + total measure rest

section Total

variable {α : Type} (measure : α → Nat)

@[simp] theorem total_nil : total measure [] = 0 := rfl

@[simp] theorem total_cons (item : α) (rest : List α) :
    total measure (item :: rest) = measure item + total measure rest := rfl

end Total

end FramedTasks
