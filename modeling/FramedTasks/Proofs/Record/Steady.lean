import FramedTasks.Proofs.Record.Members

/-! # Readers that depend on what they take

A reader takes a value from the front of the unread bytes and returns the bytes that it left.
`Steady` says what such a reader takes: bytes of a certain shape, which it takes to the same value if
the bytes go on after their end. A reader of numbers stops in front of another byte, so one must be
left. `Passing` says the same of a reader that keeps no value. Readers with a bound on their steps are
compared with the same readers under a larger bound.
-/

namespace FramedTasks

variable {ε α β : Type} {ahead : Bool}

theorem bind_eq_ok {result : Except ε α} {next : α → Except ε β} {value : β} :
    (result >>= next) = .ok value ↔ ∃ middle, result = .ok middle ∧ next middle = .ok value := by
  cases result with
  | error fault => simp [bind, Except.bind]
  | ok middle => simp [bind, Except.bind]

theorem map_eq_ok {result : Except ε α} {change : α → β} {value : β} :
    result.map change = .ok value ↔ ∃ middle, result = .ok middle ∧ change middle = value := by
  cases result with
  | error fault => simp [Except.map]
  | ok middle => simp [Except.map]

theorem mapError_eq_ok {ε' : Type} {result : Except ε α} {change : ε → ε'} {value : α} :
    result.mapError change = .ok value ↔ result = .ok value := by
  cases result with
  | error fault => constructor <;> intro impossible <;> contradiction
  | ok other =>
    constructor
    · exact fun same => congrArg Except.ok (Except.ok.inj same)
    · exact fun same => congrArg Except.ok (Except.ok.inj same)

/-- Bytes go on after their end. A reader that looks one byte ahead must have found one. -/
structure Resumes (ahead : Bool) (rest more : Bytes) : Prop where
  goesOn : rest <+: more
  left : ahead = true → rest ≠ []

theorem Resumes.append {rest more : Bytes} (resumes : Resumes ahead rest more) (front : Bytes) :
    Resumes ahead (front ++ rest) (front ++ more) where
  goesOn := (List.prefix_append_right_inj front).mpr resumes.goesOn
  left looks := List.append_ne_nil_of_right_ne_nil front (resumes.left looks)

/-- Where something was read after a place, one byte was left there. -/
theorem Resumes.before {front rest more : Bytes} (goesOn : rest <+: more) (some : front ≠ []) :
    Resumes ahead (front ++ rest) (front ++ more) where
  goesOn := (List.prefix_append_right_inj front).mpr goesOn
  left _ := List.append_ne_nil_of_left_ne_nil some rest

/-- Whenever a reader succeeds, it has taken bytes of some shape, and the second reader takes them to
the same value if the bytes go on. -/
structure Steady (ahead : Bool) (read again : Bytes → Except ε (α × Bytes))
    (shape : α → Bytes → Prop) : Prop where
  taken {bytes : Bytes} {value : α} {rest : Bytes} (done : read bytes = .ok (value, rest)) :
    ∃ front, bytes = front ++ rest ∧ shape value front ∧
      ∀ more, Resumes ahead rest more → again (front ++ more) = .ok (value, more)

def valueless (skip : Bytes → Except ε Bytes) (bytes : Bytes) : Except ε (Unit × Bytes) :=
  (skip bytes).map fun rest => ((), rest)

/-- Whenever a reader that keeps no value succeeds, it has passed over bytes of some shape, and the
second reader passes over them if the bytes go on. -/
structure Passing (ahead : Bool) (skip again : Bytes → Except ε Bytes) (shape : Bytes → Prop) :
    Prop where
  passed {bytes rest : Bytes} (done : skip bytes = .ok rest) :
    ∃ front, bytes = front ++ rest ∧ shape front ∧
      ∀ more, Resumes ahead rest more → again (front ++ more) = .ok more

namespace Steady

variable {read again : Bytes → Except ε (α × Bytes)} {shape : α → Bytes → Prop}

theorem mono {other : α → Bytes → Prop} (steady : Steady ahead read again shape)
    (weaker : ∀ value front, shape value front → other value front) :
    Steady ahead read again other where
  taken done := by
    obtain ⟨front, split, shaped, again⟩ := steady.taken done
    exact ⟨front, split, weaker _ front shaped, again⟩

/-- A reader that never succeeds is steady. -/
theorem of_fails (fails : ∀ bytes, (read bytes).toOption = none) :
    Steady ahead read again shape where
  taken {bytes} _ _ done := by
    have nothing := fails bytes
    rw [done] at nothing
    contradiction

/-- What goes on after the unread bytes goes on after those that are left. -/
theorem of_append (read_append : ∀ {bytes value rest}, read bytes = .ok (value, rest) →
    ∃ front, bytes = front ++ rest ∧ shape value front ∧ ((ahead = true → rest ≠ []) →
      ∀ more, again (bytes ++ more) = .ok (value, rest ++ more))) :
    Steady ahead read again shape where
  taken done := by
    obtain ⟨front, rfl, shaped, again⟩ := read_append done
    refine ⟨front, rfl, shaped, fun more resumes => ?_⟩
    obtain ⟨extra, rfl⟩ := resumes.goesOn
    rw [← List.append_assoc]
    exact again resumes.left extra

theorem append (steady : Steady ahead read again shape) {bytes rest : Bytes} {value : α}
    (done : read bytes = .ok (value, rest)) (left : ahead = true → rest ≠ []) (more : Bytes) :
    again (bytes ++ more) = .ok (value, rest ++ more) := by
  obtain ⟨front, rfl, -, again⟩ := steady.taken done
  rw [List.append_assoc]
  exact again _ ⟨List.prefix_append .., left⟩

/-- A reader whose value is wrapped. -/
theorem map (steady : Steady ahead read again shape) (wrap : α → β) :
    Steady ahead (fun bytes => (read bytes).map fun (value, rest) => (wrap value, rest))
      (fun bytes => (again bytes).map fun (value, rest) => (wrap value, rest))
      fun result front => ∃ value, result = wrap value ∧ shape value front where
  taken done := by
    obtain ⟨⟨value, left⟩, taken, wrapped⟩ := map_eq_ok.mp done
    obtain ⟨rfl, rfl⟩ := Prod.mk.inj wrapped
    obtain ⟨front, split, shaped, again⟩ := steady.taken taken
    exact ⟨front, split, ⟨value, rfl, shaped⟩, fun more resumes =>
      map_eq_ok.mpr ⟨_, again more resumes, rfl⟩⟩

/-- A reader whose value is wrapped, written step by step. -/
theorem wrap (steady : Steady ahead read again shape) (wrap : α → β) :
    Steady ahead (fun bytes => do let (value, rest) ← read bytes; .ok (wrap value, rest))
      (fun bytes => do let (value, rest) ← again bytes; .ok (wrap value, rest))
      fun result front => ∃ value, result = wrap value ∧ shape value front where
  taken done := by
    obtain ⟨⟨value, left⟩, taken, wrapped⟩ := bind_eq_ok.mp done
    obtain ⟨rfl, rfl⟩ := Prod.mk.inj (Except.ok.inj wrapped)
    obtain ⟨front, split, shaped, again⟩ := steady.taken taken
    exact ⟨front, split, ⟨value, rfl, shaped⟩, fun more resumes =>
      bind_eq_ok.mpr ⟨_, again more resumes, rfl⟩⟩

/-- A reader that does not look ahead does as one that may. -/
theorem looks (steady : Steady false read again shape) : Steady ahead read again shape where
  taken done := by
    obtain ⟨front, split, shaped, again⟩ := steady.taken done
    exact ⟨front, split, shaped, fun more resumes => again more ⟨resumes.goesOn, nofun⟩⟩

/-- A reader that takes something, after a byte that it was given back. -/
theorem from_cons (steady : Steady ahead read again shape)
    (some : ∀ value front, shape value front → front ≠ []) (byte : UInt8) :
    Steady ahead (fun rest => read (byte :: rest)) (fun rest => again (byte :: rest))
      fun value front => shape value (byte :: front) where
  taken {rest value left} done := by
    obtain ⟨front, split, shaped, again⟩ := steady.taken done
    cases front with
    | nil => exact absurd rfl (some value [] shaped)
    | cons first front =>
      obtain ⟨rfl, rfl⟩ := List.cons.inj split
      exact ⟨front, rfl, shaped, again⟩

/-- One of two readers. -/
theorem ite {p : Prop} [Decidable p] {other other' : Bytes → Except ε (α × Bytes)}
    (yes : p → Steady ahead read again shape) (no : ¬ p → Steady ahead other other' shape) :
    Steady ahead (fun bytes => if p then read bytes else other bytes)
      (fun bytes => if p then again bytes else other' bytes) shape := by
  by_cases holds : p
  · simpa only [if_pos holds] using yes holds
  · simpa only [if_neg holds] using no holds

/-- A reader whose steps are bounded by the number of unread bytes. -/
theorem bounded {read : Nat → Bytes → Except ε (α × Bytes)}
    (steady : ∀ {fuel fuel'}, fuel ≤ fuel' → Steady ahead (read fuel) (read fuel') shape)
    {bound : Bytes → Nat}
    (grows : ∀ {bytes more : Bytes}, bytes.length ≤ more.length → bound bytes ≤ bound more) :
    Steady ahead (fun bytes => read (bound bytes) bytes) (fun bytes => read (bound bytes) bytes)
      shape where
  taken done := by
    obtain ⟨front, rfl, shaped, -⟩ := (steady (Nat.le_refl _)).taken done
    refine ⟨front, rfl, shaped, fun more resumes => ?_⟩
    have longer := ((List.prefix_append_right_inj front).mpr resumes.goesOn).length_le
    obtain ⟨front', split, -, again⟩ := (steady (grows longer)).taken done
    exact List.append_cancel_right split ▸ again more resumes

end Steady

namespace Passing

variable {skip again : Bytes → Except ε Bytes} {shape : Bytes → Prop}

/-- A reader that keeps no value is one with nothing for a value. -/
theorem steady (passing : Passing ahead skip again shape) :
    Steady ahead (valueless skip) (valueless again) fun _ => shape where
  taken done := by
    obtain ⟨left, passed, same⟩ := map_eq_ok.mp done
    obtain ⟨-, rfl⟩ := Prod.mk.inj same
    obtain ⟨front, split, shaped, again⟩ := passing.passed passed
    exact ⟨front, split, shaped, fun more resumes => map_eq_ok.mpr ⟨_, again more resumes, rfl⟩⟩

theorem of_steady (steady : Steady ahead (valueless skip) (valueless again) fun _ => shape) :
    Passing ahead skip again shape where
  passed done := by
    obtain ⟨front, split, shaped, again⟩ := steady.taken (map_eq_ok.mpr ⟨_, done, rfl⟩)
    refine ⟨front, split, shaped, fun more resumes => ?_⟩
    obtain ⟨left, passed, same⟩ := map_eq_ok.mp (again more resumes)
    exact passed.trans (congrArg _ (Prod.mk.inj same).2)

theorem mono {other : Bytes → Prop} (passing : Passing ahead skip again shape)
    (weaker : ∀ front, shape front → other front) : Passing ahead skip again other :=
  of_steady (passing.steady.mono fun _ => weaker)

theorem of_fails (fails : ∀ bytes, (skip bytes).toOption = none) : Passing ahead skip again shape where
  passed {bytes} _ done := by
    have nothing := fails bytes
    rw [done] at nothing
    contradiction

theorem of_append (skip_append : ∀ {bytes rest}, skip bytes = .ok rest →
    ∃ front, bytes = front ++ rest ∧ shape front ∧ ((ahead = true → rest ≠ []) →
      ∀ more, again (bytes ++ more) = .ok (rest ++ more))) : Passing ahead skip again shape where
  passed done := by
    obtain ⟨front, rfl, shaped, again⟩ := skip_append done
    refine ⟨front, rfl, shaped, fun more resumes => ?_⟩
    obtain ⟨extra, rfl⟩ := resumes.goesOn
    rw [← List.append_assoc]
    exact again resumes.left extra

theorem append (passing : Passing ahead skip again shape) {bytes rest : Bytes}
    (done : skip bytes = .ok rest) (left : ahead = true → rest ≠ []) (more : Bytes) :
    again (bytes ++ more) = .ok (rest ++ more) := by
  obtain ⟨front, rfl, -, again⟩ := passing.passed done
  rw [List.append_assoc]
  exact again _ ⟨List.prefix_append .., left⟩

theorem looks (passing : Passing false skip again shape) : Passing ahead skip again shape :=
  of_steady passing.steady.looks

/-- One reader after another. -/
theorem bind {next next' : Bytes → Except ε Bytes} {shape' : Bytes → Prop}
    (first : Passing ahead skip again shape) (second : Passing ahead next next' shape') :
    Passing ahead (fun bytes => skip bytes >>= next) (fun bytes => again bytes >>= next')
      fun front => ∃ one two, front = one ++ two ∧ shape one ∧ shape' two where
  passed done := by
    obtain ⟨middle, one, two⟩ := bind_eq_ok.mp done
    obtain ⟨front, rfl, shaped, again⟩ := first.passed one
    obtain ⟨front', rfl, shaped', again'⟩ := second.passed two
    refine ⟨front ++ front', (List.append_assoc ..).symm, ⟨_, _, rfl, shaped, shaped'⟩, ?_⟩
    intro more resumes
    rw [List.append_assoc, bind_eq_ok]
    exact ⟨_, again _ (resumes.append front'), again' more resumes⟩

theorem from_cons (passing : Passing ahead skip again shape) (some : ∀ front, shape front → front ≠ [])
    (byte : UInt8) :
    Passing ahead (fun rest => skip (byte :: rest)) (fun rest => again (byte :: rest))
      fun front => shape (byte :: front) :=
  of_steady (passing.steady.from_cons (fun _ => some) byte)

theorem ite {p : Prop} [Decidable p] {other other' : Bytes → Except ε Bytes}
    (yes : p → Passing ahead skip again shape) (no : ¬ p → Passing ahead other other' shape) :
    Passing ahead (fun bytes => if p then skip bytes else other bytes)
      (fun bytes => if p then again bytes else other' bytes) shape := by
  by_cases holds : p
  · simpa only [if_pos holds] using yes holds
  · simpa only [if_neg holds] using no holds

/-- A reader of a value that stands for what was passed over. -/
theorem value (passing : Passing ahead skip again shape) (value : α) :
    Steady ahead (fun bytes => do let rest ← skip bytes; .ok (value, rest))
      (fun bytes => do let rest ← again bytes; .ok (value, rest))
      fun result front => result = value ∧ shape front where
  taken done := by
    obtain ⟨left, passed, same⟩ := bind_eq_ok.mp done
    obtain ⟨rfl, rfl⟩ := Prod.mk.inj (Except.ok.inj same)
    obtain ⟨front, split, shaped, again⟩ := passing.passed passed
    exact ⟨front, split, ⟨rfl, shaped⟩, fun more resumes =>
      bind_eq_ok.mpr ⟨_, again more resumes, rfl⟩⟩

/-- A reader that ends with something that it passes over needs to look no further. -/
theorem closes {read next : Bytes → Except ε (α × Bytes)} {shape : Bytes → Prop}
    {taken : α → Bytes → Prop} (passing : Passing false skip again shape)
    (some : ∀ front, shape front → front ≠ []) (steady : Steady true read next taken) :
    Steady false (fun bytes => do
        let (value, rest) ← read bytes
        let rest ← skip rest
        .ok (value, rest))
      (fun bytes => do
        let (value, rest) ← next bytes
        let rest ← again rest
        .ok (value, rest))
      fun value front => ∃ one two, front = one ++ two ∧ taken value one ∧ shape two where
  taken done := by
    obtain ⟨⟨value, middle⟩, one, later⟩ := bind_eq_ok.mp done
    obtain ⟨left, two, same⟩ := bind_eq_ok.mp later
    obtain ⟨rfl, rfl⟩ := Prod.mk.inj (Except.ok.inj same)
    obtain ⟨front, rfl, shaped, againRead⟩ := steady.taken one
    obtain ⟨front', rfl, shaped', againSkip⟩ := passing.passed two
    refine ⟨front ++ front', (List.append_assoc ..).symm, ⟨_, _, rfl, shaped, shaped'⟩, ?_⟩
    intro more resumes
    rw [List.append_assoc]
    refine bind_eq_ok.mpr ⟨_, againRead _ (.before resumes.goesOn (some front' shaped')), ?_⟩
    exact bind_eq_ok.mpr ⟨_, againSkip more resumes, rfl⟩

/-- A reader without a value whose steps are bounded by the number of unread bytes. -/
theorem bounded {skip : Nat → Bytes → Except ε Bytes}
    (passing : ∀ {fuel fuel'}, fuel ≤ fuel' → Passing ahead (skip fuel) (skip fuel') shape)
    {bound : Bytes → Nat}
    (grows : ∀ {bytes more : Bytes}, bytes.length ≤ more.length → bound bytes ≤ bound more) :
    Passing ahead (fun bytes => skip (bound bytes) bytes) (fun bytes => skip (bound bytes) bytes)
      shape :=
  of_steady (Steady.bounded (fun longer => (passing longer).steady) grows)

end Passing

end FramedTasks
