import FramedTasks.Stream.Source

/-! # What reads bring

`Source.Reads` relates a stream to the stream after some reads, by the outcomes of the reads in
order. A stream keeps the sizes that were asked for, so the two streams fix the outcomes
(`Source.Reads.unique`). Reading neither loses nor invents a byte: what arrives and what is left
make up the bytes that were left before (`Source.Reads.left`).
-/

namespace FramedTasks

def Reading.arrived : Reading → Bytes
  | .bytes found => found
  | .fault _ | .closed => []

/-- Whether a receiver reads on by itself: bytes arrived, or the read was interrupted. -/
def Reading.goesOn : Reading → Bool
  | .bytes _ => true
  | .fault cause => cause.isInterrupted
  | .closed => false

def Reading.isTimeout : Reading → Bool
  | .fault cause => cause.isTimeout
  | .bytes _ | .closed => false

/-- The fault of a read that was neither interrupted nor out of time. -/
def Reading.failure? : Reading → Option Fault
  | .fault cause => if cause.isInterrupted || cause.isTimeout then none else some cause
  | .bytes _ | .closed => none

/-- An interrupted operation has not run out of time. -/
theorem Fault.not_isTimeout_of_isInterrupted {fault : Fault} (interrupted : fault.isInterrupted = true) :
    fault.isTimeout = false := by
  have kind : fault.kind = .interrupted := by simpa [Fault.isInterrupted] using interrupted
  simp [Fault.isTimeout, kind]

theorem closed_not_mem_of_goesOn {readings : List Reading}
    (going : ∀ reading ∈ readings, reading.goesOn) : .closed ∉ readings := by
  intro member
  have goes := going .closed member
  contradiction

/-- The bytes that several readings bring, in order. -/
def arrivals (readings : List Reading) : Bytes := readings.flatMap Reading.arrived

section Arrivals

@[simp] theorem arrivals_nil : arrivals [] = [] := rfl

@[simp] theorem arrivals_cons (reading : Reading) (readings : List Reading) :
    arrivals (reading :: readings) = reading.arrived ++ arrivals readings := rfl

@[simp] theorem arrivals_append (first second : List Reading) :
    arrivals (first ++ second) = arrivals first ++ arrivals second := by
  simp [arrivals]

end Arrivals

namespace Source

variable {ε : Type}

private def ahead (events : List (SourceEvent ε)) : Bytes :=
  events.flatMap fun
    | .data bytes _ => bytes
    | _ => []

private theorem ahead_step (want : Nat) (passed : List ε) (events : List (SourceEvent ε)) :
    ahead events = (step want passed events).1.arrived ++ ahead (step want passed events).2.1 := by
  induction events generalizing passed with
  | nil => rfl
  | cons event rest ih =>
    cases event with
    | data bytes cap =>
      cases bytes with
      | nil => simpa [step, ahead] using ih passed
      | cons byte bytes =>
        simp only [step]
        split
        · rfl
        · next positive =>
          have whole := List.take_append_drop (min want (cap.getD want)) (byte :: bytes)
          simp only [Reading.arrived]
          split
          · next finished =>
            rw [List.isEmpty_iff.mp finished, List.append_nil] at whole
            rw [whole]
            rfl
          · change (byte :: bytes) ++ ahead rest = _ ++ (_ ++ ahead rest)
            rw [← List.append_assoc, whole]
    | fault fault => rfl
    | closed => rfl
    | moment event => exact ih (event :: passed)

theorem left_read (source : Source ε) (want : Nat) :
    source.left = (source.read want).1.arrived ++ (source.read want).2.left :=
  ahead_step want source.passed source.events

/-- A read brings no more than it asks for. -/
theorem length_arrived_step (want : Nat) (passed : List ε) (events : List (SourceEvent ε)) :
    (step want passed events).1.arrived.length ≤ want := by
  induction events generalizing passed with
  | nil => simp [step, Reading.arrived]
  | cons event rest ih =>
    cases event with
    | data bytes cap =>
      cases bytes with
      | nil => exact ih passed
      | cons byte bytes =>
        simp only [step]
        split
        · simp [Reading.arrived]
        · simp only [Reading.arrived, List.length_take]
          omega
    | fault fault => simp [step, Reading.arrived]
    | closed => simp [step, Reading.arrived]
    | moment event => exact ih (event :: passed)

theorem length_arrived_read (source : Source ε) (want : Nat) :
    (source.read want).1.arrived.length ≤ want := length_arrived_step want source.passed source.events

/-- What has passed does not change what a read finds. -/
theorem step_passed (want : Nat) (passed other : List ε) (events : List (SourceEvent ε)) :
    (step want passed events).1 = (step want other events).1 ∧
      (step want passed events).2.1 = (step want other events).2.1 := by
  induction events generalizing passed other with
  | nil => exact ⟨rfl, rfl⟩
  | cons event rest ih =>
    cases event with
    | data bytes cap =>
      cases bytes with
      | nil => exact ih passed other
      | cons byte bytes =>
        simp only [step]
        split <;> exact ⟨rfl, rfl⟩
    | fault fault => exact ⟨rfl, rfl⟩
    | closed => exact ⟨rfl, rfl⟩
    | moment event => exact ih (event :: passed) (event :: other)

/-- The same stream, up to the moments that have been taken note of. -/
structure Same (source other : Source ε) : Prop where
  events : source.events = other.events
  asked : source.asked = other.asked

/-- Reads with the given outcomes lead from one stream to another. -/
inductive Reads : Source ε → List Reading → Source ε → Prop
  | done {source last : Source ε} : source.Same last → Reads source [] last
  | read {source next last : Source ε} {want : Nat} {reading : Reading} {readings : List Reading} :
      source.read want = (reading, next) → Reads next readings last →
      Reads source (reading :: readings) last

theorem Same.read {source other : Source ε} (same : source.Same other) (want : Nat) :
    (source.read want).1 = (other.read want).1 ∧
      (source.read want).2.Same (other.read want).2 := by
  have found := step_passed want source.passed other.passed source.events
  simp only [Source.read]
  rw [same.events] at found ⊢
  exact ⟨found.1, found.2, by rw [same.asked]⟩

namespace Reads

variable {source other middle last : Source ε} {first second : List Reading}

theorem refl (source : Source ε) : Reads source [] source := .done ⟨rfl, rfl⟩

theorem of_same (same : source.Same other) (reads : Reads other first last) :
    Reads source first last := by
  induction reads generalizing source with
  | done ended => exact .done ⟨same.events.trans ended.events, same.asked.trans ended.asked⟩
  | @read other next last want reading readings outcome _ ih =>
    obtain ⟨found, after⟩ := same.read want
    rw [outcome] at found after
    have read : source.read want = (reading, (source.read want).2) := Prod.ext found rfl
    exact .read read (ih after)

/-- Reads compose at the stream between them. -/
theorem append (earlier : Reads source first middle) (later : Reads middle second last) :
    Reads source (first ++ second) last := by
  induction earlier with
  | done same => exact later.of_same same
  | read outcome _ ih => exact .read outcome (ih later)

/-- Every byte that was left has arrived or is still left. -/
theorem left (reads : Reads source first last) : source.left = arrivals first ++ last.left := by
  induction reads with
  | done same => simp [Source.left, same.events]
  | @read source next last want reading readings outcome _ ih =>
    have conserved := source.left_read want
    rw [outcome] at conserved
    rw [conserved, ih, arrivals_cons, List.append_assoc]

theorem length_asked (reads : Reads source first last) :
    last.asked.length = first.length + source.asked.length := by
  induction reads with
  | done same => simp [same.asked]
  | @read source next last want reading readings outcome _ ih =>
    have asked : next.asked = want :: source.asked := (congrArg (·.2.asked) outcome).symm
    rw [ih, asked]
    simp only [List.length_cons]
    omega

/-- The sizes asked for before stay in the record. -/
theorem suffix_asked (reads : Reads source first last) : source.asked <:+ last.asked := by
  induction reads with
  | done same => exact same.asked ▸ List.suffix_rfl
  | @read source next last want reading readings outcome _ ih =>
    have asked : next.asked = want :: source.asked := (congrArg (·.2.asked) outcome).symm
    exact (asked ▸ List.suffix_cons want source.asked).trans ih

/-- The two streams fix the outcomes of the reads between them. -/
theorem unique (reads : Reads source first last) (others : Reads source second last) :
    first = second := by
  suffices ∀ (other : Source ε) (second : List Reading), source.Same other →
      Reads other second last → first = second from this source second ⟨rfl, rfl⟩ others
  clear others
  induction reads with
  | done ended =>
    intro other second same others
    have count := others.length_asked
    rw [← same.asked, ended.asked] at count
    exact (List.eq_nil_of_length_eq_zero (by omega)).symm
  | @read source next last want reading readings outcome reads ih =>
    intro other second same others
    have count := (Reads.read outcome reads).length_asked
    cases others with
    | done ended =>
      rw [same.asked, ended.asked] at count
      simp only [List.length_cons] at count
      omega
    | @read _ next' _ want' reading' readings' outcome' others =>
      have asked : next.asked = want :: source.asked := (congrArg (·.2.asked) outcome).symm
      have asked' : next'.asked = want' :: other.asked := (congrArg (·.2.asked) outcome').symm
      have wants : want = want' := by
        have lengths : next.asked.length = next'.asked.length := by
          rw [asked, asked', same.asked]
          rfl
        have equal : next.asked = next'.asked :=
          (List.suffix_of_suffix_length_le reads.suffix_asked others.suffix_asked
            (Nat.le_of_eq lengths)).eq_of_length lengths
        rw [asked, asked'] at equal
        exact (List.cons.inj equal).1
      subst wants
      obtain ⟨found, after⟩ := same.read want
      rw [outcome, outcome'] at found after
      rw [show reading = reading' from found, ih next' _ after others]

end Reads

end Source

end FramedTasks
