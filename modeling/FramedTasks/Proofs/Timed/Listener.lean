import FramedTasks.Timed.Listener

/-! # Listening in time

A listener that lives through two spans of time has lived through the longer of them
(`advance_advance`), so that a listener which never sets the flag stays one whatever time has
passed, whether its source breaks down or not (`IsQuiet.live`).
-/

namespace FramedTasks.TimedListener

section Advance

variable {sentinel : String} {interval : Period} {state : TimedListener} {time : Nat}
  {flag flag' : Flag}

theorem advance_of_ne (other : state.listener ≠ .polling) :
    advance sentinel interval time flag state = (state, flag) := by
  rw [advance]
  split
  · contradiction
  · rfl

theorem advance_of_lt (early : time < state.time) :
    advance sentinel interval time flag state = (state, flag) := by
  rw [advance]
  split
  · simp [early]
  · rfl

theorem advance_of_checking (polling : state.listener = .polling) (due : ¬ time < state.time)
    (heard : state.listener.hear sentinel state.poll flag = (.checking, flag')) :
    advance sentinel interval time flag state =
      advance sentinel interval time flag' (start interval state.time flag' state.lines) := by
  rw [advance]
  split
  · rw [dif_neg due]
    split
    · next round =>
      rw [heard] at round
      obtain ⟨-, rfl⟩ := Prod.mk.inj round
      rfl
    · next other round =>
      rw [heard] at round
      exact absurd (Prod.mk.inj round).1.symm other
  · contradiction

theorem advance_of_ended {listener : Listener} (polling : state.listener = .polling)
    (due : ¬ time < state.time) (other : listener ≠ .checking)
    (heard : state.listener.hear sentinel state.poll flag = (listener, flag')) :
    advance sentinel interval time flag state = ({ state with listener }, flag') := by
  rw [advance]
  split
  · rw [dif_neg due]
    split
    · next round =>
      rw [heard] at round
      exact absurd (Prod.mk.inj round).1 other
    · next round =>
      rw [heard] at round
      obtain ⟨rfl, rfl⟩ := Prod.mk.inj round
      rfl
  · contradiction

/-- A listener is never left in the middle of the poll that it has heard. -/
theorem hear_ne_polling (sentinel : String) (poll : Poll) (flag : Flag) :
    (Listener.hear sentinel poll flag .polling).1 ≠ .polling := by
  cases poll with
  | token text =>
    simp only [Listener.hear]
    split <;> simp
  | _ => simp [Listener.hear]

/-- Two spans of time are one. -/
theorem advance_advance (first second : Nat) (flag : Flag) (state : TimedListener) :
    advance sentinel interval second (advance sentinel interval first flag state).2
        (advance sentinel interval first flag state).1 =
      advance sentinel interval (max first second) flag state := by
  fun_induction advance sentinel interval first flag state with
  | case1 flag state polling early =>
    by_cases late : second < state.time
    · rw [advance_of_lt late, advance_of_lt (by omega)]
    · rw [Nat.max_eq_right (by omega)]
  | case2 flag state polling due flag' heard ih =>
    rw [ih, ← advance_of_checking polling (by omega) heard]
  | case3 flag state polling due listener flag' other heard =>
    have ended : listener ≠ .polling := by
      rintro rfl
      rw [polling] at heard
      exact hear_ne_polling sentinel state.poll flag (congrArg Prod.fst heard)
    rw [advance_of_ended polling (by omega) other heard, advance_of_ne ended]
  | case4 flag state other => rw [advance_of_ne other, advance_of_ne other]

/-- However long the listener lives, it does not set a flag that is clear. -/
def IsQuiet (sentinel : String) (interval : Period) (state : TimedListener) : Prop :=
  ∀ time, (advance sentinel interval time {} state).2 = {}

theorem IsQuiet.advance (quiet : state.IsQuiet sentinel interval) (time : Nat) :
    (TimedListener.advance sentinel interval time {} state).1.IsQuiet sentinel interval := by
  intro later
  have joined := @advance_advance sentinel interval time later {} state
  rw [quiet time] at joined
  rw [joined]
  exact quiet _

/-- A source that breaks down does not make its listener set the flag. -/
theorem IsQuiet.struck (quiet : state.IsQuiet sentinel interval) (breakdown : Breakdown) :
    (state.struck breakdown).IsQuiet sentinel interval := by
  intro time
  simp only [TimedListener.struck]
  split
  · cases standing : state.listener with
    | polling =>
      by_cases early : time < breakdown.moment
      · rw [advance_of_lt early]
      · rw [@advance_of_ended _ _ _ _ _ _ (.ended (.panicked breakdown.text)) rfl early
          Listener.noConfusion rfl]
    | _ => rw [advance_of_ne (by simp)]
  · exact quiet time

theorem IsQuiet.live (quiet : state.IsQuiet sentinel interval) (breakdown : Option Breakdown)
    (time : Nat) :
    (TimedListener.live sentinel interval breakdown time {} state).2 = {} ∧
      (TimedListener.live sentinel interval breakdown time {} state).1.IsQuiet sentinel interval := by
  cases breakdown with
  | none => exact ⟨quiet time, quiet.advance time⟩
  | some breakdown =>
    simp only [TimedListener.live]
    split
    · exact ⟨quiet time, quiet.advance time⟩
    · have struck := (quiet.advance breakdown.moment).struck breakdown
      rw [quiet breakdown.moment]
      exact ⟨struck time, struck.advance time⟩

end Advance

end FramedTasks.TimedListener
