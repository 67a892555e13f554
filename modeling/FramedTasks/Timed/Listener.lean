import FramedTasks.Control.Listener
import FramedTasks.Timed.Lines

/-! # The shutdown listener in time

A listener over a timeline is always in the middle of a poll, of which the end and the outcome are
settled when it starts. What happens in the meantime is only whether the flag is set.
-/

namespace FramedTasks

/-- A span of milliseconds that is not empty. -/
structure Period where
  millis : Nat
  positive : 0 < millis

/-- The period of a number of milliseconds, at least one. -/
def Period.ofNat (millis : Nat) : Period := ⟨max millis 1, by omega⟩

/-- A listener with the poll in progress: when it ends, its outcome, and the source after it. -/
structure TimedListener where
  listener : Listener
  time : Nat
  poll : Poll
  lines : TimedLines
deriving DecidableEq, Repr

namespace TimedListener

def start (interval : Period) (now : Nat) (flag : Flag) (lines : TimedLines) : TimedListener :=
  let (time, poll, lines) := lines.poll now interval.millis
  { listener := Listener.check flag .checking, time, poll, lines }

/-- Let time pass until a given time, with the flag as it is: all polls that end by then. -/
def advance (sentinel : String) (interval : Period) (until' : Nat) (flag : Flag)
    (state : TimedListener) : TimedListener × Flag :=
  match _ : state.listener with
  | .polling =>
    if _ : until' < state.time then (state, flag)
    else
      match _ : state.listener.hear sentinel state.poll flag with
      | (.checking, flag') =>
        advance sentinel interval until' flag' (start interval state.time flag' state.lines)
      | (listener, flag') => ({ state with listener }, flag')
  | _ => (state, flag)
termination_by
  (state.lines.work, until' + 1 - state.time, state.poll.goesOn.toNat)
decreasing_by
  have polling : state.listener = .polling := ‹_›
  have round : state.listener.hear sentinel state.poll flag = (.checking, flag') := ‹_›
  have due : ¬ until' < state.time := ‹_›
  rw [polling] at round
  have goes := Listener.goesOn_of_hear round
  have positive := interval.positive
  obtain ⟨weak, late, later, strict⟩ := state.lines.progress_poll state.time interval.millis
  simp only [start]
  rcases Nat.lt_or_eq_of_le weak with less | same
  · exact Prod.Lex.left _ _ less
  · rw [same]
    refine Prod.Lex.right _ ?_
    generalize state.lines.poll state.time interval.millis = outcome at *
    obtain ⟨time, poll, lines⟩ := outcome
    simp only at *
    cases poll with
    | token text => have := strict text rfl; omega
    | idle =>
      have := late rfl
      exact Prod.Lex.left _ _ (by omega)
    | _ =>
      have := later (by simp)
      rcases Nat.lt_or_eq_of_le this with less | equal
      · exact Prod.Lex.left _ _ (by omega)
      · rw [← equal]
        exact Prod.Lex.right _ (by rw [goes]; exact Nat.zero_lt_one)

/-- When a control source breaks down in the middle of a poll, and what is told of it. -/
structure Breakdown where
  moment : Nat
  text : String
deriving DecidableEq, Repr

/-- The source of the listener breaks down at a time, unless its poll ends before. -/
def struck (breakdown : Breakdown) (state : TimedListener) : TimedListener :=
  if breakdown.moment ≤ state.time then
    { state with time := breakdown.moment, poll := .panic breakdown.text }
  else state

/-- Let time pass until a given time, on a source that may break down. -/
def live (sentinel : String) (interval : Period) (breakdown : Option Breakdown) (until' : Nat)
    (flag : Flag) (state : TimedListener) : TimedListener × Flag :=
  match breakdown with
  | none => advance sentinel interval until' flag state
  | some breakdown =>
    if until' < breakdown.moment then advance sentinel interval until' flag state
    else
      let (state, flag) := advance sentinel interval breakdown.moment flag state
      advance sentinel interval until' flag (state.struck breakdown)

/-- Let the poll in progress end, if there is one, with the flag set: the time of the end, and the
listener, which has ended. -/
def finish (sentinel : String) (state : TimedListener) : Nat × TimedListener :=
  match state.listener with
  | .ended _ => (0, state)
  | listener =>
    let (listener, flag) := listener.hear sentinel state.poll ⟨true⟩
    (state.time, { state with listener := listener.check flag })

/-- Run a listener on a control timeline while someone sets the flag at a given time, if at all:
the exit and the flag at that moment. There is no exit if the source is silent for ever and nobody
sets the flag. -/
def listen (sentinel : String) (interval : Period) (control : Timeline) (flag : Flag)
    (trigger : Option Nat) : Option ListenerExit × Flag :=
  let begun := start interval 0 flag { timeline := control }
  let horizon := trigger.getD control.lastTime
  let (state, flag) := advance sentinel interval horizon flag begun
  match state.listener, trigger with
  | .ended exit, _ => (some exit, flag)
  | _, none => (none, flag)
  | _, some _ =>
    match (state.finish sentinel).2.listener with
    | .ended exit => (some exit, ⟨true⟩)
    | _ => (none, ⟨true⟩)

end TimedListener

end FramedTasks
