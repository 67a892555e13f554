import Mathlib
import FramedTasks.Proofs.Worker.Blocking
import FramedTasks.Proofs.Worker.Calls
import FramedTasks.Proofs.Worker.Timed

/-! # The life of a worker

Every call of either worker obeys what `Obeys` says, and a call that makes a worker work returns
after its listener has ended (`concludes_doWork`). So a worker works at most once, whatever calls
there are (`lifecycles`).
-/

namespace FramedTasks

/-! ## The worker that blocks -/

namespace BlockingWorker

/-- What can happen to a worker, with any control source, for whose listener there may be no thread,
any processor and any outcome of a poll of its listener. -/
inductive Step (worker : BlockingWorker) : Occurrence → BlockingWorker → Prop
  | initial (supply : Listener.Supply) (unstarted : Option Fault) :
      Step worker (.initialized (worker.initial supply unstarted).1)
        (worker.initial supply unstarted).2
  | doWork {σ : Type} (processor : Processor σ) (state : σ) :
      Step worker (.worked (worker.doWork processor state).1) (worker.doWork processor state).2.2
  | trigger : Step worker .elsewhere worker.trigger.2
  | moment (moment : Moment) : Step worker .elsewhere (worker.witness moment)

variable {σ : Type} {worker : BlockingWorker} {processor : Processor σ} {state : σ}

/-- What goes wrong while a request is served goes wrong in a step of the cycle. -/
theorem stage_of_serve {payload : Bytes} {error : WorkerError}
    (failed : (worker.serve processor state payload).1 = .error error) : error.stage?.isSome := by
  simp only [serve] at failed
  split at failed
  · obtain rfl := Except.error.inj failed
    rfl
  · exact Option.isSome_of_eq_some (stage_of_mapError (fun _ => rfl) failed)

theorem isCycleEnd_run (worker : BlockingWorker) (processor : Processor σ) (state : σ) :
    IsCycleEnd (worker.run processor state).1 := by
  fun_induction BlockingWorker.run worker processor state with
  | case1 => trivial
  | case2 => trivial
  | case3 => trivial
  | case4 => rfl
  | case5 worker state clear payload after awaited error state' last served =>
    exact @stage_of_serve _ after processor state payload error (by rw [served])
  | case6 worker state clear payload after awaited state' last served ih => exact ih

theorem doWork_of_terminated (gone : worker.stage = .terminated) (processor : Processor σ) (state : σ) :
    worker.doWork processor state = (.error .terminated, state, worker) := by
  rw [doWork, if_pos gone]

theorem doWork_of_uninitialized (alive : worker.stage ≠ .terminated)
    (deaf : worker.link.listener.isNone = true) (processor : Processor σ) (state : σ) :
    worker.doWork processor state = (.error .notInitialized, state, worker) := by
  rw [doWork, if_neg alive, if_pos deaf]

theorem doWork_of_listening (alive : worker.stage ≠ .terminated)
    (listens : worker.link.listener.isNone = false) (processor : Processor σ) (state : σ) :
    let (ended, state', last) := worker.run processor state
    worker.doWork processor state = ((conclude ended last).1, state', (conclude ended last).2) := by
  simp only [doWork, if_neg alive, listens, Bool.false_eq_true, if_false]

theorem obeys_initial (worker : BlockingWorker) (supply : Listener.Supply) (unstarted : Option Fault) :
    Obeys worker (.initialized (worker.initial supply unstarted).1)
      (worker.initial supply unstarted).2 := by
  simp only [initial]
  split
  · exact .of_refusal rfl fun _ => .inl rfl
  · next alive =>
    split
    · exact .of_refusal rfl fun gone => absurd gone alive
    · cases unstarted with
      | some fault => exact .of_unstarted alive _
      | none => exact .of_initialized alive rfl fun set => Listener.isSet_start set supply

/-- A worker that has waited for its listener is left with the flag that it has set. -/
theorem flag_conclude (ended : Except WorkerError Termination) (worker : BlockingWorker) :
    (conclude ended worker).2.flag.isSet = true := by
  obtain ⟨listener, joined, same⟩ := join_eq worker.trigger.2
  simp only [conclude, same]
  rfl

theorem obeys_doWork (worker : BlockingWorker) (processor : Processor σ) (state : σ) :
    Obeys worker (.worked (worker.doWork processor state).1) (worker.doWork processor state).2.2 := by
  by_cases gone : worker.stage = .terminated
  · rw [doWork_of_terminated gone]
    exact .of_refusal rfl fun _ => .inr rfl
  cases listens : worker.link.listener.isNone with
  | true =>
    rw [doWork_of_uninitialized gone listens]
    exact .of_refusal rfl fun terminated => absurd terminated gone
  | false =>
    rw [doWork_of_listening gone listens]
    exact .of_run (isRun_concluded (isCycleEnd_run worker processor state) _) gone rfl
      (flag_conclude (worker.run processor state).1 _)

theorem Step.obeys {occurrence : Occurrence} {after : BlockingWorker}
    (step : Step worker occurrence after) : Obeys worker occurrence after := by
  cases step with
  | initial supply unstarted => exact obeys_initial worker supply unstarted
  | doWork processor state => exact obeys_doWork worker processor state
  | trigger => exact .of_elsewhere rfl fun _ => rfl
  | moment moment =>
    cases moment with
    | trigger => exact .of_elsewhere rfl fun _ => rfl
    | control poll =>
      simp only [witness]
      split
      · exact .of_elsewhere rfl id
      · exact .of_elsewhere rfl fun set => Listener.isSet_hear set ..

/-- A call that makes the worker work returns after the listener has ended, with a note of how. -/
theorem concludes_doWork
    (runs : Occurrence.isRun (.worked (worker.doWork processor state).1) = true) :
    ∃ exit, (settle (worker.run processor state).2.2.trigger.2).link.listener = some (.ended exit) ∧
      (worker.doWork processor state).2.2.link.joined = some exit ∧
      (worker.doWork processor state).2.2.link.listener = none ∧
      Concludes (worker.run processor state).1 exit (worker.doWork processor state).1 := by
  by_cases gone : worker.stage = .terminated
  · rw [doWork_of_terminated gone] at runs
    contradiction
  cases listens : worker.link.listener.isNone with
  | true =>
    rw [doWork_of_uninitialized gone listens] at runs
    contradiction
  | false =>
    have remains := isNone_listener_run worker processor state
    rw [listens, Option.isNone_eq_false_iff, Option.isSome_iff_exists] at remains
    obtain ⟨listener, present⟩ := remains
    have cycles := isCycleEnd_run worker processor state
    rw [doWork_of_listening gone listens]
    generalize worker.run processor state = ran at *
    obtain ⟨ended, state', last⟩ := ran
    obtain ⟨exit, ends, joined⟩ := @join_of_listening last.trigger.2 listener present rfl
    have panics : (join last.trigger.2).listenerPanic? = exit.panic? := by
      rw [joined]
      cases exit <;> rfl
    simp only [conclude, panics]
    refine ⟨exit, ?_, ?_, ?_, concludes_concluded cycles exit⟩
    · rw [← ends]
      exact congrArg (Option.map _) present
    · rw [joined]
      rfl
    · rw [joined]
      rfl

end BlockingWorker

/-! ## The worker that waits in time -/

/-- A listener that has not broken down and is not about to. -/
structure TimedListener.IsSound (state : TimedListener) : Prop where
  intact : state.listener.IsIntact
  coming : (Moment.control state.poll).IsSound

namespace TimedLines

theorem sound_pollOf (line : Bytes) : (Moment.control (pollOf line)).IsSound := by
  simp only [pollOf]
  split <;> trivial

theorem sound_atEnd (time : Nat) (lines : TimedLines) :
    (Moment.control (atEnd time lines).2.1).IsSound := by
  simp only [atEnd]
  split
  · trivial
  · exact sound_pollOf _

/-- A timeline does not break down by itself. -/
theorem sound_waitFrom (hangs : Bool) (deadline now : Nat) (buffer : Bytes)
    (events : List (Nat × TimedEvent)) :
    (Moment.control (waitFrom hangs deadline now buffer events).2.1).IsSound := by
  fun_induction waitFrom hangs deadline now buffer events with
  | case1 => exact sound_pollOf _
  | case2 => trivial
  | case3 => exact sound_atEnd ..
  | case4 => trivial
  | case5 _ _ _ _ _ _ _ ih => exact ih
  | case6 => trivial
  | case7 => exact sound_atEnd ..

end TimedLines

namespace TimedListener

variable {sentinel : String} {interval : Period} {flag : Flag} {state : TimedListener}

theorem isSound_start (interval : Period) (now : Nat) (flag : Flag) (lines : TimedLines) :
    (start interval now flag lines).IsSound :=
  ⟨Listener.IsIntact.check (show Listener.IsIntact .checking from trivial) flag,
    TimedLines.sound_waitFrom ..⟩

theorem IsSound.advance (sound : state.IsSound) (time : Nat) :
    (TimedListener.advance sentinel interval time flag state).1.IsSound := by
  fun_induction TimedListener.advance sentinel interval time flag state with
  | case1 => exact sound
  | case2 flag state polling due flag' heard ih => exact ih (isSound_start ..)
  | case3 flag state polling due listener flag' other heard =>
    have intact := sound.intact.hear sound.coming sentinel flag
    rw [heard] at intact
    exact ⟨intact, sound.coming⟩
  | case4 => exact sound

theorem isSet_advance (set : flag.isSet = true) (time : Nat) (state : TimedListener) :
    (TimedListener.advance sentinel interval time flag state).2.isSet = true := by
  fun_induction TimedListener.advance sentinel interval time flag state with
  | case1 => exact set
  | case2 flag state polling due flag' heard ih =>
    have still := @Listener.isSet_hear sentinel flag set state.poll state.listener
    rw [heard] at still
    exact ih still
  | case3 flag state polling due listener flag' other heard =>
    have still := @Listener.isSet_hear sentinel flag set state.poll state.listener
    rwa [heard] at still
  | case4 => exact set

theorem isSet_live (set : flag.isSet = true) (breakdown : Option Breakdown) (time : Nat)
    (state : TimedListener) :
    (TimedListener.live sentinel interval breakdown time flag state).2.isSet = true := by
  cases breakdown with
  | none => exact isSet_advance set ..
  | some breakdown =>
    simp only [live]
    split
    · exact isSet_advance set ..
    · exact isSet_advance (isSet_advance set ..) ..

/-- The poll in progress ends the listener, the flag being set. -/
theorem finish_eq (sentinel : String) (state : TimedListener) :
    (state.finish sentinel).2.listener = Listener.notice sentinel state.poll ⟨true⟩ state.listener := by
  cases standing : state.listener with
  | ended exit => simp only [finish, standing]; rfl
  | checking => simp only [finish, standing]; rfl
  | polling =>
    have set := @Listener.isSet_hear sentinel ⟨true⟩ rfl state.poll .polling
    simp only [finish, standing, Listener.notice]
    generalize Listener.hear sentinel state.poll ⟨true⟩ .polling = heard at *
    obtain ⟨listener, ⟨isSet⟩⟩ := heard
    obtain rfl : isSet = true := set
    rfl

end TimedListener

namespace TimedWorker

/-- What can happen to a worker, with any control source, that may break down, and any processor. A
call that waits for ever is the last one. -/
inductive Step (worker : TimedWorker) : Occurrence → TimedWorker → Prop
  | initial (control : Timeline) (breakdown : Option TimedListener.Breakdown) :
      Step worker (.initialized (worker.initial control breakdown).1)
        (worker.initial control breakdown).2
  | doWork {σ : Type} (processor : TaskProcessor σ) (state : σ)
      {result : Except WorkerError Termination} :
      (worker.doWork processor state).1 = some result →
      Step worker (.worked result) (worker.doWork processor state).2.2
  | trigger : Step worker .elsewhere worker.trigger.2
  | pass (time : Nat) : Step worker .elsewhere (worker.passTo time)

variable {σ : Type} {worker : TimedWorker} {processor : TaskProcessor σ} {state : σ}

theorem stage_of_serve {payload : Bytes} {error : WorkerError}
    (failed : (worker.serve processor state payload).1 = .error error) : error.stage?.isSome := by
  cases read : (worker.config.codec.decode payload : Except CodecError InputTask) with
  | error fault =>
    rw [serve_of_error read] at failed
    obtain rfl := Except.error.inj failed
    rfl
  | ok task =>
    rw [serve_of_ok read] at failed
    simp only [sendReply] at failed
    split at failed
    · obtain rfl := Except.error.inj failed
      rfl
    · exact Option.isSome_of_eq_some (stage_of_mapError (fun _ => rfl) failed)

theorem isCycleEnd_run {cycles : Except WorkerError Termination} {horizon : Nat}
    (ended : (worker.run horizon processor state).1 = some cycles) : IsCycleEnd cycles := by
  fun_induction TimedWorker.run horizon worker processor state with
  | case1 =>
    obtain rfl := Option.some.inj ended
    trivial
  | case2 =>
    obtain rfl := Option.some.inj ended
    trivial
  | case3 =>
    obtain rfl := Option.some.inj ended
    rfl
  | case4 => contradiction
  | case5 worker state clear after awaited early ih => exact ih ended
  | case6 => contradiction
  | case7 worker state clear payload after awaited error state' last served =>
    obtain rfl := Option.some.inj ended
    exact @stage_of_serve _ after processor state payload error (by rw [served])
  | case8 worker state clear payload after awaited state' last served ih => exact ih ended

/-- A listener whose source does not break down has not broken down and is not about to. -/
def Sound (worker : TimedWorker) : Prop :=
  worker.link.breakdown = none → ∀ listener, worker.link.listener = some listener → listener.IsSound

theorem Sound.passTo (sound : Sound worker) (time : Nat) : Sound (worker.passTo time) := by
  apply @passTo_preserves worker time Sound
  · intro before time sound
    simp only [advanceListener]
    split
    · exact sound
    · next listener listens =>
      rintro unbroken _ ⟨⟩
      obtain unbroken : before.link.breakdown = none := unbroken
      rw [unbroken]
      exact (sound unbroken listener listens).advance time
  · exact fun _ sound => sound
  · exact fun _ _ sound => sound
  · exact sound

theorem isNone_listener_passTo (worker : TimedWorker) (time : Nat) :
    (worker.passTo time).link.listener.isNone = worker.link.listener.isNone := by
  apply @passTo_preserves worker time fun after =>
    after.link.listener.isNone = worker.link.listener.isNone
  · intro before time same
    simp only [advanceListener]
    split
    · exact same
    · next listener listens =>
      rw [listens] at same
      exact same
  · exact fun _ same => same
  · exact fun _ _ same => same
  · rfl

/-- A run leaves the listener in its place. -/
theorem isNone_listener_run (worker : TimedWorker) (horizon : Nat) (processor : TaskProcessor σ)
    (state : σ) :
    (worker.run horizon processor state).2.2.link.listener.isNone = worker.link.listener.isNone := by
  apply @run_listening _ worker processor fun after =>
    after.link.listener.isNone = worker.link.listener.isNone
  · intro before after unmoved same
    rw [unmoved.listener]
    exact same
  · intro middle time same
    exact (isNone_listener_passTo middle time).trans same
  · rfl

theorem Sound.run (sound : Sound worker) (horizon : Nat) (processor : TaskProcessor σ) (state : σ) :
    Sound (worker.run horizon processor state).2.2 := by
  apply @run_listening _ worker processor Sound
  · intro before after unmoved sound unbroken listener listens
    rw [unmoved.breakdown] at unbroken
    rw [unmoved.listener] at listens
    exact sound unbroken listener listens
  · exact fun _ time sound => sound.passTo time
  · exact sound

theorem isSet_passTo (set : worker.flag.isSet = true) (time : Nat) :
    (worker.passTo time).flag.isSet = true := by
  apply @passTo_preserves worker time fun after => after.flag.isSet = true
  · intro before time set
    simp only [advanceListener]
    split
    · exact set
    · exact TimedListener.isSet_live set ..
  · exact fun _ _ => rfl
  · exact fun _ _ set => set
  · exact set

theorem stage_passTo (worker : TimedWorker) (time : Nat) : (worker.passTo time).stage = worker.stage := by
  apply @passTo_preserves worker time fun after => after.stage = worker.stage
  · intro before time same
    simp only [advanceListener]
    split <;> exact same
  · exact fun _ same => same
  · exact fun _ _ same => same
  · rfl

theorem obeys_initial (worker : TimedWorker) (control : Timeline)
    (breakdown : Option TimedListener.Breakdown) :
    Obeys worker (.initialized (worker.initial control breakdown).1)
      (worker.initial control breakdown).2 := by
  simp only [initial]
  split
  · exact .of_refusal rfl fun _ => .inl rfl
  · next alive =>
    split
    · exact .of_refusal rfl fun gone => absurd gone alive
    · exact .of_initialized alive rfl id

theorem flag_leaving (worker : TimedWorker) : worker.leaving.flag.isSet = true := by
  obtain ⟨clock, listener, joined, same⟩ := join_eq worker.trigger.2
  simp only [leaving, same]
  rfl

theorem obeys_doWork {result : Except WorkerError Termination}
    (returned : (worker.doWork processor state).1 = some result) :
    Obeys worker (.worked result) (worker.doWork processor state).2.2 := by
  by_cases gone : worker.stage = .terminated
  · rw [doWork_of_terminated gone] at returned ⊢
    obtain rfl := Option.some.inj returned
    exact .of_refusal rfl fun _ => .inr rfl
  cases listens : worker.link.listener.isNone with
  | true =>
    rw [doWork_of_uninitialized gone listens] at returned ⊢
    obtain rfl := Option.some.inj returned
    exact .of_refusal rfl fun terminated => absurd terminated gone
  | false =>
    obtain ⟨cycles, ended, rfl, left⟩ := doWork_of_listening gone listens returned
    rw [left]
    exact .of_run (isRun_concluded (isCycleEnd_run ended) _) gone rfl (flag_leaving _)

theorem Step.obeys {occurrence : Occurrence} {after : TimedWorker}
    (step : Step worker occurrence after) : Obeys worker occurrence after := by
  cases step with
  | initial control breakdown => exact obeys_initial worker control breakdown
  | doWork processor state returned => exact obeys_doWork returned
  | trigger => exact .of_elsewhere rfl fun _ => rfl
  | pass time => exact .of_elsewhere (stage_passTo worker time) fun set => isSet_passTo set time

/-- A worker notes how its listener has ended, at the time of that or later. -/
theorem join_of_finished {time : Nat} {listener : TimedListener} {exit : ListenerExit}
    (finished : worker.finish? = some (time, listener)) (ends : listener.listener = .ended exit) :
    worker.join = { worker with link := { worker.link with
      clock := max worker.link.clock time, listener := none, joined := some exit } } := by
  obtain ⟨standing, until', poll, lines⟩ := listener
  obtain rfl : standing = .ended exit := ends
  simp only [join, settle, finished]

/-- The listener of a worker that is asked to finish ends, and is heard of as it ended. -/
theorem ended_finish (sound : Sound worker) (listens : worker.link.listener.isNone = false) :
    ∃ time listener exit, worker.finish? = some (time, listener) ∧ listener.listener = .ended exit ∧
      (join worker).listenerPanic? = exit.panic? := by
  rw [Option.isNone_eq_false_iff, Option.isSome_iff_exists] at listens
  obtain ⟨listener, present⟩ := listens
  have ends (listener : TimedListener) :
      ∃ exit, (listener.finish worker.config.sentinel).2.listener = .ended exit := by
    obtain ⟨exit, ended⟩ :=
      @Listener.ended_notice worker.config.sentinel ⟨true⟩ rfl listener.poll listener.listener
    exact ⟨exit, (TimedListener.finish_eq _ listener).trans ended⟩
  cases breaks : worker.link.breakdown with
  | none =>
    obtain ⟨exit, ended⟩ := ends listener
    have finished : worker.finish? = some (listener.finish worker.config.sentinel) := by
      simp only [finish?, present, breaks, Option.map_some]
    refine ⟨_, _, exit, finished, ended, ?_⟩
    have intact : (Listener.ended exit).IsIntact := by
      rw [← ended, TimedListener.finish_eq]
      have before := sound breaks listener present
      exact (before.intact.hear before.coming worker.config.sentinel ⟨true⟩).check ⟨true⟩
    have unspoilt : exit.panic? = none := by
      cases exit with
      | panicked text => exact intact.elim
      | _ => rfl
    rw [unspoilt, join_of_finished finished ended]
    simp only [listenerPanic?, breaks]
  | some breakdown =>
    obtain ⟨exit, ended⟩ := ends (listener.struck breakdown)
    have finished : worker.finish? =
        some ((listener.struck breakdown).finish worker.config.sentinel) := by
      simp only [finish?, present, breaks, Option.map_some]
    refine ⟨_, _, exit, finished, ended, ?_⟩
    rw [join_of_finished finished ended]
    simp only [listenerPanic?, breaks]
    cases exit <;> rfl

theorem Step.sound {occurrence : Occurrence} {after : TimedWorker}
    (step : Step worker occurrence after) (sound : Sound worker) : Sound after := by
  cases step with
  | initial control breakdown =>
    simp only [TimedWorker.initial]
    split
    · exact sound
    · split
      · exact sound
      · rintro - _ ⟨⟩
        exact TimedListener.isSound_start ..
  | doWork processor state returned =>
    by_cases gone : worker.stage = .terminated
    · rw [doWork_of_terminated gone]
      exact sound
    cases listens : worker.link.listener.isNone with
    | true =>
      rw [doWork_of_uninitialized gone listens]
      exact sound
    | false =>
      obtain ⟨cycles, ended, concluded, left⟩ := doWork_of_listening gone listens returned
      obtain ⟨time, listener, exit, finished, stands, -⟩ :=
        @ended_finish (worker.run worker.horizon processor state).2.2.trigger.2
          (sound.run worker.horizon processor state)
          ((isNone_listener_run worker worker.horizon processor state).trans listens)
      rw [left, leaving, join_of_finished finished stands]
      rintro - _ ⟨⟩
  | trigger => exact sound
  | pass time => exact sound.passTo time

/-- A call that makes the worker work returns after the listener has ended, with a note of how. -/
theorem concludes_doWork (sound : Sound worker) {result : Except WorkerError Termination}
    (returned : (worker.doWork processor state).1 = some result)
    (runs : Occurrence.isRun (.worked result) = true) :
    ∃ cycles time listener exit, (worker.run worker.horizon processor state).1 = some cycles ∧
      finish? (worker.run worker.horizon processor state).2.2.trigger.2 = some (time, listener) ∧
      listener.listener = .ended exit ∧
      time ≤ (worker.doWork processor state).2.2.link.clock ∧
      (worker.doWork processor state).2.2.link.joined = some exit ∧
      (worker.doWork processor state).2.2.link.listener = none ∧
      Concludes cycles exit result := by
  by_cases gone : worker.stage = .terminated
  · rw [doWork_of_terminated gone] at returned
    obtain rfl := Option.some.inj returned
    contradiction
  cases listens : worker.link.listener.isNone with
  | true =>
    rw [doWork_of_uninitialized gone listens] at returned
    obtain rfl := Option.some.inj returned
    contradiction
  | false =>
    obtain ⟨cycles, ended, rfl, left⟩ := doWork_of_listening gone listens returned
    have remains := isNone_listener_run worker worker.horizon processor state
    have sound' := sound.run worker.horizon processor state
    obtain ⟨time, listener, exit, finished, stands, told⟩ :=
      @ended_finish (worker.run worker.horizon processor state).2.2.trigger.2 sound'
        (remains.trans listens)
    rw [told, left, leaving, join_of_finished finished stands]
    refine ⟨cycles, time, listener, exit, ended, finished, stands, ?_, rfl, rfl, ?_⟩
    · exact Nat.le_max_right ..
    · exact concludes_concluded (isCycleEnd_run ended) exit

end TimedWorker

/-! ## Whatever calls there are -/

/-- Between two calls a worker is idle or terminated. It has worked at most once, and is terminated
with its flag set if it has. A call that is refused changes nothing, and every call of a terminated
worker is. A call that makes the worker work returns after its listener has ended, and tells of a
listener that broke down if nothing else went wrong. -/
theorem lifecycles :
    (∀ (first last : BlockingWorker) (occurrences : List Occurrence), first.stage = .idle →
      History BlockingWorker.Step first occurrences last →
      AtRest last (occurrences.countP (·.isRun)) ∧
        (∀ occurrence after, BlockingWorker.Step last occurrence after →
          Obeys last occurrence after) ∧
        ∀ (σ : Type) (processor : Processor σ) (state : σ),
          Occurrence.isRun (.worked (last.doWork processor state).1) = true →
          ∃ exit, (BlockingWorker.settle (last.run processor state).2.2.trigger.2).link.listener =
              some (.ended exit) ∧
            (last.doWork processor state).2.2.link.joined = some exit ∧
            (last.doWork processor state).2.2.link.listener = none ∧
            Concludes (last.run processor state).1 exit (last.doWork processor state).1) ∧
    (∀ (first last : TimedWorker) (occurrences : List Occurrence), first.stage = .idle →
      first.link.listener = none → History TimedWorker.Step first occurrences last →
      AtRest last (occurrences.countP (·.isRun)) ∧
        (∀ occurrence after, TimedWorker.Step last occurrence after → Obeys last occurrence after) ∧
        ∀ (σ : Type) (processor : TaskProcessor σ) (state : σ) (result : Except WorkerError Termination),
          (last.doWork processor state).1 = some result → Occurrence.isRun (.worked result) = true →
          ∃ cycles time listener exit, (last.run last.horizon processor state).1 = some cycles ∧
            TimedWorker.finish? (last.run last.horizon processor state).2.2.trigger.2 =
              some (time, listener) ∧
            listener.listener = .ended exit ∧
            time ≤ (last.doWork processor state).2.2.link.clock ∧
            (last.doWork processor state).2.2.link.joined = some exit ∧
            (last.doWork processor state).2.2.link.listener = none ∧
            Concludes cycles exit result) := by
  constructor
  · intro first last occurrences idle history
    refine ⟨history.atRest (fun _ _ _ step => step.obeys) idle, fun _ _ step => step.obeys, ?_⟩
    intro σ processor state runs
    exact BlockingWorker.concludes_doWork runs
  · intro first last occurrences idle deaf history
    have sound : last.Sound := by
      apply history.preserves fun _ _ _ step sound => step.sound sound
      intro _ listener listens
      rw [deaf] at listens
      contradiction
    refine ⟨history.atRest (fun _ _ _ step => step.obeys) idle, fun _ _ step => step.obeys, ?_⟩
    intro σ processor state result returned runs
    exact TimedWorker.concludes_doWork sound returned runs

/-- Workers that are asked to stop before they work, and whose listeners break down at the end. -/
theorem lifecycles_panicked :
    let processor : Processor Unit := fun _ task _ => ⟨.reply (.done task.message), (), false, 0⟩
    let first : BlockingWorker := .between { events := [] } {}
    let asked : BlockingWorker :=
      (first.initial { staysOpen := true, lastPoll := .panic "gone" }).2.trigger.2
    let processor' : TaskProcessor Unit := fun _ task => ⟨.reply (.done task.message), (), false, 0⟩
    let first' : TimedWorker := { link := { stream := { events := [], hangs := true } } }
    let asked' : TimedWorker :=
      (first'.initial { events := [], hangs := true } (some ⟨7, "gone"⟩)).2.trigger.2
    (asked.doWork processor ()).1 = .error (.listenerPanicked "gone") ∧
      AtRest (asked.doWork processor ()).2.2 1 ∧
      (asked'.doWork processor' ()).1 = some (.error (.listenerPanicked "gone")) ∧
      AtRest (asked'.doWork processor' ()).2.2 1 := by
  intro processor first asked processor' first' asked'
  have ran : asked.run processor () = (.ok .shutdown, (), asked.enter .shuttingDown) := by
    rw [BlockingWorker.run, if_pos (show asked.flag.isSet = true from rfl)]
  have ran' : asked'.run asked'.horizon processor' () =
      (some (.ok .shutdown), (), asked'.enter .shuttingDown) :=
    TimedWorker.run_of_set rfl ..
  have result : (asked.doWork processor ()).1 = .error (.listenerPanicked "gone") := by
    rw [BlockingWorker.doWork_of_listening Stage.noConfusion rfl, ran]
    rfl
  have result' : (asked'.doWork processor' ()).1 = some (.error (.listenerPanicked "gone")) := by
    simp only [TimedWorker.doWork, ran']
    cbv
  have history : History BlockingWorker.Step first _ (asked.doWork processor ()).2.2 :=
    .next (.next (.next .new (.initial _ none)) .trigger) (.doWork processor ())
  have history' : History TimedWorker.Step first' _ (asked'.doWork processor' ()).2.2 :=
    .next (.next (.next .new (.initial _ _)) .trigger) (.doWork processor' () result')
  have rest := (lifecycles.1 _ _ _ rfl history).1
  have rest' := (lifecycles.2 _ _ _ rfl rfl history').1
  rw [result] at rest
  exact ⟨result, rest, result', rest'⟩

end FramedTasks
