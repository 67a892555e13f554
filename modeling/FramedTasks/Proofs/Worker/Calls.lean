import FramedTasks.Control.Listener
import FramedTasks.Worker.Basic
import Mathlib.Tactic.ByContra

/-! # Calls of a worker

A worker is idle until it has worked, which it does at most once, and terminated from then on. The
calls may come in any order, and the flag may be set and the listener go on between them. `Obeys`
says what one call does to a worker, and `AtRest` what holds between two calls, whatever calls there
were (`History.atRest`). A run that has ended is followed by the end of the listener, of which
`Concludes` tells what it makes of the result.
-/

namespace FramedTasks

def WorkerError.isRefusal : WorkerError → Bool
  | .notInitialized | .alreadyInitialized | .terminated => true
  | _ => false

/-- Something in the life of a worker: a call with its result, or something that happens between the
calls. -/
inductive Occurrence where
  | initialized (result : Except WorkerError Unit)
  | worked (result : Except WorkerError Termination)
  | elsewhere

namespace Occurrence

def isRefused : Occurrence → Bool
  | .initialized (.error error) | .worked (.error error) => error.isRefusal
  | _ => false

def isRun : Occurrence → Bool
  | .worked result => !isRefused (.worked result)
  | _ => false

end Occurrence

section Calls

variable {Link : Type}

/-- What an occurrence does to a worker. -/
structure Obeys (worker : Worker Link) (occurrence : Occurrence) (after : Worker Link) : Prop where
  refused : occurrence.isRefused = true → after = worker
  unstarted : ∀ error, occurrence = .initialized (.error error) → after = worker
  rests : occurrence.isRun = false → after.stage = worker.stage
  flag : worker.flag.isSet = true → after.flag.isSet = true
  runs : occurrence.isRun = true →
    worker.stage ≠ .terminated ∧ after.stage = .terminated ∧ after.flag.isSet = true
  gone : worker.stage = .terminated → occurrence = .initialized (.error .terminated) ∨
    occurrence = .worked (.error .terminated) ∨ occurrence = .elsewhere

namespace Obeys

variable {worker after : Worker Link} {occurrence : Occurrence}

theorem of_refusal (refused : occurrence.isRefused = true)
    (gone : worker.stage = .terminated → occurrence = .initialized (.error .terminated) ∨
      occurrence = .worked (.error .terminated)) : Obeys worker occurrence worker := by
  refine ⟨fun _ => rfl, fun _ _ => rfl, fun _ => rfl, id, ?_, fun terminated => ?_⟩
  · cases occurrence with
    | worked result => simp [Occurrence.isRun, refused]
    | _ => exact fun run => Bool.noConfusion run
  · exact (gone terminated).elim .inl fun worked => .inr (.inl worked)

/-- What is no call leaves the stage alone and never clears the flag. -/
theorem of_elsewhere (stage : after.stage = worker.stage)
    (flag : worker.flag.isSet = true → after.flag.isSet = true) : Obeys worker .elsewhere after :=
  ⟨fun refused => Bool.noConfusion refused, nofun, fun _ => stage, flag,
    fun run => Bool.noConfusion run, fun _ => .inr (.inr rfl)⟩

/-- A new listener leaves the stage alone. -/
theorem of_initialized (alive : worker.stage ≠ .terminated) (stage : after.stage = worker.stage)
    (flag : worker.flag.isSet = true → after.flag.isSet = true) :
    Obeys worker (.initialized (.ok ())) after :=
  ⟨fun refused => Bool.noConfusion refused, nofun, fun _ => stage, flag,
    fun run => Bool.noConfusion run, fun gone => absurd gone alive⟩

/-- A listener that cannot be started changes nothing. -/
theorem of_unstarted (alive : worker.stage ≠ .terminated) (error : WorkerError) :
    Obeys worker (.initialized (.error error)) worker :=
  ⟨fun _ => rfl, fun _ _ => rfl, fun _ => rfl, id, fun run => Bool.noConfusion run,
    fun gone => absurd gone alive⟩

theorem of_run {result : Except WorkerError Termination}
    (runs : Occurrence.isRun (.worked result) = true) (alive : worker.stage ≠ .terminated)
    (gone : after.stage = .terminated) (set : after.flag.isSet = true) :
    Obeys worker (.worked result) after := by
  refine ⟨fun refused => ?_, nofun, fun rests => ?_, fun _ => set, fun _ => ⟨alive, gone, set⟩,
    fun gone => absurd gone alive⟩
  · simp [Occurrence.isRun, refused] at runs
  · rw [rests] at runs
    contradiction

end Obeys

/-- What holds of a worker between two calls, so many runs having been made. -/
structure AtRest (worker : Worker Link) (runs : Nat) : Prop where
  stage : worker.stage = .idle ∨ worker.stage = .terminated
  terminated : worker.stage = .terminated ↔ runs ≠ 0
  once : runs ≤ 1
  flag : worker.stage = .terminated → worker.flag.isSet = true

/-- A sequence of occurrences, each of which takes the worker that the one before it left. -/
inductive History (step : Worker Link → Occurrence → Worker Link → Prop) (first : Worker Link) :
    List Occurrence → Worker Link → Prop
  | new : History step first [] first
  | next {occurrences : List Occurrence} {worker after : Worker Link} {occurrence : Occurrence} :
      History step first occurrences worker → step worker occurrence after →
      History step first (occurrences ++ [occurrence]) after

theorem AtRest.next {worker after : Worker Link} {runs : Nat} {occurrence : Occurrence}
    (rest : AtRest worker runs) (obeys : Obeys worker occurrence after) :
    AtRest after (runs + if occurrence.isRun then 1 else 0) := by
  cases run : occurrence.isRun with
  | false =>
    have same := obeys.rests run
    refine ⟨?_, ?_, ?_, ?_⟩
    · rw [same]
      exact rest.stage
    · rw [same]
      exact rest.terminated
    · exact rest.once
    · rw [same]
      exact fun gone => obeys.flag (rest.flag gone)
  | true =>
    obtain ⟨alive, gone, set⟩ := obeys.runs run
    have none : runs = 0 := by
      by_contra some
      exact alive (rest.terminated.mpr some)
    subst none
    exact ⟨.inr gone, by simp [gone], by simp, fun _ => set⟩

variable {step : Worker Link → Occurrence → Worker Link → Prop} {first last : Worker Link}
  {occurrences : List Occurrence}

/-- Whatever the calls were, the worker has worked at most once, and is terminated if it has. -/
theorem History.atRest (obeys : ∀ worker occurrence after, step worker occurrence after →
      Obeys worker occurrence after)
    (idle : first.stage = .idle) (history : History step first occurrences last) :
    AtRest last (occurrences.countP (·.isRun)) := by
  induction history with
  | new => exact ⟨.inl idle, by simp [idle], by simp, by simp [idle]⟩
  | next history takes ih =>
    rw [List.countP_append, List.countP_singleton]
    exact ih.next (obeys _ _ _ takes)

/-- What every step preserves holds after every history. -/
theorem History.preserves {kept : Worker Link → Prop}
    (steps : ∀ worker occurrence after, step worker occurrence after → kept worker → kept after)
    (start : kept first) (history : History step first occurrences last) : kept last := by
  induction history with
  | new => exact start
  | next history takes ih => exact steps _ _ _ takes ih

end Calls

/-- What a worker makes of the end of its cycles and of its listener: a listener that broke down
spoils an end in order, and nothing else changes the result. -/
structure Concludes (cycles : Except WorkerError Termination) (exit : ListenerExit)
    (result : Except WorkerError Termination) : Prop where
  panicked : ∀ text, result = .error (.listenerPanicked text) ↔
    exit = .panicked text ∧ ∃ termination, cycles = .ok termination
  otherwise : (∀ text, result ≠ .error (.listenerPanicked text)) → result = cycles

/-- The end of the cycles of a worker: in order, or with an error of one of the steps of a cycle. -/
def IsCycleEnd : Except WorkerError Termination → Prop
  | .ok _ => True
  | .error error => error.stage?.isSome

theorem stage_of_mapError {ε α : Type} {sent : Except ε α} {wrap : ε → WorkerError} {error : WorkerError}
    {stage : Stage} (wraps : ∀ fault, (wrap fault).stage? = some stage)
    (failed : sent.mapError wrap = .error error) : error.stage? = some stage := by
  cases sent with
  | error fault =>
    obtain rfl := Except.error.inj failed
    exact wraps fault
  | ok => contradiction

def ListenerExit.panic? : ListenerExit → Option String
  | .panicked text => some text
  | _ => none

theorem concludes_concluded {cycles : Except WorkerError Termination} (ended : IsCycleEnd cycles)
    (exit : ListenerExit) : Concludes cycles exit (Worker.concluded cycles exit.panic?) := by
  cases cycles with
  | ok termination => cases exit <;> constructor <;> simp [Worker.concluded, ListenerExit.panic?]
  | error error =>
    have kept : Worker.concluded (.error error) exit.panic? = .error error := by
      cases exit <;> rfl
    rw [kept]
    refine ⟨fun text => ⟨?_, ?_⟩, fun _ => rfl⟩
    · rintro ⟨⟩
      simp [IsCycleEnd, WorkerError.stage?] at ended
    · rintro ⟨-, termination, impossible⟩
      contradiction

/-- The result of a run is no refusal. -/
theorem isRun_concluded {cycles : Except WorkerError Termination} (ended : IsCycleEnd cycles)
    (panic? : Option String) : Occurrence.isRun (.worked (Worker.concluded cycles panic?)) = true := by
  cases cycles with
  | ok termination => cases panic? <;> rfl
  | error error =>
    have kept : Worker.concluded (.error error) panic? = .error error := by cases panic? <;> rfl
    rw [kept]
    cases error <;> first | rfl | simp [IsCycleEnd, WorkerError.stage?] at ended

namespace Listener

variable {sentinel : String} {flag : Flag}

/-- A listener never clears the flag. -/
theorem isSet_hear (set : flag.isSet = true) (poll : Poll) (listener : Listener) :
    (listener.hear sentinel poll flag).2.isSet = true := by
  cases listener with
  | polling =>
    cases poll with
    | token text =>
      simp only [hear]
      split
      · rfl
      · exact set
    | _ => exact set
  | _ => exact set

theorem isSet_run (set : flag.isSet = true) (listener : Listener) (events : List Event) :
    (run sentinel flag listener events).2.1.isSet = true := by
  induction events generalizing flag listener with
  | nil => exact set
  | cons event events ih =>
    have triggered : (if event.triggers then flag.trigger.2 else flag).isSet = true := by
      split
      · rfl
      · exact set
    simp only [run]
    split
    · exact set
    · have heard := @isSet_hear sentinel _ triggered event.poll (listener.check flag)
      split
      · exact heard
      · exact ih heard _

theorem isSet_start (set : flag.isSet = true) (supply : Supply) :
    (start sentinel flag supply).2.isSet = true := by
  have ran := @isSet_run sentinel _ set .checking supply.events
  simp only [start]
  split
  · next outcome =>
    rw [outcome] at ran
    exact ran
  · next outcome =>
    rw [outcome] at ran
    split
    · exact ran
    · exact isSet_hear ran _ _

end Listener

end FramedTasks
