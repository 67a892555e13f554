import Mathlib
import FramedTasks.Proofs.Worker.Lifecycle
import FramedTasks.Proofs.Worker.ReadAhead
import FramedTasks.Proofs.Worker.Trail

/-! # The stages of the two workers

Each worker has a conduct, made of what its run is made of: waiting for a request, calling the
processor, sending the reply and ending with its listener. A run is a trail of the moves of its conduct
(`BlockingWorker.trail_run`, `TimedWorker.trail_run`), so that it keeps to the diagram of the stages
whatever its stream, its processor and the flag do (`stages_keep_to_diagram`).
-/

namespace FramedTasks

theorem Worker.stage_triggerIf {Link : Type} (worker : Worker Link) (condition : Bool) :
    (worker.triggerIf condition).stage = worker.stage := by
  cases condition <;> rfl

theorem Worker.journal_triggerIf {Link : Type} (worker : Worker Link) (condition : Bool) :
    (worker.triggerIf condition).journal = worker.journal := by
  cases condition <;> rfl

namespace BlockingWorker

def Request.toWait : Request → Wait
  | .payload bytes => .request bytes
  | .stop termination => .stop termination
  | .failed error => .failed error

variable {σ : Type}

def conduct (processor : Processor σ) : Conduct BlockingLink σ where
  await worker :=
    let (request, after) := awaitRequest worker
    (request.toWait, after)
  process state task worker :=
    let call := processor state task (worker.context task)
    let reply := call.answer.toReply
    (reply, call.state, (worker.triggerIf call.triggers).note task reply)
  send reply worker := sendReply worker reply
  join worker := join worker.trigger.2
  panic? := listenerPanic?
  sink link := link.channel.writer.sink

variable (processor : Processor σ) (worker : BlockingWorker) (state : σ)

theorem rests_awaitRequest : (conduct processor).Rests worker worker.awaitRequest.2 where
  stage := awaitRequest_preserves (fun middle same => (stage_receive middle).trans same) rfl
  journal := (kept_awaitRequest worker).journal
  sink := congrArg (·.sink) (kept_awaitRequest worker).writer

theorem lawful_conduct : (conduct processor).Lawful false where
  await worker := rests_awaitRequest processor worker
  again worker again := by
    have never (request : Request) : request.toWait ≠ .again := by
      cases request <;> exact Wait.noConfusion
    exact absurd again (never _)
  process state task worker := by
    have link := Worker.link_triggerIf worker (processor state task (worker.context task)).triggers
    exact ⟨Worker.stage_triggerIf .., congrArg (_ :: ·) (Worker.journal_triggerIf ..),
      congrArg (fun link : BlockingLink => link.channel.writer.sink) link⟩
  send reply worker := by
    have sending := Frame.Writer.sending_send worker.link.channel.writer
      (worker.config.codec.encode reply)
    exact ⟨rfl, rfl, sending.taken_prefix⟩
  fails reply worker error failed := stage_of_mapError (fun _ => rfl) failed
  join worker := by
    obtain ⟨listener, joined, same⟩ := join_eq worker.trigger.2
    simp only [conduct, same]
    exact ⟨rfl, rfl, rfl⟩

theorem serve_eq (payload : Bytes) :
    worker.serve processor state payload = (conduct processor).serve state payload worker := by
  cases read : (worker.config.codec.decode payload : Except CodecError InputTask) with
  | error error => simp only [serve, Conduct.serve, read]
  | ok task =>
    simp only [serve, Conduct.serve, read]
    rfl

/-- A run is a trail until its cycles are over. -/
theorem trail_run :
    let ran := worker.run processor state
    ∃ activities, (conduct processor).Trail ⟨.head, state, worker⟩ activities
      ⟨.leaving ran.1, ran.2.1, ran.2.2⟩ := by
  -- how a request begins that waiting comes to
  have waits {worker after : BlockingWorker} {request : Request} (state : σ)
      (clear : ¬ worker.flag.isSet = true)
      (awaited : awaitRequest (worker.enter .awaitingRequest) = (request, after)) :
      (conduct processor).Trail ⟨.head, state, worker⟩ [.entered .awaitingRequest]
          ⟨.waiting, state, worker.enter .awaitingRequest⟩ ∧
        (conduct processor).await (worker.enter .awaitingRequest) = (request.toWait, after) :=
    ⟨.single (.await (Bool.not_eq_true _ ▸ clear)), by simp only [conduct, awaited]⟩
  fun_induction BlockingWorker.run worker processor state with
  | case1 worker state stops => exact ⟨_, .single (.shutDown stops)⟩
  | case2 worker state clear after awaited =>
    obtain ⟨start, waited⟩ := waits state clear awaited
    exact ⟨_, start.append (.single (.stop waited))⟩
  | case3 worker state clear after awaited =>
    obtain ⟨start, waited⟩ := waits state clear awaited
    exact ⟨_, start.append (.single (.close waited))⟩
  | case4 worker state clear error after awaited =>
    obtain ⟨start, waited⟩ := waits state clear awaited
    exact ⟨_, start.append (.single (.lose waited))⟩
  | case5 worker state clear payload after awaited error state' last served =>
    obtain ⟨start, waited⟩ := waits state clear awaited
    rw [serve_eq] at served
    obtain ⟨activities, unserved⟩ := Conduct.trail_of_unserved served
    exact ⟨_, start.append (.step (.receive waited) unserved)⟩
  | case6 worker state clear payload after awaited state' last served ih =>
    obtain ⟨start, waited⟩ := waits state clear awaited
    rw [serve_eq] at served
    obtain ⟨activities, replied⟩ := Conduct.trail_of_served served
    obtain ⟨more, onward⟩ := ih
    exact ⟨_, start.append (.step (.receive waited) (replied.append onward))⟩

/-- What is known of a call that is to make a worker work: if it is not refused, the worker goes along
the diagram until it is terminated. -/
structure KeepsToStages : Prop where
  refused : Occurrence.isRun (.worked (worker.doWork processor state).1) = false →
    (worker.doWork processor state).2 = (state, worker)
  runs : Occurrence.isRun (.worked (worker.doWork processor state).1) = true →
    worker.stage = .idle ∧
      WithListener (worker.run processor state).1 (worker.doWork processor state).1 ∧
      ∃ activities, KeepsToDiagram (conduct processor) false ⟨.head, state, worker⟩
        (worker.run processor state).1 (worker.run processor state).2.2 activities
        ⟨.ended (worker.doWork processor state).1, (worker.doWork processor state).2.1,
          (worker.doWork processor state).2.2⟩

theorem keepsToStages_of_refused {error : WorkerError} (refusal : error.isRefusal = true)
    (refused : worker.doWork processor state = (.error error, state, worker)) :
    KeepsToStages processor worker state := by
  constructor <;> rw [refused]
  · exact fun _ => rfl
  · intro runs
    simp [Occurrence.isRun, Occurrence.isRefused, refusal] at runs

theorem keepsToStages (rest : worker.stage = .idle ∨ worker.stage = .terminated) :
    KeepsToStages processor worker state := by
  rcases rest with idle | gone
  · have alive : worker.stage ≠ .terminated := idle ▸ Stage.noConfusion
    cases listens : worker.link.listener.isNone with
    | true =>
      exact keepsToStages_of_refused _ _ _ rfl (doWork_of_uninitialized alive listens processor state)
    | false =>
      have runs := isRun_concluded (isCycleEnd_run worker processor state)
        (join (worker.run processor state).2.2.trigger.2).listenerPanic?
      obtain ⟨activities, trail⟩ := trail_run processor worker state
      constructor <;> rw [doWork_of_listening alive listens]
      · exact fun refused => Bool.noConfusion (runs.symm.trans refused)
      · exact fun _ => ⟨idle, withListener_concluded _ _, _,
          (lawful_conduct processor).keepsToDiagram idle trail⟩
  · exact keepsToStages_of_refused _ _ _ rfl (doWork_of_terminated gone processor state)

end BlockingWorker

/-- What waiting for a request comes to, when it may be done again or not. -/
def Arrived.toWait (goesOn : Bool) : Arrived → Wait
  | .payload bytes => .request bytes
  | .closed => .stop .peerClosed
  | .failed error => .failed error
  | .elapsed => if goesOn then .again else .never
  | .never => .never

namespace TimedWorker

variable {σ : Type}

/-- How a worker that waits in time goes about its work. Nothing happens after the horizon. -/
def conduct (horizon : Nat) (processor : TaskProcessor σ) : Conduct TimedLink σ where
  await worker :=
    let (arrived, after) := awaitRequest worker
    (arrived.toWait (worker.link.clock ≤ horizon), after)
  process state task worker :=
    let call := processor state task
    let reply := call.answer.toReply
    let passed := passTo worker (worker.link.clock + call.delay)
    (reply, call.state, (passed.triggerIf call.triggers).note task reply)
  send reply worker := sendReply worker reply
  join worker := join worker.trigger.2
  panic? := listenerPanic?
  sink link := link.sink

variable (horizon : Nat) (processor : TaskProcessor σ) (worker : TimedWorker) (state : σ)

theorem stage_receive (deadline : Option Nat) : (worker.receive deadline).2.stage = worker.stage := by
  rw [receive_eq]
  exact stage_passTo (worker.taking (worker.wait deadline)) _

theorem stage_awaitRequest : worker.awaitRequest.2.stage = worker.stage := by
  apply @awaitRequest_preserves fun after => after.stage = worker.stage
  · exact fun middle deadline same => (stage_receive middle deadline).trans same
  · rfl

theorem taken_prefix_sendReply (reply : OutputTask) :
    worker.link.sink.taken <+: (worker.sendReply reply).2.link.sink.taken := by
  simp only [sendReply]
  split
  · exact List.prefix_rfl
  · next frame _ =>
    obtain ⟨part, -, total, -⟩ := worker.link.sink.deliver_taken frame Sink.direct
    rw [total]
    exact List.prefix_append _ _

theorem lawful_conduct : (conduct horizon processor).Lawful true where
  await worker :=
    ⟨stage_awaitRequest worker, (kept_awaitRequest worker).journal, (kept_awaitRequest worker).sink⟩
  again _ _ := rfl
  process state task worker := by
    let call := processor state task
    have passes := passes_passTo worker (worker.link.clock + call.delay)
    have stage := stage_passTo worker (worker.link.clock + call.delay)
    have link := Worker.link_triggerIf (passTo worker (worker.link.clock + call.delay)) call.triggers
    exact ⟨(Worker.stage_triggerIf ..).trans stage,
      congrArg (_ :: ·) ((Worker.journal_triggerIf ..).trans passes.journal),
      (congrArg TimedLink.sink link).trans passes.sink⟩
  send reply worker := by
    have kept : (sendReply worker reply).2.stage = worker.stage ∧
        (sendReply worker reply).2.journal = worker.journal := by
      simp only [sendReply]
      split <;> exact ⟨rfl, rfl⟩
    exact ⟨kept.1, kept.2, taken_prefix_sendReply worker reply⟩
  fails reply worker error failed := by
    simp only [conduct, sendReply] at failed
    split at failed
    · obtain rfl := Except.error.inj failed
      rfl
    · exact stage_of_mapError (fun _ => rfl) failed
  join worker := by
    obtain ⟨clock, listener, joined, same⟩ := join_eq worker.trigger.2
    simp only [conduct, same]
    exact ⟨rfl, rfl, rfl⟩

theorem serve_eq (payload : Bytes) :
    worker.serve processor state payload =
      (conduct horizon processor).serve state payload worker := by
  cases read : (worker.config.codec.decode payload : Except CodecError InputTask) with
  | error error => simp only [serve, Conduct.serve, read]
  | ok task =>
    simp only [serve, Conduct.serve, read]
    rfl

/-- The point that a run has got to: the end of its cycles, unless it waits for ever. -/
def pointOf : Option (Except WorkerError Termination) → Point
  | some cycles => .leaving cycles
  | none => .stuck

/-- A run is a trail until its cycles are over, or until it waits for ever. -/
theorem trail_run :
    let ran := worker.run horizon processor state
    ∃ activities, (conduct horizon processor).Trail ⟨.head, state, worker⟩ activities
      ⟨pointOf ran.1, ran.2.1, ran.2.2⟩ := by
  -- how a request begins that waiting comes to
  have waits {worker after : TimedWorker} {arrived : Arrived} (state : σ)
      (clear : ¬ worker.flag.isSet = true)
      (awaited : awaitRequest (worker.enter .awaitingRequest) = (arrived, after)) :
      (conduct horizon processor).Trail ⟨.head, state, worker⟩ [.entered .awaitingRequest]
          ⟨.waiting, state, worker.enter .awaitingRequest⟩ ∧
        (conduct horizon processor).await (worker.enter .awaitingRequest) =
          (arrived.toWait (worker.link.clock ≤ horizon), after) :=
    ⟨.single (.await (Bool.not_eq_true _ ▸ clear)), by
      simp only [conduct, awaited]
      rfl⟩
  fun_induction TimedWorker.run horizon worker processor state with
  | case1 worker state stops => exact ⟨_, .single (.shutDown stops)⟩
  | case2 worker state clear after awaited =>
    obtain ⟨start, waited⟩ := waits state clear awaited
    exact ⟨_, start.append (.single (.close waited))⟩
  | case3 worker state clear error after awaited =>
    obtain ⟨start, waited⟩ := waits state clear awaited
    exact ⟨_, start.append (.single (.lose waited))⟩
  | case4 worker state clear after awaited =>
    obtain ⟨start, waited⟩ := waits state clear awaited
    exact ⟨_, start.append (.single (.never waited))⟩
  | case5 worker state clear after awaited early ih =>
    obtain ⟨start, waited⟩ := waits state clear awaited
    simp only [Arrived.toWait, early, decide_true, if_true] at waited
    obtain ⟨more, onward⟩ := ih
    exact ⟨_, start.append (.step (.again waited) onward)⟩
  | case6 worker state clear after awaited late =>
    obtain ⟨start, waited⟩ := waits state clear awaited
    simp only [Arrived.toWait, late, decide_false, Bool.false_eq_true, if_false] at waited
    exact ⟨_, start.append (.single (.never waited))⟩
  | case7 worker state clear payload after awaited error state' last served =>
    obtain ⟨start, waited⟩ := waits state clear awaited
    rw [serve_eq horizon] at served
    obtain ⟨activities, unserved⟩ := Conduct.trail_of_unserved served
    exact ⟨_, start.append (.step (.receive waited) unserved)⟩
  | case8 worker state clear payload after awaited state' last served ih =>
    obtain ⟨start, waited⟩ := waits state clear awaited
    rw [serve_eq horizon] at served
    obtain ⟨activities, replied⟩ := Conduct.trail_of_served served
    obtain ⟨more, onward⟩ := ih
    exact ⟨_, start.append (.step (.receive waited) (replied.append onward))⟩

/-- A worker with a listener does what its run does, and ends if that does. -/
theorem doWork_eq (alive : worker.stage ≠ .terminated)
    (listens : worker.link.listener.isNone = false) :
    let ran := worker.run worker.horizon processor state
    worker.doWork processor state =
      match ran.1 with
      | none => ran
      | some cycles =>
        (some (Worker.concluded cycles (join ran.2.2.trigger.2).listenerPanic?), ran.2.1,
          ran.2.2.leaving) := by
  simp only [doWork, if_neg alive, listens, Bool.false_eq_true, if_false]
  rcases worker.run worker.horizon processor state with ⟨_ | cycles, state', last⟩ <;> rfl

/-- What is known of a call that is to make a worker work: if it is not refused, the worker goes along
the diagram until it is terminated, or waits for ever for a request. -/
structure KeepsToStages : Prop where
  refused : ∀ result, (worker.doWork processor state).1 = some result →
    Occurrence.isRun (.worked result) = false → (worker.doWork processor state).2 = (state, worker)
  runs : ∀ result, (worker.doWork processor state).1 = some result →
    Occurrence.isRun (.worked result) = true →
    worker.stage = .idle ∧ ∃ cycles, (worker.run worker.horizon processor state).1 = some cycles ∧
      BlockingWorker.WithListener cycles result ∧
      ∃ activities, KeepsToDiagram (conduct worker.horizon processor) true ⟨.head, state, worker⟩
        cycles (worker.run worker.horizon processor state).2.2 activities
        ⟨.ended result, (worker.doWork processor state).2.1, (worker.doWork processor state).2.2⟩
  waits : (worker.doWork processor state).1 = none → worker.stage = .idle ∧
    ∃ activities, (conduct worker.horizon processor).Trail ⟨.head, state, worker⟩ activities
        ⟨.stuck, (worker.doWork processor state).2.1, (worker.doWork processor state).2.2⟩ ∧
      Walk true ⟨.idle, false⟩ activities ⟨.awaitingRequest, false⟩ ∧
      (worker.doWork processor state).2.2.stage = .awaitingRequest ∧
      (conduct worker.horizon processor).Records worker activities
        (worker.doWork processor state).2.2

theorem keepsToStages_of_refused {error : WorkerError} (refusal : error.isRefusal = true)
    (refused : worker.doWork processor state = (some (.error error), state, worker)) :
    KeepsToStages processor worker state := by
  constructor <;> rw [refused]
  · exact fun _ _ _ => rfl
  · rintro _ ⟨⟩ runs
    simp [Occurrence.isRun, Occurrence.isRefused, refusal] at runs
  · rintro ⟨⟩

theorem keepsToStages (rest : worker.stage = .idle ∨ worker.stage = .terminated) :
    KeepsToStages processor worker state := by
  rcases rest with idle | gone
  · have alive : worker.stage ≠ .terminated := idle ▸ Stage.noConfusion
    cases listens : worker.link.listener.isNone with
    | true =>
      exact keepsToStages_of_refused _ _ _ rfl (doWork_of_uninitialized alive listens processor state)
    | false =>
      have did := doWork_eq processor worker state alive listens
      obtain ⟨activities, trail⟩ := trail_run worker.horizon processor worker state
      have lawful := lawful_conduct worker.horizon processor
      rcases ran : worker.run worker.horizon processor state with ⟨_ | cycles, state', last⟩
      · rw [ran] at did trail
        constructor <;> rw [did]
        · rintro _ ⟨⟩
        · rintro _ ⟨⟩
        · obtain ⟨standing, walk, stands, records⟩ := lawful.trail trail ⟨.head (.inl rfl), idle⟩
          cases stands.point with
          | stuck => exact fun _ => ⟨idle, activities, trail, walk, stands.stage, records⟩
      · have ended : IsCycleEnd cycles := isCycleEnd_run (congrArg Prod.fst ran)
        have runs := isRun_concluded ended (join last.trigger.2).listenerPanic?
        rw [ran] at did trail
        constructor <;> rw [did]
        · rintro _ ⟨⟩ refused
          exact Bool.noConfusion (runs.symm.trans refused)
        · rintro _ ⟨⟩ -
          rw [ran]
          exact ⟨idle, cycles, rfl, BlockingWorker.withListener_concluded _ _, _,
            lawful.keepsToDiagram idle trail⟩
        · rintro ⟨⟩
  · exact keepsToStages_of_refused _ _ _ rfl (doWork_of_terminated gone processor state)

end TimedWorker

/-- Whatever calls were made of a worker before, and whatever its stream, its processor and the flag do,
a call that makes it work takes it along the diagram of the stages. -/
theorem stages_keep_to_diagram :
    (∀ (first last : BlockingWorker) (occurrences : List Occurrence), first.stage = .idle →
      History BlockingWorker.Step first occurrences last →
      ∀ (σ : Type) (processor : Processor σ) (state : σ),
        BlockingWorker.KeepsToStages processor last state) ∧
    (∀ (first last : TimedWorker) (occurrences : List Occurrence), first.stage = .idle →
      History TimedWorker.Step first occurrences last →
      ∀ (σ : Type) (processor : TaskProcessor σ) (state : σ),
        TimedWorker.KeepsToStages processor last state) := by
  constructor
  · intro first last occurrences idle history σ processor state
    have rest := history.atRest (fun _ _ _ step => step.obeys) idle
    exact BlockingWorker.keepsToStages processor last state rest.stage
  · intro first last occurrences idle history σ processor state
    have rest := history.atRest (fun _ _ _ step => step.obeys) idle
    exact TimedWorker.keepsToStages processor last state rest.stage

/-- Two workers that are asked to stop, one before it works and the other while it answers a request. -/
theorem stages_keep_to_diagram_asked :
    let processor : Processor Unit := fun _ task _ => ⟨.reply (.done task.message), (), false, 0⟩
    let first : BlockingWorker := .between { events := [] } {}
    let asked : BlockingWorker := (first.initial { staysOpen := true }).2.trigger.2
    let begun := TimedWorker.begun
    (∃ activities, KeepsToDiagram (BlockingWorker.conduct processor) false ⟨.head, (), asked⟩
      (.ok .shutdown) (asked.enter .shuttingDown) activities
      ⟨.ended (.ok .shutdown), (), (asked.doWork processor ()).2.2⟩) ∧
    ∃ activities, KeepsToDiagram (TimedWorker.conduct begun.horizon TimedWorker.slowEcho) true
      ⟨.head, (), begun⟩ (.ok .shutdown) (begun.run begun.horizon TimedWorker.slowEcho ()).2.2 activities
      ⟨.ended (.ok .shutdown), (), (begun.doWork TimedWorker.slowEcho ()).2.2⟩ := by
  intro processor first asked begun
  constructor
  · have ran : asked.run processor () = (.ok .shutdown, (), asked.enter .shuttingDown) := by
      rw [BlockingWorker.run, if_pos (show asked.flag.isSet = true from rfl)]
    have result : (asked.doWork processor ()).1 = .ok .shutdown := by
      rw [BlockingWorker.doWork_of_listening Stage.noConfusion rfl, ran]
      rfl
    have history : History BlockingWorker.Step first _ asked :=
      .next (.next .new (.initial _ none)) .trigger
    have runs := (stages_keep_to_diagram.1 first asked _ rfl history Unit processor ()).runs
    rw [result, ran] at runs
    exact (runs rfl).2.2
  · have result := TimedWorker.doWork_begun.1
    have runs := (stages_keep_to_diagram.2 begun begun _ rfl .new Unit TimedWorker.slowEcho ()).runs
    obtain ⟨-, cycles, -, reported, keeps⟩ := runs _ result rfl
    rcases reported with rfl | ⟨_, _, -, impossible⟩
    · exact keeps
    · contradiction

end FramedTasks
