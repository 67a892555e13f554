import FramedTasks.Stream.Sink
import FramedTasks.Worker.Basic
import Mathlib.Tactic.ByContra

/-! # The moves of a worker

`Allowed` is the diagram of the stages of a worker: which activity may come where, and where the worker
stands after it. A `Conduct` says how a worker of some kind waits, processes, sends and concludes, and
`Conduct.Step` puts these together to single moves, each with the activities that are seen from outside.
The moves of a lawful conduct keep to the diagram (`Lawful.step`), and so does every trail of them
(`Lawful.trail`), which gives what is known of a whole run (`Lawful.keepsToDiagram`).
-/

namespace FramedTasks

/-- Something that a worker does. -/
inductive Activity where
  | entered (stage : Stage)
  | received (payload : Bytes)
  | processed (task : InputTask) (reply : OutputTask)
  /-- An attempt to send, in which the stream took some bytes. -/
  | wrote (bytes : Bytes)
deriving DecidableEq

namespace Activity

/-- The entry of the journal that tells of an activity. -/
def deed? : Activity → Option Deed
  | .entered stage => some (.entered stage)
  | .processed task reply => some (.processed task reply)
  | .received _ | .wrote _ => none

def bytes : Activity → Bytes
  | .wrote bytes => bytes
  | _ => []

end Activity

/-! ## The diagram -/

/-- Where a worker stands between two activities: its stage, and whether it has a request to which the
reply is not finished. -/
structure Standing where
  stage : Stage
  busy : Bool
deriving DecidableEq, Repr

/-- The diagram of the stages. Only a worker that `polls` may wait again without having received
anything. -/
inductive Allowed (polls : Bool) : Standing → Activity → Standing → Prop
  | await {stage : Stage} :
      stage = .idle ∨ polls = true ∧ stage = .awaitingRequest →
      Allowed polls ⟨stage, false⟩ (.entered .awaitingRequest) ⟨.awaitingRequest, false⟩
  | receive {payload : Bytes} :
      Allowed polls ⟨.awaitingRequest, false⟩ (.received payload) ⟨.awaitingRequest, true⟩
  | accept : Allowed polls ⟨.awaitingRequest, true⟩ (.entered .processing) ⟨.processing, true⟩
  | process {task : InputTask} {reply : OutputTask} :
      Allowed polls ⟨.processing, true⟩ (.processed task reply) ⟨.processing, true⟩
  | reply : Allowed polls ⟨.processing, true⟩ (.entered .sendingReply) ⟨.sendingReply, true⟩
  | write {bytes : Bytes} :
      Allowed polls ⟨.sendingReply, true⟩ (.wrote bytes) ⟨.sendingReply, true⟩
  | finish : Allowed polls ⟨.sendingReply, true⟩ (.entered .idle) ⟨.idle, false⟩
  | shutDown {stage : Stage} :
      stage = .idle ∨ stage = .awaitingRequest →
      Allowed polls ⟨stage, false⟩ (.entered .shuttingDown) ⟨.shuttingDown, false⟩
  | terminate {stage : Stage} {busy : Bool} :
      stage = .awaitingRequest ∨ stage = .sendingReply ∨ stage = .shuttingDown →
      Allowed polls ⟨stage, busy⟩ (.entered .terminated) ⟨.terminated, busy⟩

/-- Activities one after another, each of them allowed where it comes. -/
inductive Walk (polls : Bool) : Standing → List Activity → Standing → Prop
  | nil {standing : Standing} : Walk polls standing [] standing
  | cons {before middle after : Standing} {activity : Activity} {activities : List Activity} :
      Allowed polls before activity middle → Walk polls middle activities after →
      Walk polls before (activity :: activities) after

namespace Walk

variable {polls : Bool} {before middle after : Standing} {activities more : List Activity}

theorem single {activity : Activity} (allowed : Allowed polls before activity after) :
    Walk polls before [activity] after := .cons allowed .nil

theorem append (first : Walk polls before activities middle) (second : Walk polls middle more after) :
    Walk polls before (activities ++ more) after := by
  induction first with
  | nil => exact second
  | cons allowed _ ih => exact .cons allowed (ih second)

theorem of_append (walk : Walk polls before (activities ++ more) after) :
    ∃ middle, Walk polls before activities middle ∧ Walk polls middle more after := by
  induction activities generalizing before with
  | nil => exact ⟨before, .nil, walk⟩
  | cons activity activities ih =>
    cases walk with
    | cons allowed rest =>
      obtain ⟨middle, first, second⟩ := ih rest
      exact ⟨middle, .cons allowed first, second⟩

/-- Nothing comes after the end. -/
theorem eq_nil_of_terminated (gone : before.stage = .terminated)
    (walk : Walk polls before activities after) : activities = [] ∧ after = before := by
  cases walk with
  | nil => exact ⟨rfl, rfl⟩
  | cons allowed _ =>
    cases allowed with
    | await from' | shutDown from' | terminate from' =>
      obtain rfl : _ = Stage.terminated := gone
      simp at from'
    | _ => contradiction

/-- A worker that shuts down does nothing more until it terminates. -/
theorem eq_nil_of_shuttingDown (leaves : before.stage = .shuttingDown)
    (alive : after.stage ≠ .terminated) (walk : Walk polls before activities after) :
    activities = [] ∧ after = before := by
  cases walk with
  | nil => exact ⟨rfl, rfl⟩
  | cons allowed rest =>
    cases allowed with
    | terminate =>
      obtain ⟨-, rfl⟩ := rest.eq_nil_of_terminated rfl
      exact absurd rfl alive
    | await from' | shutDown from' =>
      obtain rfl : _ = Stage.shuttingDown := leaves
      simp at from'
    | _ => contradiction

/-- A worker shuts down at most once, and stays so until it terminates. -/
theorem count_shuttingDown (walk : Walk polls before activities after)
    (fresh : before.stage ≠ .shuttingDown) (alive : after.stage ≠ .terminated) :
    activities.count (.entered .shuttingDown) = if after.stage = .shuttingDown then 1 else 0 := by
  induction walk with
  | nil => rw [if_neg fresh, List.count_nil]
  | cons allowed rest ih =>
    cases allowed with
    | shutDown =>
      obtain ⟨rfl, rfl⟩ := rest.eq_nil_of_shuttingDown rfl alive
      rfl
    | terminate =>
      obtain ⟨-, rfl⟩ := rest.eq_nil_of_terminated rfl
      exact absurd rfl alive
    | await | receive | accept | process | reply | write | finish =>
      rw [List.count_cons_of_ne (by simp), ih (by simp) alive]

/-- A request is kept until its reply is finished. -/
theorem busy_of_unfinished (walk : Walk polls before activities after) (busy : before.busy = true)
    (unfinished : .entered .idle ∉ activities) : after.busy = true := by
  induction walk with
  | nil => exact busy
  | cons allowed rest ih =>
    obtain ⟨different, still⟩ := not_or.mp (mt List.mem_cons.mpr unfinished)
    cases allowed with
    | await | receive | shutDown => contradiction
    | finish => exact absurd rfl different
    | accept | process | reply | write | terminate => exact ih busy still

/-- Between the receipt of a request and a shutdown the reply is finished. -/
theorem finishes_before_shutdown {earlier between later : List Activity} {payload : Bytes}
    (walk : Walk polls before
      (earlier ++ .received payload :: (between ++ .entered .shuttingDown :: later)) after) :
    .entered .idle ∈ between := by
  obtain ⟨_, -, walk⟩ := walk.of_append
  cases walk with
  | cons received walk =>
    cases received
    obtain ⟨middle, kept, walk⟩ := walk.of_append
    by_contra unfinished
    have busy := kept.busy_of_unfinished rfl unfinished
    cases walk with
    | cons leaves _ =>
      cases leaves
      contradiction

end Walk

/-! ## Moves -/

/-- What waiting for a request comes to. -/
inductive Wait where
  | request (payload : Bytes)
  /-- The worker is to stop. -/
  | stop (termination : Termination)
  | failed (error : FrameError)
  /-- Nothing came, and the worker looks at the flag before it waits again. -/
  | again
  /-- Nothing will ever come. -/
  | never

variable {Link σ : Type}

/-- How a worker of some kind goes about its work: what it does in each stage, and how it ends. -/
structure Conduct (Link σ : Type) where
  await : Worker Link → Wait × Worker Link
  /-- Have a task processed, and note it. -/
  process : σ → InputTask → Worker Link → OutputTask × σ × Worker Link
  send : OutputTask → Worker Link → Except WorkerError Unit × Worker Link
  /-- Set the flag, wait until the listener has ended, and give it up. -/
  join : Worker Link → Worker Link
  /-- Why the listener broke down, if it did. -/
  panic? : Worker Link → Option String
  /-- The stream to which replies are written. -/
  sink : Link → Sink

/-- How far a worker has got between two moves. -/
inductive Point where
  /-- About to look at the flag. -/
  | head
  | waiting
  | holding (payload : Bytes)
  | accepted (task : InputTask)
  | answered (reply : OutputTask)
  | sending (reply : OutputTask)
  | replied
  /-- The cycles are over. -/
  | leaving (cycles : Except WorkerError Termination)
  | ended (result : Except WorkerError Termination)
  /-- Waiting for ever. -/
  | stuck

/-- A worker between two moves, with the state of its processor. -/
structure Juncture (Link σ : Type) where
  point : Point
  state : σ
  worker : Worker Link

namespace Conduct

variable (conduct : Conduct Link σ)

/-- The bytes that the stream has taken from one moment to a later one. -/
def gain (before after : Worker Link) : Bytes :=
  (conduct.sink after.link).taken.drop (conduct.sink before.link).taken.length

/-- The moves of a worker. -/
inductive Step : Juncture Link σ → List Activity → Juncture Link σ → Prop
  | shutDown {state : σ} {worker : Worker Link} :
      worker.flag.isSet = true →
      Step ⟨.head, state, worker⟩ [.entered .shuttingDown]
        ⟨.leaving (.ok .shutdown), state, worker.enter .shuttingDown⟩
  | await {state : σ} {worker : Worker Link} :
      worker.flag.isSet = false →
      Step ⟨.head, state, worker⟩ [.entered .awaitingRequest]
        ⟨.waiting, state, worker.enter .awaitingRequest⟩
  | receive {state : σ} {worker after : Worker Link} {payload : Bytes} :
      conduct.await worker = (.request payload, after) →
      Step ⟨.waiting, state, worker⟩ [.received payload] ⟨.holding payload, state, after⟩
  | stop {state : σ} {worker after : Worker Link} :
      conduct.await worker = (.stop .shutdown, after) →
      Step ⟨.waiting, state, worker⟩ [.entered .shuttingDown]
        ⟨.leaving (.ok .shutdown), state, after.enter .shuttingDown⟩
  | close {state : σ} {worker after : Worker Link} :
      conduct.await worker = (.stop .peerClosed, after) →
      Step ⟨.waiting, state, worker⟩ [] ⟨.leaving (.ok .peerClosed), state, after⟩
  | lose {state : σ} {worker after : Worker Link} {error : FrameError} :
      conduct.await worker = (.failed error, after) →
      Step ⟨.waiting, state, worker⟩ [] ⟨.leaving (.error (.receive error)), state, after⟩
  | again {state : σ} {worker after : Worker Link} :
      conduct.await worker = (.again, after) →
      Step ⟨.waiting, state, worker⟩ [] ⟨.head, state, after⟩
  | never {state : σ} {worker after : Worker Link} :
      conduct.await worker = (.never, after) →
      Step ⟨.waiting, state, worker⟩ [] ⟨.stuck, state, after⟩
  | reject {state : σ} {worker : Worker Link} {payload : Bytes} {error : CodecError} :
      (worker.config.codec.decode payload : Except CodecError InputTask) = .error error →
      Step ⟨.holding payload, state, worker⟩ [] ⟨.leaving (.error (.decode error)), state, worker⟩
  | accept {state : σ} {worker : Worker Link} {payload : Bytes} {task : InputTask} :
      (worker.config.codec.decode payload : Except CodecError InputTask) = .ok task →
      Step ⟨.holding payload, state, worker⟩ [.entered .processing]
        ⟨.accepted task, state, worker.enter .processing⟩
  | process {state state' : σ} {worker after : Worker Link} {task : InputTask}
      {reply : OutputTask} :
      conduct.process state task worker = (reply, state', after) →
      Step ⟨.accepted task, state, worker⟩ [.processed task reply] ⟨.answered reply, state', after⟩
  | reply {state : σ} {worker : Worker Link} {reply : OutputTask} :
      Step ⟨.answered reply, state, worker⟩ [.entered .sendingReply]
        ⟨.sending reply, state, worker.enter .sendingReply⟩
  | send {state : σ} {worker after : Worker Link} {reply : OutputTask} :
      conduct.send reply worker = (.ok (), after) →
      Step ⟨.sending reply, state, worker⟩ [.wrote (conduct.gain worker after)]
        ⟨.replied, state, after⟩
  | fail {state : σ} {worker after : Worker Link} {reply : OutputTask} {error : WorkerError} :
      conduct.send reply worker = (.error error, after) →
      Step ⟨.sending reply, state, worker⟩ [.wrote (conduct.gain worker after)]
        ⟨.leaving (.error error), state, after⟩
  | finish {state : σ} {worker : Worker Link} :
      Step ⟨.replied, state, worker⟩ [.entered .idle] ⟨.head, state, worker.enter .idle⟩
  | terminate {state : σ} {worker : Worker Link} {cycles : Except WorkerError Termination} :
      Step ⟨.leaving cycles, state, worker⟩ [.entered .terminated]
        ⟨.ended (Worker.concluded cycles (conduct.panic? (conduct.join worker))), state,
          (conduct.join worker).enter .terminated⟩

/-- Moves one after another, with the activities that are seen of them. -/
inductive Trail : Juncture Link σ → List Activity → Juncture Link σ → Prop
  | refl {juncture : Juncture Link σ} : Trail juncture [] juncture
  | step {before middle after : Juncture Link σ} {activities more : List Activity} :
      conduct.Step before activities middle → Trail middle more after →
      Trail before (activities ++ more) after

/-- What waiting and concluding leave as it is. -/
structure Rests (before after : Worker Link) : Prop where
  stage : after.stage = before.stage
  journal : after.journal = before.journal
  sink : conduct.sink after.link = conduct.sink before.link

/-- A conduct that changes the stage, the journal and the stream in its moves only. -/
structure Lawful (polls : Bool) : Prop where
  await (worker : Worker Link) : conduct.Rests worker (conduct.await worker).2
  again (worker : Worker Link) : (conduct.await worker).1 = .again → polls = true
  process (state : σ) (task : InputTask) (worker : Worker Link) :
    let outcome := conduct.process state task worker
    outcome.2.2.stage = worker.stage ∧
      outcome.2.2.journal = .processed task outcome.1 :: worker.journal ∧
      conduct.sink outcome.2.2.link = conduct.sink worker.link
  send (reply : OutputTask) (worker : Worker Link) :
    let after := (conduct.send reply worker).2
    after.stage = worker.stage ∧ after.journal = worker.journal ∧
      (conduct.sink worker.link).taken <+: (conduct.sink after.link).taken
  fails (reply : OutputTask) (worker : Worker Link) (error : WorkerError) :
    (conduct.send reply worker).1 = .error error → error.stage? = some .sendingReply
  join (worker : Worker Link) : conduct.Rests worker (conduct.join worker)

/-- What the journal and the stream keep of some activities. -/
structure Records (before : Worker Link) (activities : List Activity) (after : Worker Link) : Prop where
  journal : after.journal = (activities.filterMap Activity.deed?).reverse ++ before.journal
  taken : (conduct.sink after.link).taken =
    (conduct.sink before.link).taken ++ activities.flatMap Activity.bytes
  silent : (∀ bytes, .wrote bytes ∉ activities) → conduct.sink after.link = conduct.sink before.link

end Conduct

/-! ## Moves along the diagram -/

/-- Where a worker stands at a point. -/
inductive Point.Stands (polls : Bool) : Point → Standing → Prop
  | head {stage : Stage} :
      stage = .idle ∨ polls = true ∧ stage = .awaitingRequest → Stands polls .head ⟨stage, false⟩
  | waiting : Stands polls .waiting ⟨.awaitingRequest, false⟩
  | stuck : Stands polls .stuck ⟨.awaitingRequest, false⟩
  | holding {payload : Bytes} : Stands polls (.holding payload) ⟨.awaitingRequest, true⟩
  | accepted {task : InputTask} : Stands polls (.accepted task) ⟨.processing, true⟩
  | answered {reply : OutputTask} : Stands polls (.answered reply) ⟨.processing, true⟩
  | sending {reply : OutputTask} : Stands polls (.sending reply) ⟨.sendingReply, true⟩
  | replied : Stands polls .replied ⟨.sendingReply, true⟩
  | shutDown : Stands polls (.leaving (.ok .shutdown)) ⟨.shuttingDown, false⟩
  | closed : Stands polls (.leaving (.ok .peerClosed)) ⟨.awaitingRequest, false⟩
  | failed {error : WorkerError} {stage : Stage} {busy : Bool} :
      error.stage? = some stage → stage = .awaitingRequest ∨ stage = .sendingReply →
      Stands polls (.leaving (.error error)) ⟨stage, busy⟩
  | ended {result : Except WorkerError Termination} {busy : Bool} :
      Stands polls (.ended result) ⟨.terminated, busy⟩

/-- A worker between two moves stands where its point says. -/
structure Juncture.At (polls : Bool) (juncture : Juncture Link σ) (standing : Standing) : Prop where
  point : juncture.point.Stands polls standing
  stage : juncture.worker.stage = standing.stage

namespace Conduct

variable {conduct : Conduct Link σ} {polls : Bool} {before after : Juncture Link σ}
  {first middle last : Worker Link} {activities more : List Activity} {standing : Standing}

/-- What leaves the worker as it is leaves no record. -/
theorem Rests.records (rests : conduct.Rests first last)
    (unnoted : activities.filterMap Activity.deed? = [])
    (unwritten : activities.flatMap Activity.bytes = []) : conduct.Records first activities last where
  journal := by rw [rests.journal, unnoted, List.reverse_nil, List.nil_append]
  taken := by rw [rests.sink, unwritten, List.append_nil]
  silent _ := rests.sink

theorem Records.append (earlier : conduct.Records first activities middle)
    (later : conduct.Records middle more last) : conduct.Records first (activities ++ more) last where
  journal := by
    rw [later.journal, earlier.journal, List.filterMap_append, List.reverse_append,
      List.append_assoc]
  taken := by rw [later.taken, earlier.taken, List.flatMap_append, List.append_assoc]
  silent quiet := by
    rw [later.silent fun bytes member => quiet bytes (List.mem_append_right _ member),
      earlier.silent fun bytes member => quiet bytes (List.mem_append_left _ member)]

/-- To enter a stage is to note it. -/
theorem records_enter (worker : Worker Link) (stage : Stage) :
    conduct.Records worker [.entered stage] (worker.enter stage) where
  journal := rfl
  taken := (List.append_nil _).symm
  silent _ := rfl

theorem Lawful.records_send (lawful : conduct.Lawful polls) (reply : OutputTask) (worker : Worker Link) :
    conduct.Records worker [.wrote (conduct.gain worker (conduct.send reply worker).2)]
      (conduct.send reply worker).2 := by
  obtain ⟨-, journal, missing, whole⟩ := lawful.send reply worker
  refine ⟨journal, ?_, fun quiet => absurd (List.mem_singleton_self _) (quiet _)⟩
  have gained : conduct.gain worker (conduct.send reply worker).2 = missing := by
    rw [gain, ← whole, List.drop_left]
  rw [gained, ← whole, List.flatMap_singleton]
  rfl

/-- Every move keeps to the diagram, and is recorded. -/
theorem Lawful.step (lawful : conduct.Lawful polls) (step : conduct.Step before activities after)
    (stands : before.At polls standing) :
    ∃ standing', Walk polls standing activities standing' ∧ after.At polls standing' ∧
      conduct.Records before.worker activities after.worker := by
  obtain ⟨point, stage⟩ := stands
  -- what is left of a worker that has waited
  have waited {worker after : Worker Link} {outcome : Wait}
      (awaited : conduct.await worker = (outcome, after)) : conduct.Rests worker after := by
    have rests := lawful.await worker
    rwa [awaited] at rests
  cases step with
  | shutDown set =>
    cases point with
    | head origin =>
      exact ⟨_, .single (.shutDown (origin.imp_right And.right)), ⟨.shutDown, rfl⟩,
        records_enter _ _⟩
  | await clear =>
    cases point with
    | head origin => exact ⟨_, .single (.await origin), ⟨.waiting, rfl⟩, records_enter _ _⟩
  | receive awaited =>
    cases point
    exact ⟨_, .single .receive, ⟨.holding, (waited awaited).stage.trans stage⟩,
      (waited awaited).records rfl rfl⟩
  | @stop _ worker after awaited =>
    cases point
    have arrived : conduct.Records worker [] after := (waited awaited).records rfl rfl
    exact ⟨_, .single (.shutDown (.inr rfl)), ⟨.shutDown, rfl⟩,
      arrived.append (records_enter after .shuttingDown)⟩
  | close awaited =>
    cases point
    exact ⟨_, .nil, ⟨.closed, (waited awaited).stage.trans stage⟩, (waited awaited).records rfl rfl⟩
  | lose awaited =>
    cases point
    exact ⟨_, .nil, ⟨.failed rfl (.inl rfl), (waited awaited).stage.trans stage⟩,
      (waited awaited).records rfl rfl⟩
  | @again _ worker _ awaited =>
    cases point
    have rounds : polls = true := lawful.again worker (by rw [awaited])
    exact ⟨_, .nil, ⟨.head (.inr ⟨rounds, rfl⟩), (waited awaited).stage.trans stage⟩,
      (waited awaited).records rfl rfl⟩
  | never awaited =>
    cases point
    exact ⟨_, .nil, ⟨.stuck, (waited awaited).stage.trans stage⟩, (waited awaited).records rfl rfl⟩
  | reject unread =>
    cases point
    exact ⟨_, .nil, ⟨.failed rfl (.inl rfl), stage⟩, Rests.records ⟨rfl, rfl, rfl⟩ rfl rfl⟩
  | accept read =>
    cases point
    exact ⟨_, .single .accept, ⟨.accepted, rfl⟩, records_enter _ _⟩
  | @process state _ worker _ task _ processed =>
    cases point
    have done := lawful.process state task worker
    rw [processed] at done
    obtain ⟨same, journal, sink⟩ := done
    refine ⟨_, .single .process, ⟨.answered, same.trans stage⟩, journal, ?_, fun _ => sink⟩
    exact (congrArg Sink.taken sink).trans (List.append_nil _).symm
  | reply =>
    cases point
    exact ⟨_, .single .reply, ⟨.sending, rfl⟩, records_enter _ _⟩
  | @send _ worker _ reply sent =>
    cases point
    have same := (lawful.send reply worker).1
    have records := lawful.records_send reply worker
    rw [sent] at same records
    exact ⟨_, .single .write, ⟨.replied, same.trans stage⟩, records⟩
  | @fail _ worker _ reply error failed =>
    cases point
    have same := (lawful.send reply worker).1
    have records := lawful.records_send reply worker
    rw [failed] at same records
    have told := lawful.fails reply worker error (by rw [failed])
    exact ⟨_, .single .write, ⟨.failed told (.inr rfl), same.trans stage⟩, records⟩
  | finish =>
    cases point
    exact ⟨_, .single .finish, ⟨.head (.inl rfl), rfl⟩, records_enter _ _⟩
  | @terminate _ worker cycles =>
    have joins : conduct.Records worker [] (conduct.join worker) :=
      (lawful.join worker).records rfl rfl
    have records := joins.append (records_enter (conduct.join worker) .terminated)
    have ends {stage : Stage} {busy : Bool}
        (leaves : stage = .awaitingRequest ∨ stage = .sendingReply ∨ stage = .shuttingDown) :
        Walk polls ⟨stage, busy⟩ [.entered .terminated] ⟨.terminated, busy⟩ :=
      .single (.terminate leaves)
    cases point with
    | shutDown => exact ⟨_, ends (.inr (.inr rfl)), ⟨.ended, rfl⟩, records⟩
    | closed => exact ⟨_, ends (.inl rfl), ⟨.ended, rfl⟩, records⟩
    | failed _ origin => exact ⟨_, ends (origin.imp_right .inl), ⟨.ended, rfl⟩, records⟩

/-- A whole trail keeps to the diagram, and is recorded. -/
theorem Lawful.trail (lawful : conduct.Lawful polls) (trail : conduct.Trail before activities after)
    (stands : before.At polls standing) :
    ∃ standing', Walk polls standing activities standing' ∧ after.At polls standing' ∧
      conduct.Records before.worker activities after.worker := by
  induction trail generalizing standing with
  | refl => exact ⟨standing, .nil, stands, Rests.records ⟨rfl, rfl, rfl⟩ rfl rfl⟩
  | step move _ ih =>
    obtain ⟨middle, walk, stands, records⟩ := lawful.step move stands
    obtain ⟨last, onward, ends, more⟩ := ih stands
    exact ⟨last, walk.append onward, ends, records.append more⟩

theorem Trail.single (step : conduct.Step before activities after) :
    conduct.Trail before activities after := by
  have trail := Trail.step step .refl
  rwa [List.append_nil] at trail

theorem Trail.append {middle : Juncture Link σ} (earlier : conduct.Trail before activities middle)
    (later : conduct.Trail middle more after) : conduct.Trail before (activities ++ more) after := by
  induction earlier with
  | refl => exact later
  | step move _ ih =>
    rw [List.append_assoc]
    exact .step move (ih later)

/-- A worker has no choice of moves. -/
theorem Step.unique {other : Juncture Link σ} (step : conduct.Step before activities after)
    (second : conduct.Step before more other) : activities = more ∧ after = other := by
  cases step <;> cases second <;> simp_all

/-- What a worker has done by any time is the beginning of what it does until its end. -/
theorem Trail.rest {juncture : Juncture Link σ} {earlier : List Activity}
    (trail : conduct.Trail before activities after)
    (ended : ∀ more next, ¬ conduct.Step after more next)
    (part : conduct.Trail before earlier juncture) :
    ∃ rest, activities = earlier ++ rest ∧ conduct.Trail juncture rest after := by
  induction part generalizing activities with
  | refl => exact ⟨activities, rfl, trail⟩
  | step move _ ih =>
    cases trail with
    | refl => exact absurd move (ended _ _)
    | step other onward =>
      obtain ⟨rfl, rfl⟩ := move.unique other
      obtain ⟨rest, rfl, remains⟩ := ih onward
      exact ⟨rest, (List.append_assoc ..).symm, remains⟩

end Conduct

/-! ## Whole runs -/

namespace Conduct

variable {conduct : Conduct Link σ} {polls : Bool} {worker after last : Worker Link} {state state' : σ}
  {payload : Bytes} {activities : List Activity}

/-- Decode a request, have it processed and send the reply. -/
def serve (conduct : Conduct Link σ) (state : σ) (payload : Bytes) (worker : Worker Link) :
    Except WorkerError Unit × σ × Worker Link :=
  match (worker.config.codec.decode payload : Except CodecError InputTask) with
  | .error error => (.error (.decode error), state, worker)
  | .ok task =>
    let (reply, state, worker) := conduct.process state task (worker.enter .processing)
    let (result, worker) := conduct.send reply (worker.enter .sendingReply)
    (result, state, worker)

/-- The moves from a request up to the attempt to send its reply. -/
theorem trail_sending {task : InputTask}
    (read : (worker.config.codec.decode payload : Except CodecError InputTask) = .ok task) :
    let answered := conduct.process state task (worker.enter .processing)
    ∃ activities, conduct.Trail ⟨.holding payload, state, worker⟩ activities
      ⟨.sending answered.1, answered.2.1, answered.2.2.enter .sendingReply⟩ :=
  ⟨_, .step (.accept read) (.step (.process rfl) (.single .reply))⟩

theorem trail_of_unserved {error : WorkerError}
    (failed : conduct.serve state payload worker = (.error error, state', after)) :
    ∃ activities, conduct.Trail ⟨.holding payload, state, worker⟩ activities
      ⟨.leaving (.error error), state', after⟩ := by
  cases read : (worker.config.codec.decode payload : Except CodecError InputTask) with
  | error fault =>
    simp only [serve, read, Prod.mk.injEq, Except.error.injEq] at failed
    obtain ⟨rfl, rfl, rfl⟩ := failed
    exact ⟨_, .single (.reject read)⟩
  | ok task =>
    simp only [serve, read, Prod.mk.injEq] at failed
    obtain ⟨result, rfl, rfl⟩ := failed
    obtain ⟨activities, trail⟩ := @trail_sending _ _ conduct worker state payload task read
    exact ⟨_, trail.append (.single (.fail (Prod.ext result rfl)))⟩

theorem trail_of_served (done : conduct.serve state payload worker = (.ok (), state', after)) :
    ∃ activities, conduct.Trail ⟨.holding payload, state, worker⟩ activities
      ⟨.head, state', after.enter .idle⟩ := by
  cases read : (worker.config.codec.decode payload : Except CodecError InputTask) with
  | error fault => simp [serve, read] at done
  | ok task =>
    simp only [serve, read, Prod.mk.injEq] at done
    obtain ⟨result, rfl, rfl⟩ := done
    obtain ⟨activities, trail⟩ := @trail_sending _ _ conduct worker state payload task read
    exact ⟨_, trail.append (.step (.send (Prod.ext result rfl)) (.single .finish))⟩

end Conduct

/-- What is known of the moves of an idle worker from its start to its end, given how its cycles ended
and the worker that was left then. Wherever it has got to, it stands where its moves lead along the
diagram, and the journal and the stream bear them out. It shuts down at most once, exactly if the cycles
ended in that way, and not between a request and its reply; an error names the stage that it was met
in. -/
structure KeepsToDiagram (conduct : Conduct Link σ) (polls : Bool) (start : Juncture Link σ)
    (cycles : Except WorkerError Termination) (leaving : Worker Link) (activities : List Activity)
    (finish : Juncture Link σ) : Prop where
  trail : conduct.Trail start activities finish
  throughout : ∀ earlier juncture, conduct.Trail start earlier juncture →
    ∃ standing rest, Walk polls ⟨.idle, false⟩ earlier standing ∧ juncture.At polls standing ∧
      conduct.Records start.worker earlier juncture.worker ∧
      activities = earlier ++ rest ∧ conduct.Trail juncture rest finish
  path : ∃ busy, Walk polls ⟨.idle, false⟩ activities ⟨.terminated, busy⟩
  leaves : ∃ earlier, activities = earlier ++ [.entered .terminated] ∧
    conduct.Trail start earlier ⟨.leaving cycles, finish.state, leaving⟩
  failed : ∀ error, cycles = .error error → error.stage? = some leaving.stage
  once : activities.count (.entered .shuttingDown) ≤ 1
  shutsDown : .entered .shuttingDown ∈ activities ↔ cycles = .ok .shutdown
  finishes : ∀ earlier payload between later,
    activities = earlier ++ .received payload :: (between ++ .entered .shuttingDown :: later) →
    .entered .idle ∈ between

namespace Conduct

variable {conduct : Conduct Link σ} {polls : Bool} {worker last : Worker Link} {state state' : σ}
  {cycles : Except WorkerError Termination} {activities : List Activity}

theorem stage_of_leaving {standing : Standing}
    (stands : Point.Stands polls (.leaving cycles) standing) :
    standing.stage ≠ .terminated ∧ (standing.stage = .shuttingDown ↔ cycles = .ok .shutdown) ∧
      ∀ error, cycles = .error error → error.stage? = some standing.stage := by
  cases stands with
  | shutDown => simp
  | closed => simp
  | failed told origin =>
    refine ⟨?_, ?_, ?_⟩
    · rcases origin with rfl | rfl <;> simp
    · rcases origin with rfl | rfl <;> simp
    · rintro error ⟨⟩
      exact told

/-- A worker that goes from idle until its cycles are over, and then terminates, keeps to the
diagram. -/
theorem Lawful.keepsToDiagram (lawful : conduct.Lawful polls) (idle : worker.stage = .idle)
    (trail : conduct.Trail ⟨.head, state, worker⟩ activities ⟨.leaving cycles, state', last⟩) :
    let joined := conduct.join last
    KeepsToDiagram conduct polls ⟨.head, state, worker⟩ cycles last
      (activities ++ [.entered .terminated])
      ⟨.ended (Worker.concluded cycles (conduct.panic? joined)), state', joined.enter .terminated⟩ := by
  have start : Juncture.At polls ⟨.head, state, worker⟩ ⟨.idle, false⟩ := ⟨.head (.inl rfl), idle⟩
  obtain ⟨standing, walk, leaves, -⟩ := lawful.trail trail start
  obtain ⟨alive, shuts, told⟩ := stage_of_leaving leaves.point
  have onward := trail.append (.single .terminate)
  obtain ⟨standing', whole, ends, -⟩ := lawful.trail onward start
  have count := walk.count_shuttingDown (by simp) alive
  have total : (activities ++ [Activity.entered .terminated]).count (Activity.entered .shuttingDown) =
      activities.count (Activity.entered .shuttingDown) := by
    rw [List.count_append, List.count_singleton, if_neg (by simp), Nat.add_zero]
  refine ⟨onward, ?_, ?_, ⟨activities, rfl, trail⟩, ?_, ?_, ?_, ?_⟩
  · intro earlier juncture part
    obtain ⟨standing, walk, stands, records⟩ := lawful.trail part start
    obtain ⟨rest, whole, remains⟩ := onward.rest (fun _ _ impossible => nomatch impossible) part
    exact ⟨standing, rest, walk, stands, records, whole, remains⟩
  · cases ends.point with
    | ended => exact ⟨_, whole⟩
  · intro error failed
    rw [told error failed]
    exact congrArg some leaves.stage.symm
  · rw [total, count]
    split <;> omega
  · rw [← List.count_pos_iff, total, count, ← shuts]
    by_cases leaving : standing.stage = .shuttingDown <;> simp [leaving]
  · rintro earlier payload between later same
    exact (same ▸ whole).finishes_before_shutdown

end Conduct

end FramedTasks
