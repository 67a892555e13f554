import Mathlib
import FramedTasks.Proofs.Worker.Blocking
import FramedTasks.Proofs.Worker.Timed

/-! # Both workers run the same cycle

A worker that blocks and a worker that waits in time are given streams that bring the same bytes,
each in its own pieces and with its own delays, and processors that answer alike. Both follow the
course of these bytes, to its end if nobody asks for a shutdown.
-/

namespace FramedTasks

open FramedTasks.Frame (effectiveLimit)

/-- Whenever a shutdown is asked for, if at all, both workers return, and the tasks and the bytes
written are a front of the course of the bytes that arrive, with the reply to every task complete.
A worker that nobody asks to shut down goes through the whole course and ends as it does, unless
the listener of the blocking worker breaks down. -/
theorem workers_agree {σ : Type} {config config' : WorkerConfig}
    (codec : config'.codec = config.codec) (limit : config'.limit = config.limit)
    {answering : Answering σ} (state : σ) {bytes : Bytes}
    {source : Source Moment} (brings : Source.Brings source.events bytes)
    {processor : Processor σ}
    (gives : ∀ state task context, (processor state task context).outcome = answering state task)
    (listener : Listener) (flag : Flag)
    {stream : Timeline} (arrives : Timeline.Brings stream.hangs stream.events bytes)
    {processor' : TaskProcessor σ}
    (gives' : ∀ state task, (processor' state task).outcome = answering state task)
    (listener' : TimedListener) (flag' : Flag) (clock : Nat) (trigger : Option Nat) :
    let course := Course.of config.codec (effectiveLimit config.limit) answering state bytes
    let blocking := (BlockingWorker.between source {} config).withListener (some listener) flag
    let timed : TimedWorker :=
      { link := { stream, clock, trigger, listener := some listener' }
        config := config'
        flag := flag' }
    let (result, _, last) := blocking.doWork processor state
    let (result?, _, last') := timed.doWork processor' state
    ∃ result', result? = some result' ∧
      Course.Follows config.codec ⟨result, last.exchanges, last.sink.taken⟩ course ∧
      Course.Follows config.codec ⟨result', last'.exchanges, last'.link.sink.taken⟩ course ∧
      (blocking.Calm → (∀ state task context, (processor state task context).triggers = false) →
        last.exchanges = course.exchanges ∧ last.sink.taken = course.written ∧
          BlockingWorker.WithListener course.result result ∧
          (blocking.Sound → result = course.result)) ∧
      (timed.Calm → (∀ state task, (processor' state task).triggers = false) →
        ⟨result', last'.exchanges, last'.link.sink.taken⟩ = course) := by
  intro course blocking timed
  have ready : BlockingWorker.Ready bytes blocking :=
    ⟨⟨bytes, brings, rfl⟩, Frame.Reader.withinFrame_nil, ⟨rfl, rfl⟩, rfl, rfl⟩
  have ready' : TimedWorker.Ready timed.horizon bytes timed := by
    refine ⟨⟨bytes, arrives, rfl⟩, ⟨rfl, rfl⟩, fun event member => ?_⟩
    have := stream.le_lastTime event member
    simp only [TimedWorker.horizon, timed]
    omega
  have blocks := BlockingWorker.follows_doWork ready Stage.noConfusion rfl rfl rfl gives state
  have waits := TimedWorker.follows_doWork ready' Stage.noConfusion rfl rfl rfl gives' state
  have course' : Course.of timed.config.codec (effectiveLimit timed.config.limit) answering state bytes =
      course := by
    simp only [timed, codec, limit, course]
  rw [course', show timed.config.codec = config.codec from codec] at waits
  rcases done : blocking.doWork processor state with ⟨result, state', last⟩
  rcases done' : timed.doWork processor' state with ⟨result?, state'', last'⟩
  rw [done] at blocks
  rw [done'] at waits
  obtain ⟨follows, same⟩ := blocks
  obtain ⟨result', returns, follows', same'⟩ := waits
  exact ⟨result', returns, follows, follows', same, same'⟩

/-- A request that is delayed inside its header, and a stream that ends inside the next header. -/
theorem workers_agree_cut :
    let answering : Answering Nat := fun count task => (.reply (.done task.message), count + 1)
    let processor : Processor Nat := fun count task _ =>
      ⟨.reply (.done task.message), count + 1, false, 0⟩
    let processor' : TaskProcessor Nat := fun count task =>
      ⟨.reply (.done task.message), count + 1, false, 300⟩
    let bytes : Bytes := [0, 0, 0, 5, 0x81, 0xA1, 0x30, 0xA1, 0x61, 0, 0]
    let source : Source Moment :=
      { events := [.data [0, 0] none, .fault ⟨.timedOut, none⟩, .moment (.control .idle),
          .data [0, 5, 0x81, 0xA1] (some 1), .data [0x30, 0xA1, 0x61, 0, 0] none] }
    let stream : Timeline :=
      { events := [(3, .data [0, 0, 0]), (700, .data [5, 0x81, 0xA1, 0x30, 0xA1, 0x61, 0]),
          (900, .data [0]), (950, .closed)]
        hangs := true }
    let listener : TimedListener := ⟨.ended .sourceClosed, 0, .closed, ⟨⟨[], false⟩, []⟩⟩
    let blocking := (BlockingWorker.between source {}).withListener (some .polling) {}
    let timed : TimedWorker := { link := { stream, listener := some listener } }
    let (result, _, last) := blocking.doWork processor 0
    let (result?, _, last') := timed.doWork processor' 0
    Source.Brings source.events bytes ∧ Timeline.Brings stream.hangs stream.events bytes ∧
      (∀ state task context, (processor state task context).outcome = answering state task) ∧
      (∀ state task, (processor' state task).outcome = answering state task) ∧
      result = .error (.receive (.truncated 4 2)) ∧
      result? = some (.error (.receive (.truncated 4 2))) ∧
      last.exchanges = [({ message := "a" }, .done "a")] ∧ last'.exchanges = last.exchanges ∧
      last'.link.sink.taken = last.sink.taken := by
  intro answering processor processor' bytes source stream listener blocking timed
  have brings : Source.Brings source.events bytes :=
    .data (by simp) (.delay rfl (.moment _ (.data (by simp) (.data (by simp) .ended))))
  have arrives : Timeline.Brings stream.hangs stream.events bytes :=
    .data 3 (.data 700 (.data 900 (.closed 950 [])))
  have course : Course.of {} (effectiveLimit Frame.defaultLimit) answering 0 bytes =
      ⟨.error (.receive (.truncated 4 2)), [({ message := "a" }, .done "a")],
        Frame.wire (({} : Codec).encode (OutputTask.done "a"))⟩ := by cbv
  have coming {kind : Moment → Prop} (idle : kind (.control .idle)) : source.Sees kind :=
    ⟨by simp [source], by simp [source, idle]⟩
  have calm : blocking.Calm := ⟨rfl, coming trivial⟩
  have sound : blocking.Sound := ⟨by rintro _ ⟨⟩; trivial, coming trivial⟩
  have calm' : timed.Calm := by
    refine ⟨rfl, rfl, ?_⟩
    rintro _ ⟨⟩ time
    rw [TimedListener.advance_of_ne (by simp [listener])]
  have agree := @workers_agree Nat {} {} rfl rfl answering 0 bytes source brings processor
    (fun _ _ _ => rfl) .polling {} stream arrives processor' (fun _ _ => rfl) listener {} 0 none
  rcases done : blocking.doWork processor 0 with ⟨result, state, last⟩
  rcases done' : timed.doWork processor' 0 with ⟨result?, state', last'⟩
  rw [course] at agree
  dsimp only at agree
  rw [show BlockingWorker.doWork _ processor 0 = (result, state, last) from done,
    show TimedWorker.doWork _ processor' 0 = (result?, state', last') from done'] at agree
  obtain ⟨result', returns, -, -, same, same'⟩ := agree
  obtain ⟨exchanges, written, -, ends⟩ := same calm fun _ _ _ => rfl
  obtain ⟨ended, tasks, out⟩ := Course.mk.inj (same' calm' fun _ _ => rfl)
  refine ⟨brings, arrives, fun _ _ _ => rfl, fun _ _ => rfl, ends sound, ?_, exchanges, ?_, ?_⟩
  · exact ended ▸ returns
  · exact tasks.trans exchanges.symm
  · exact out.trans written.symm

end FramedTasks
