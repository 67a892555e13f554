import FramedTasks.CommandLine.Work
import FramedTasks.Proofs.Control.Sources
import FramedTasks.Proofs.Worker.Advance

/-! # The worker's side of an exchange

The command to work starts a listener on its input, works, and counts its tasks. While no line of
the input is the sentinel, nobody asks for a shutdown, and so the worker replies to a request as soon
as it has come, before it waits for the next one (`Attendant.turn_carrying`). Its work is over when
the host goes away (`Attendant.session_of_gone`).
-/

namespace FramedTasks

open FramedTasks.Frame (wire wires effectiveLimit defaultLimit)

namespace Listener

variable {sentinel : String} {flag : Flag}

/-- What a listener polls neither asks for a shutdown nor breaks it down. -/
def Undisturbed (sentinel : String) (events : List Event) : Prop :=
  ∀ event ∈ events, event.triggers = false ∧
    (Moment.control event.poll).IsQuiet sentinel ∧ (Moment.control event.poll).IsSound

theorem run_undisturbed {listener : Listener} {events : List Event}
    (undisturbed : Undisturbed sentinel events) (intact : listener.IsIntact) :
    (run sentinel flag listener events).1.IsIntact ∧
      (run sentinel flag listener events).2.1 = flag := by
  induction events generalizing listener with
  | nil => exact ⟨intact.check flag, rfl⟩
  | cons event rest ih =>
    obtain ⟨⟨silent, quiet, sound⟩, later⟩ := List.forall_mem_cons.mp undisturbed
    have checked := intact.check flag
    simp only [run, silent, Bool.false_eq_true, if_false]
    split
    · next exit ended =>
      rw [ended] at checked
      exact ⟨checked, rfl⟩
    · have heard := checked.hear sound sentinel flag
      have same := @flag_hear sentinel event.poll flag quiet (listener.check flag)
      split
      · next exit ended =>
        rw [ended] at heard
        exact ⟨heard, same⟩
      · rw [same]
        exact ih later heard

theorem start_undisturbed {supply : Supply} (undisturbed : Undisturbed sentinel supply.events) :
    (start sentinel flag supply).1.IsIntact ∧ (start sentinel flag supply).2 = flag := by
  obtain ⟨intact, same⟩ := @run_undisturbed sentinel flag .checking supply.events undisturbed trivial
  unfold start
  split
  · next exit flag' rest outcome =>
    rw [outcome] at intact same
    exact ⟨intact, same⟩
  · next listener flag' rest _ outcome =>
    rw [outcome] at intact same
    obtain rfl : flag' = flag := same
    split
    · exact ⟨intact, rfl⟩
    · have sound : (Moment.control .closed).IsSound := trivial
      have quiet : (Moment.control .closed).IsQuiet sentinel := trivial
      exact ⟨Listener.IsIntact.hear intact sound sentinel _, flag_hear quiet listener⟩

end Listener

theorem Worker.seen_eq_exchanges {Link : Type} (worker : Worker Link) :
    worker.seen = worker.exchanges.map (·.1) := by
  rw [seen, exchanges, List.map_filterMap]
  congr 1
  funext deed
  cases deed <;> rfl

namespace CommandLine.Work

variable {options : WorkOptions} {ready : Ready}

def echoing (queue : Option String) : Answering Unit := fun _ task => (.reply (echo queue task), ())

/-- No line that the input brings is the sentinel. -/
def Ready.Quiet (ready : Ready) : Prop :=
  ∀ text, .token text ∈ ready.input.polls → Listener.isSentinel ready.config.sentinel text = false

theorem Ready.Quiet.undisturbed (quiet : ready.Quiet) :
    Listener.Undisturbed ready.config.sentinel (ready.input.polls.map fun poll => { poll }) := by
  intro event member
  obtain ⟨poll, polled, rfl⟩ := List.mem_map.mp member
  refine ⟨rfl, ?_, ?_⟩
  · cases poll with
    | token text => exact quiet text polled
    | _ => trivial
  · cases poll with
    | panic text => exact (ready.input.panic_not_mem_polls text polled).elim
    | _ => trivial

theorem outcome_processor (queue : Option String) (state : Unit) (task : InputTask)
    (context : TaskContext) :
    (processor queue state task context).outcome = echoing queue state task := rfl

theorem triggers_processor (queue : Option String) (state : Unit) (task : InputTask)
    (context : TaskContext) : (processor queue state task context).triggers = false := rfl

/-- A request that can be echoed makes one turn. -/
theorem turn_of_echo {codec : Codec} {limit : Nat} {queue : Option String} {payload : Bytes}
    {task : InputTask} (reads : codec.decode payload = .ok task)
    (fits : (codec.encode (echo queue task)).length ≤ limit) :
    Turn.of codec limit (echoing queue) () payload =
      { result := .ok ()
        state := ()
        exchanges := [(task, echo queue task)]
        written := wire (codec.encode (echo queue task)) } :=
  Turn.of_fits reads (Nat.not_lt.mpr fits)

namespace Attendant

open FramedTasks.Frame (Duplex)
open FramedTasks.Frame.Duplex (carrying)
open FramedTasks.BlockingWorker (Between Untouched)

variable {config : WorkerConfig} {queue : Option String} {done : List InputTask}
  {attendant : Attendant} {worker : BlockingWorker}

/-- A worker that has replied to some tasks and waits for the next request. Nobody has asked it to
shut down. -/
structure InOrder (config : WorkerConfig) (done : List InputTask) (worker : BlockingWorker) : Prop where
  configured : worker.config = config
  clear : worker.flag.isSet = false
  unread : worker.buffer = []
  flushes : worker.sink.flushes = []
  readerLimit : worker.link.channel.reader.limit = config.limit
  writerLimit : worker.link.channel.writer.limit = config.limit
  listens : ∃ listener, worker.link.listener = some listener ∧ listener.IsIntact
  lasts : (Moment.control worker.link.lastPoll).IsSound
  seen : worker.seen = done

/-- The listener starts on the input, and stays undisturbed. -/
theorem inOrder_start (quiet : ready.Quiet) :
    (start ready).result? = none ∧ InOrder ready.config [] (start ready).worker := by
  let supply : Listener.Supply :=
    { events := ready.input.polls.map fun poll => { poll }
      staysOpen := ready.input.ending == .quiet }
  obtain ⟨intact, clear⟩ :=
    @Listener.start_undisturbed ready.config.sentinel {} supply quiet.undisturbed
  rcases heard : Listener.start ready.config.sentinel {} supply with ⟨listener, flag⟩
  rw [heard] at intact clear
  obtain rfl : flag = {} := clear
  let worker := (BlockingWorker.between { events := [] } {} ready.config).withListener
    (some listener) {}
  have initial : (BlockingWorker.between { events := [] } {} ready.config).initial supply =
      (.ok (), worker) := by
    simp only [BlockingWorker.initial, BlockingWorker.between, heard]
    rfl
  have begun : Work.start ready { events := [] } = (.ok (), worker) := initial
  simp only [start, begun]
  exact ⟨trivial, rfl, rfl, rfl, rfl, rfl, rfl, ⟨listener, rfl, intact⟩, trivial, rfl⟩

/-- What a worker reads that faces the host, and where its bytes go. -/
theorem between_facing (inOrder : InOrder config done worker) (connection : Connection) :
    Between (facing connection worker) (Duplex.source (connection.inflow .right)).events :=
  ⟨inOrder.clear, inOrder.unread, rfl, rfl⟩

theorem untouched_facing (connection : Connection) (worker : BlockingWorker) :
    Untouched worker (facing connection worker) := ⟨rfl, rfl, rfl, rfl⟩

theorem leftBehind_carrying {before after : BlockingWorker} {bytes sent : Bytes}
    (filled : sent ≠ []) (drained : after.source.events = [])
    (taken : after.sink.taken = before.sink.taken ++ sent) :
    leftBehind (carrying .right bytes).connection before after = (carrying .left sent).connection := by
  have new : after.sink.taken.drop before.sink.taken.length = sent := by
    rw [taken, List.drop_left]
  have rest : Duplex.remainder { bytes } after.link.channel.reader.source = {} := by
    simp [Duplex.remainder, Source.left, drained]
  change ((({} : Connection).update .right fun _ =>
    Duplex.remainder { bytes } after.link.channel.reader.source).write .right _).2 = _
  rw [rest, new]
  simp [Connection.write, filled, Connection.isShutFrom, Connection.inflow, Connection.update,
    Side.other, carrying]

section Turn

variable {duplex : Duplex} {after last : BlockingWorker}
  {ended result : Except WorkerError Termination} (goesOn : attendant.result? = none)

include goesOn

theorem turn_of_waits
    (advanced : (facing duplex.connection attendant.worker).advance (processor queue) () =
      (none, (), after)) :
    Attendant.turn queue duplex attendant =
      ({ duplex with connection := leftBehind duplex.connection attendant.worker after },
        { worker := after }) := by
  simp only [Attendant.turn, goesOn, advanced]

theorem turn_of_ended
    (advanced : (facing duplex.connection attendant.worker).advance (processor queue) () =
      (some ended, (), after))
    (concluded : BlockingWorker.conclude ended after = (result, last)) :
    (Attendant.turn queue duplex attendant).2 = { worker := last, result? := some result } := by
  simp only [Attendant.turn, goesOn, advanced, concluded]

end Turn

/-- The worker replies to a request that is on the way to it, and waits for the next one. -/
theorem turn_carrying (goesOn : attendant.result? = none)
    (inOrder : InOrder config done attendant.worker) {payload : Bytes} {task : InputTask}
    (fits : payload.length ≤ effectiveLimit config.limit)
    (reads : config.codec.decode payload = .ok task)
    (replyFits : (config.codec.encode (echo queue task)).length ≤ effectiveLimit config.limit) :
    ∃ later, Attendant.turn queue (carrying .right (wire payload)) attendant =
        (carrying .left (wire (config.codec.encode (echo queue task))), { worker := later }) ∧
      InOrder config (done ++ [task]) later := by
  let facing := facing (carrying .right (wire payload)).connection attendant.worker
  have same : Untouched attendant.worker facing := untouched_facing ..
  have between := between_facing inOrder (carrying .right (wire payload)).connection
  rw [show (carrying .right (wire payload)).connection.inflow .right = { bytes := wire payload } from
    rfl, Duplex.events_source] at between
  have codec : facing.config.codec = config.codec := by rw [same.config, inOrder.configured]
  have isTurn := turn_of_echo reads replyFits
  obtain ⟨after, advanced, took⟩ := @BlockingWorker.advance_frame _ facing (processor queue) ()
    (echoing queue) payload _ between ⟨rfl, inOrder.flushes⟩
    (by rwa [show facing.link.channel.reader.limit = _ from inOrder.readerLimit])
    (outcome_processor queue) (triggers_processor queue) rfl
    (by rw [codec, show facing.link.channel.writer.limit = _ from inOrder.writerLimit, isTurn])
  rw [codec, show facing.link.channel.writer.limit = _ from inOrder.writerLimit, isTurn] at took
  have untouched := same.trans took.untouched
  refine ⟨after, ?_, ?_⟩
  · have behind := @leftBehind_carrying attendant.worker after (wire payload) _
      (Frame.wire_ne_nil (config.codec.encode (echo queue task))) took.between.events took.taken
    rw [turn_of_waits goesOn advanced, behind]
    rfl
  · refine ⟨?_, took.between.clear, took.between.unread, took.accepts.flushes, ?_, ?_, ?_, ?_, ?_⟩
    · rw [untouched.config, inOrder.configured]
    · exact took.readerLimit.trans inOrder.readerLimit
    · exact took.writerLimit.trans inOrder.writerLimit
    · rw [untouched.listener]
      exact inOrder.listens
    · rw [untouched.lastPoll]
      exact inOrder.lasts
    · rw [Worker.seen_eq_exchanges, took.exchanges, List.map_append, ← Worker.seen_eq_exchanges]
      exact congrArg (· ++ [task]) inOrder.seen

/-- When the host goes away, the work is over. -/
theorem session_of_gone (goesOn : attendant.result? = none)
    (inOrder : InOrder config done attendant.worker) :
    (Attendant.turn queue { connection := ({} : Connection).close .left } attendant).2.session queue =
      ⟨.ok .peerClosed, done.length, attendant.worker.sink.taken⟩ := by
  let gone : Connection := ({} : Connection).close .left
  let facing := facing gone attendant.worker
  obtain ⟨asked, advanced⟩ := @BlockingWorker.Between.advance_end _ facing (processor queue) ()
    (between_facing inOrder gone)
  let ended := facing.waiting.withSource { events := [], asked }
  have untouched : Untouched attendant.worker ended :=
    ((untouched_facing ..).trans (BlockingWorker.untouched_waiting facing)).trans
      (BlockingWorker.untouched_withSource ..)
  have intact : (BlockingWorker.join ended.trigger.2).listenerPanic? = none := by
    obtain ⟨listener, listens, intact⟩ := inOrder.listens
    have sound : (Moment.control ended.link.lastPoll).IsSound := by
      rw [untouched.lastPoll]
      exact inOrder.lasts
    exact BlockingWorker.listenerPanic?_join (untouched.listener.trans listens) rfl intact sound
  have ordered : (BlockingWorker.conclude (.ok .peerClosed) ended).1 = .ok .peerClosed := by
    simp only [BlockingWorker.conclude, intact, Worker.concluded_none]
  have alike := BlockingWorker.alike_conclude (.ok .peerClosed) ended
  rcases concluded : BlockingWorker.conclude (.ok .peerClosed) ended with ⟨result, last⟩
  rw [concluded] at ordered alike
  obtain rfl : result = .ok .peerClosed := ordered
  have seen : last.seen = done := by
    rw [Worker.seen_eq_exchanges, alike.exchanges, ← inOrder.seen, Worker.seen_eq_exchanges]
    exact congrArg _ (BlockingWorker.exchanges_waiting facing)
  have taken : last.sink.taken = attendant.worker.sink.taken := by
    rw [alike.sink]
    simp only [ended, BlockingWorker.sink, BlockingWorker.withSource,
      BlockingWorker.channel_withChannel, BlockingWorker.link_waiting]
    rfl
  rw [turn_of_ended goesOn advanced concluded, ← seen, ← taken]
  rfl

end Attendant

end CommandLine.Work

end FramedTasks
