import FramedTasks.Frame.Channel
import FramedTasks.Worker.Basic

/-! # The worker that blocks

This worker waits inside its reads. Beside it a listener watches a control source and sets the
shutdown flag when the sentinel arrives. The worker looks at the flag between two requests and
whenever a read runs out of time while no part of a request has arrived, so that a request which
has begun is always answered.

What happens elsewhere while a read waits is part of the stream of events: someone sets the flag,
or the poll of the listener has an outcome.
-/

namespace FramedTasks

/-- Something that happens elsewhere while a worker waits for its stream. -/
inductive Moment where
  /-- Someone sets the shutdown flag. -/
  | trigger
  /-- The poll of the listener has an outcome. -/
  | control (poll : Poll)
deriving DecidableEq, Repr

/-- The stream of a blocking worker, its listener if there is one, and what the poll comes to that
the listener is left with when the worker ends. -/
structure BlockingLink where
  channel : Frame.Channel Moment
  listener : Option Listener := none
  lastPoll : Poll := .idle
  /-- How the listener ended that the worker has waited for. -/
  joined : Option ListenerExit := none

abbrev BlockingWorker := Worker BlockingLink

namespace BlockingWorker

/-- A worker over the two directions of a stream. -/
def between (source : Source Moment) (sink : Sink) (config : WorkerConfig := {}) : BlockingWorker :=
  { link := { channel := .between source sink config.limit }, config }

/-- Put a listener in place of the one that was there, with the flag as it left it. -/
def withListener (worker : BlockingWorker) (listener : Option Listener) (flag : Flag) :
    BlockingWorker :=
  { worker with flag, link := { worker.link with listener } }

/-- Start the listener on a control source, unless the system has no thread for it. -/
def initial (worker : BlockingWorker) (supply : Listener.Supply) (unstarted : Option Fault := none) :
    Except WorkerError Unit × BlockingWorker :=
  if worker.stage = .terminated then (.error .terminated, worker)
  else if worker.link.listener.isSome then (.error .alreadyInitialized, worker)
  else
    match unstarted with
    | some fault => (.error (.listenerStart fault), worker)
    | none =>
      let (listener, flag) := Listener.start worker.config.sentinel worker.flag supply
      let worker := { worker with link := { worker.link with lastPoll := supply.lastPoll } }
      (.ok (), BlockingWorker.withListener worker (some listener) flag)

/-- Wait until the listener has seen the flag. -/
def settle (worker : BlockingWorker) : BlockingWorker :=
  let notice := Listener.notice worker.config.sentinel worker.link.lastPoll worker.flag
  worker.withListener (worker.link.listener.map notice) worker.flag

/-- Take in something that happened elsewhere. -/
def witness (worker : BlockingWorker) : Moment → BlockingWorker
  | .trigger => worker.trigger.2
  | .control poll =>
    match worker.link.listener with
    | none => worker
    | some listener =>
      let (listener, flag) := listener.hear worker.config.sentinel poll worker.flag
      worker.withListener (some (listener.check flag)) flag

/-- Put a channel in place of the one that was there. -/
def withChannel (worker : BlockingWorker) (channel : Frame.Channel Moment) : BlockingWorker :=
  { worker with link := { worker.link with channel } }

/-- Receive a frame, and take in what happens elsewhere in the meantime. -/
def receive (worker : BlockingWorker) : Except FrameError Bytes × BlockingWorker :=
  let (result, reader) := worker.link.channel.reader.receive
  let moments := reader.source.passed.reverse
  let reader := { reader with source := { reader.source with passed := [] } }
  (result, moments.foldl witness (worker.withChannel { worker.link.channel with reader }))

def work (worker : BlockingWorker) : Nat := worker.link.channel.reader.work

theorem channel_witness (worker : BlockingWorker) (moment : Moment) :
    (worker.witness moment).link.channel = worker.link.channel := by
  cases moment with
  | trigger => rfl
  | control poll =>
    simp only [witness]
    split <;> rfl

theorem channel_foldl_witness (moments : List Moment) (worker : BlockingWorker) :
    (moments.foldl witness worker).link.channel = worker.link.channel := by
  induction moments generalizing worker with
  | nil => rfl
  | cons moment rest ih => rw [List.foldl_cons, ih, channel_witness]

theorem work_receive_lt {worker : BlockingWorker}
    (more : Frame.Reader.goesOn worker.receive.1 = true) :
    worker.receive.2.work < worker.work := by
  have lighter := @Frame.Reader.work_receive_lt _ worker.link.channel.reader more
  simp only [receive, work, channel_foldl_witness]
  exact lighter

/-- What waiting for a request comes to. -/
inductive Request where
  | payload (payload : Bytes)
  /-- The worker is to stop. -/
  | stop (termination : Termination)
  | failed (error : FrameError)
deriving DecidableEq, Repr

/-- Wait for the next request. The flag is looked at whenever a read runs out of time and no part
of a request has arrived. -/
def awaitRequest (worker : BlockingWorker) : Request × BlockingWorker :=
  match _ : worker.receive with
  | (.ok payload, worker') => (.payload payload, worker')
  | (.error .timeout, worker') =>
    if worker'.link.channel.reader.buffer.isEmpty && worker'.flag.isSet then
      (.stop .shutdown, worker')
    else awaitRequest worker'
  | (.error .endOfStream, worker') => (.stop .peerClosed, worker')
  | (.error error, worker') => (.failed error, worker')
termination_by worker.work
decreasing_by
  have outcome : worker.receive = (_, worker') := ‹_›
  have lighter := @work_receive_lt worker (by rw [outcome]; rfl)
  rwa [outcome] at lighter

def sendReply (worker : BlockingWorker) (reply : OutputTask) :
    Except WorkerError Unit × BlockingWorker :=
  let (result, channel) := worker.link.channel.send (worker.config.codec.encode reply)
  (result.mapError .send, worker.withChannel channel)

/-- Decode a request, have it processed and send the reply. -/
def serve {σ : Type} (worker : BlockingWorker) (processor : Processor σ) (state : σ)
    (payload : Bytes) : Except WorkerError Unit × σ × BlockingWorker :=
  match (worker.config.codec.decode payload : Except CodecError InputTask) with
  | .error error => (.error (.decode error), state, worker)
  | .ok task =>
    let worker := worker.enter .processing
    let call := processor state task (worker.context task)
    let reply := call.answer.toReply
    let worker := (worker.triggerIf call.triggers).note task reply
    let (result, worker) := BlockingWorker.sendReply (worker.enter .sendingReply) reply
    (result, call.state, worker)

theorem reader_sendReply (worker : BlockingWorker) (reply : OutputTask) :
    (worker.sendReply reply).2.link.channel.reader = worker.link.channel.reader := rfl

theorem work_serve {σ : Type} (worker : BlockingWorker) (processor : Processor σ) (state : σ)
    (payload : Bytes) : (worker.serve processor state payload).2.2.work = worker.work := by
  simp only [serve]
  split
  · rfl
  · simp only [work, reader_sendReply, Worker.link_enter, Worker.link_note, Worker.link_triggerIf]

theorem work_awaitRequest_lt {worker : BlockingWorker} {payload : Bytes}
    (found : worker.awaitRequest.1 = .payload payload) :
    worker.awaitRequest.2.work < worker.work := by
  fun_induction awaitRequest worker with
  | case1 worker payload' worker' outcome =>
    have lighter := @work_receive_lt worker (by rw [outcome]; rfl)
    rwa [outcome] at lighter
  | case2 => simp at found
  | case3 worker worker' outcome _ ih =>
    have lighter := @work_receive_lt worker (by rw [outcome]; rfl)
    rw [outcome] at lighter
    exact Nat.lt_trans (ih found) lighter
  | case4 => simp at found
  | case5 => simp at found

/-- Go through cycles until the worker is to stop or something fails. -/
def run {σ : Type} (worker : BlockingWorker) (processor : Processor σ) (state : σ) :
    Except WorkerError Termination × σ × BlockingWorker :=
  if worker.flag.isSet then (.ok .shutdown, state, worker.enter .shuttingDown)
  else
    match _ : awaitRequest (worker.enter .awaitingRequest) with
    | (.stop .shutdown, worker') => (.ok .shutdown, state, worker'.enter .shuttingDown)
    | (.stop .peerClosed, worker') => (.ok .peerClosed, state, worker')
    | (.failed error, worker') => (.error (.receive error), state, worker')
    | (.payload payload, worker') =>
      match _ : worker'.serve processor state payload with
      | (.error error, state', worker'') => (.error error, state', worker'')
      | (.ok (), state', worker'') => run (worker''.enter .idle) processor state'
termination_by worker.work
decreasing_by
  have served : worker'.serve processor state payload = _ := ‹_›
  have same := work_serve worker' processor state payload
  have awaited : awaitRequest (worker.enter .awaitingRequest) = (_, worker') := ‹_›
  have lighter := @work_awaitRequest_lt (worker.enter .awaitingRequest) payload (by rw [awaited])
  rw [awaited] at lighter
  rw [served] at same
  simp only [work, Worker.link_enter] at *
  omega

/-- A worker that waits for a request, in the cycle in which it does so or in a new one. -/
def waiting (worker : BlockingWorker) : BlockingWorker :=
  if worker.stage = .awaitingRequest then worker else worker.enter .awaitingRequest

theorem work_waiting (worker : BlockingWorker) : worker.waiting.work = worker.work := by
  simp only [waiting]
  split <;> rfl

/-- Go on as far as what has arrived allows: until the cycles are over, or up to a wait for what has
not arrived yet. -/
def advance {σ : Type} (worker : BlockingWorker) (processor : Processor σ) (state : σ) :
    Option (Except WorkerError Termination) × σ × BlockingWorker :=
  if worker.stage ≠ .awaitingRequest ∧ worker.flag.isSet then
    (some (.ok .shutdown), state, worker.enter .shuttingDown)
  else
    match _ : receive worker.waiting with
    | (.error .timeout, worker') =>
      if worker'.link.channel.reader.buffer.isEmpty && worker'.flag.isSet then
        (some (.ok .shutdown), state, worker'.enter .shuttingDown)
      else (none, state, worker')
    | (.error .endOfStream, worker') => (some (.ok .peerClosed), state, worker')
    | (.error error, worker') => (some (.error (.receive error)), state, worker')
    | (.ok payload, worker') =>
      match _ : worker'.serve processor state payload with
      | (.error error, state', worker'') => (some (.error error), state', worker'')
      | (.ok (), state', worker'') => advance (worker''.enter .idle) processor state'
termination_by worker.work
decreasing_by
  have served : worker'.serve processor state payload = _ := ‹_›
  have same := work_serve worker' processor state payload
  have received : receive worker.waiting = (_, worker') := ‹_›
  have lighter := @work_receive_lt worker.waiting (by rw [received]; rfl)
  rw [received, work_waiting] at lighter
  rw [served] at same
  simp only [work, Worker.link_enter] at *
  omega

theorem work_advance_lt {σ : Type} {worker worker' : BlockingWorker} {processor : Processor σ}
    {state state' : σ} (waits : worker.advance processor state = (none, state', worker')) :
    worker'.work < worker.work := by
  fun_induction advance worker processor state with
  | case1 => simp at waits
  | case2 => simp at waits
  | case3 worker state _ after received =>
    obtain ⟨-, rfl⟩ : state = state' ∧ after = worker' := by simpa using waits
    have lighter := @work_receive_lt worker.waiting (by rw [received]; rfl)
    rwa [received, work_waiting] at lighter
  | case4 => simp at waits
  | case5 => simp at waits
  | case6 => simp at waits
  | case7 worker state _ payload after received state'' last served ih =>
    have same := work_serve after processor state payload
    have lighter := @work_receive_lt worker.waiting (by rw [received]; rfl)
    have lower := ih waits
    rw [received, work_waiting] at lighter
    rw [served] at same
    simp only [work, Worker.link_enter] at *
    omega

/-- Go on until the cycles are over, however often the worker has to wait. -/
def complete {σ : Type} (worker : BlockingWorker) (processor : Processor σ) (state : σ) :
    Except WorkerError Termination × σ × BlockingWorker :=
  match _ : worker.advance processor state with
  | (some ended, state', worker') => (ended, state', worker')
  | (none, state', worker') => complete worker' processor state'
termination_by worker.work
decreasing_by exact work_advance_lt ‹_›

/-- Wait for the listener to end and give it up, with a note of how it ended. A listener that goes on
is not given up. -/
def join (worker : BlockingWorker) : BlockingWorker :=
  let worker := settle worker
  match worker.link.listener with
  | some (.ended exit) =>
    { worker with link := { worker.link with listener := none, joined := some exit } }
  | _ => worker

/-- Why the listener of a worker broke down, if it did. -/
def listenerPanic? (worker : BlockingWorker) : Option String :=
  match worker.link.joined with
  | some (.panicked text) => some text
  | _ => none

/-- End a worker whose cycles are over: the flag is set, and the worker waits for its listener, which
spoils an end in order if it broke down. -/
def conclude (ended : Except WorkerError Termination) (worker : BlockingWorker) :
    Except WorkerError Termination × BlockingWorker :=
  let worker := join worker.trigger.2
  (Worker.concluded ended worker.listenerPanic?, worker.enter .terminated)

/-- Go through cycles until the worker terminates. -/
def doWork {σ : Type} (worker : BlockingWorker) (processor : Processor σ) (state : σ) :
    Except WorkerError Termination × σ × BlockingWorker :=
  if worker.stage = .terminated then (.error .terminated, state, worker)
  else if worker.link.listener.isNone then (.error .notInitialized, state, worker)
  else
    let (ended, state, worker) := worker.run processor state
    let (result, worker) := conclude ended worker
    (result, state, worker)

end BlockingWorker

end FramedTasks
