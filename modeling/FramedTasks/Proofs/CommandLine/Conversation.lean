import FramedTasks.CommandLine.Dispatch
import FramedTasks.Proofs.Frame.Duplex

/-! # The host's side of an exchange

Between two tasks nothing is on the way and nothing is held, so that the connection is as new. A
task is then answered by the response to its own request, or the command fails
(`Conversation.dispatch_cases`). With a peer whose responses are single frames, the replies that are
reported are those to the first tasks, each read from the response to its own request
(`Conversation.reported_dispatchAll`). A peer that replies to every task has all its replies reported
(`Conversation.dispatchAll_of_serves`).
-/

namespace FramedTasks.CommandLine.Dispatch

open FramedTasks.Frame (Duplex wire take defaultLimit)
open FramedTasks.Frame.Duplex (carrying)

theorem prepare_eq_ok {options : DispatchOptions} {id : String} {ready : Ready}
    (prepared : prepare options id = .ok ready) :
    ∃ headers, HeaderArgument.parse options.headers = .ok headers ∧
      ready.tasks = tasks options (options.correlationId.getD id) headers := by
  simp only [prepare, bind, Except.bind] at prepared
  split at prepared
  · cases prepared
  split at prepared
  · cases prepared
  next headers parsed =>
  split at prepared
  · cases prepared
  obtain rfl := Except.ok.inj prepared
  exact ⟨headers, parsed, rfl⟩

@[simp] theorem length_tasks (options : DispatchOptions) (id : String)
    (headers : Option Headers) : (tasks options id headers).length = options.messages.length := by
  simp [tasks]

/-- No response holds more than a single frame. -/
def Single (responses : List Response) : Prop :=
  ∀ bytes payload rest, .sends bytes ∈ responses →
    take defaultLimit bytes = .ok (some (payload, rest)) → rest = []

/-- Replies to the first of some tasks, each read from the response to its own request. -/
inductive Answers (codec : Codec) : List InputTask → List Response → List OutputTask → Prop
  | none (tasks : List InputTask) (responses : List Response) : Answers codec tasks responses []
  | next {task : InputTask} {tasks : List InputTask} {bytes payload : Bytes}
      {responses : List Response} {reply : OutputTask} {replies : List OutputTask} :
      take defaultLimit bytes = .ok (some (payload, [])) → codec.decode payload = .ok reply →
      Answers codec tasks responses replies →
      Answers codec (task :: tasks) (.sends bytes :: responses) (reply :: replies)

theorem Answers.length_le {codec : Codec} {tasks : List InputTask} {responses : List Response}
    {replies : List OutputTask} (answers : Answers codec tasks responses replies) :
    replies.length ≤ tasks.length := by
  induction answers with
  | none => exact Nat.zero_le _
  | next _ _ _ ih => exact Nat.succ_le_succ ih

namespace Script

variable {script : Script}

@[simp] theorem received_respond (duplex : Duplex) (script : Script) (response : Response) :
    (respond duplex script response).2.received = script.received := by
  cases response <;> rfl

theorem received_turn (duplex : Duplex) (script : Script) :
    script.received <+: (turn duplex script).2.received := by
  unfold turn
  split
  · exact List.prefix_rfl
  · split
    · exact List.prefix_rfl
    · exact List.prefix_append ..
    · rw [received_respond]
      exact List.prefix_append ..

/-- What the peer sends is on the way to the command. -/
theorem respond_sends (script : Script) (bytes : Bytes) :
    respond {} script (.sends bytes) = (carrying .left bytes, script) := by
  cases bytes <;> rfl

theorem turn_of_nil {duplex : Duplex} (nothing : script.responses = []) :
    turn duplex script = (duplex, script) := by
  simp only [turn, nothing]

/-- The peer receives a request that is on the way and responds to it. -/
theorem turn_of_carrying {payload : Bytes} {response : Response} {rest : List Response}
    (fits : payload.length ≤ defaultLimit) (responds : script.responses = response :: rest) :
    turn (carrying .right (wire payload)) script =
      respond {} ⟨rest, script.received ++ [.ok payload]⟩ response := by
  have found : Duplex.receive .right (carrying .right (wire payload)) = (.ok payload, {}) :=
    Duplex.receive_carrying fits
  simp only [turn, responds, found]

end Script

namespace Conversation

variable {codec : Codec} {task : InputTask} {form : ReportForm}

section AnyPeer

variable {peer : Peer} {conversation : Conversation peer}

theorem printed_dispatch (conversation : Conversation peer) (codec : Codec) (task : InputTask) :
    (conversation.dispatch codec task).2.printed = conversation.printed := by
  unfold dispatch
  split <;> rfl

/-- A task that fits goes to the peer, which takes its turn, and then a reply is due. -/
theorem dispatch_of_fits (isNew : conversation.duplex = {})
    (fits : (codec.encode task).length ≤ defaultLimit) :
    let turn := peer.turn (carrying .right (wire (codec.encode task))) conversation.other
    conversation.dispatch codec task =
      (Dispatcher.replyOf codec (turn.1.receive .left).1,
        { conversation with duplex := (turn.1.receive .left).2, other := turn.2 }) := by
  simp only [dispatch, isNew, Duplex.send_of_fits fits, Side.other, peerTurn]

/-- What it takes of a peer to have its reply to a task reported. As long as it has replied to every
task, it is in order, and it stays so when it replies to this one. -/
structure Serves (peer : Peer) (codec : Codec) (inOrder : List InputTask → peer.State → Prop)
    (payload : InputTask → Bytes) (answer : InputTask → OutputTask) (task : InputTask) : Prop where
  request : (codec.encode task).length ≤ defaultLimit
  reply : (payload task).length ≤ defaultLimit
  reads : codec.decode (payload task) = .ok (answer task)
  turn : ∀ done other, inOrder done other → ∃ later,
    peer.turn (carrying .right (wire (codec.encode task))) other =
      (carrying .left (wire (payload task)), later) ∧
    inOrder (done ++ [task]) later

variable {inOrder : List InputTask → peer.State → Prop} {payload : InputTask → Bytes}
  {answer : InputTask → OutputTask} {done : List InputTask}

theorem dispatch_of_serves (serves : Serves peer codec inOrder payload answer task)
    (isNew : conversation.duplex = {}) (before : inOrder done conversation.other) :
    ∃ other, conversation.dispatch codec task =
        (.ok (answer task), { conversation with duplex := {}, other }) ∧
      inOrder (done ++ [task]) other := by
  obtain ⟨later, turn, after⟩ := serves.turn done conversation.other before
  have found : (carrying .left (wire (payload task))).receive .left = (.ok (payload task), {}) :=
    Duplex.receive_carrying serves.reply
  refine ⟨later, ?_, after⟩
  rw [dispatch_of_fits isNew serves.request, turn]
  simp only [found, Dispatcher.replyOf, serves.reads, Except.mapError]

/-- A peer that replies to every task has all its replies reported. -/
theorem dispatchAll_of_serves {tasks : List InputTask}
    (serves : ∀ task ∈ tasks, Serves peer codec inOrder payload answer task)
    (isNew : conversation.duplex = {}) (before : inOrder done conversation.other) :
    ∃ other, conversation.dispatchAll codec form tasks =
        (none, {
          duplex := {}
          other
          printed := conversation.printed ++
            String.join (tasks.map fun task => Report.reply form task (answer task)) }) ∧
      inOrder (done ++ tasks) other := by
  induction tasks generalizing conversation done with
  | nil =>
    obtain ⟨duplex, other, printed⟩ := conversation
    obtain rfl : duplex = {} := isNew
    exact ⟨other, by simp [dispatchAll], by simpa using before⟩
  | cons task tasks ih =>
    obtain ⟨this, rest⟩ := List.forall_mem_cons.mp serves
    obtain ⟨other, outcome, between⟩ := dispatch_of_serves this isNew before
    let printed := conversation.printed ++ Report.reply form task (answer task)
    obtain ⟨last, outcomes, after⟩ :=
      @ih { duplex := {}, other, printed } _ rest rfl between
    refine ⟨last, ?_, by simpa using after⟩
    rw [dispatchAll, outcome]
    simp only [printed] at outcomes ⊢
    rw [outcomes]
    simp [String.append_assoc]

/-- A command with such a peer succeeds, and goes away when it has replied to all tasks. -/
theorem converse_of_serves {options : DispatchOptions} {ready : Ready}
    (serves : ∀ task ∈ ready.tasks, Serves peer options.codec inOrder payload answer task)
    (form : ReportForm) {other : peer.State} (before : inOrder [] other) :
    ∃ later, inOrder ready.tasks later ∧
      (converse options ready form other).1 = .success
        (String.join (ready.tasks.map fun task => Report.reply form task (answer task))) ∧
      (converse options ready form other).2.other =
        (peer.turn { connection := ({} : Connection).close .left } later).2 := by
  let start : Conversation peer := { other }
  obtain ⟨later, dispatched, after⟩ := @dispatchAll_of_serves _ form _ start _ _ _ [] _ serves rfl before
  refine ⟨later, after, ?_, ?_⟩ <;> simp only [converse, start] at dispatched ⊢ <;> rw [dispatched]
  · simp only [String.empty_append]
  · rfl

end AnyPeer

section Scripted

variable {conversation : Conversation scripted}

theorem received_dispatch (conversation : Conversation scripted) (codec : Codec)
    (task : InputTask) :
    conversation.other.received <+: (conversation.dispatch codec task).2.other.received := by
  unfold dispatch
  split
  · exact List.prefix_rfl
  · next duplex _ => exact Script.received_turn duplex conversation.other

/-- A task is answered by the response to its own request, or the command fails. -/
theorem dispatch_cases (isNew : conversation.duplex = {}) (codec : Codec) (task : InputTask) :
    (∃ error, (conversation.dispatch codec task).1 = .error error) ∨
      ∃ bytes rest, conversation.other.responses = .sends bytes :: rest ∧
        conversation.dispatch codec task =
          (Dispatcher.replyOf codec ((carrying .left bytes).receive .left).1,
            { conversation with
              duplex := ((carrying .left bytes).receive .left).2
              other := ⟨rest, conversation.other.received ++ [.ok (codec.encode task)]⟩ }) := by
  by_cases fits : (codec.encode task).length ≤ defaultLimit
  case neg =>
    left
    exact ⟨_, by simp only [dispatch, isNew, Duplex.send_of_excess (Nat.lt_of_not_le fits)]; rfl⟩
  -- What the dispatch comes to depends on the peer's turn alone.
  have whole {turned : Duplex × Script}
      (turn : Script.turn (carrying .right (wire (codec.encode task))) conversation.other = turned) :
      conversation.dispatch codec task =
        (Dispatcher.replyOf codec (turned.1.receive .left).1,
          { conversation with duplex := (turned.1.receive .left).2, other := turned.2 }) :=
    turn ▸ dispatch_of_fits isNew fits
  match responds : conversation.other.responses with
  | [] =>
    left
    rw [whole (Script.turn_of_nil responds)]
    exact ⟨_, congrArg (Dispatcher.replyOf codec) (Duplex.receive_of_nothing rfl rfl)⟩
  | .sends bytes :: rest =>
    right
    refine ⟨bytes, rest, rfl, ?_⟩
    rw [whole (Script.turn_of_carrying fits responds), Script.respond_sends]
  | .closes :: rest =>
    left
    rw [whole (Script.turn_of_carrying fits responds)]
    exact ⟨_, congrArg (Dispatcher.replyOf codec) (Duplex.receive_of_shut rfl rfl)⟩
  | .staysQuiet :: rest =>
    left
    rw [whole (Script.turn_of_carrying fits responds)]
    exact ⟨_, congrArg (Dispatcher.replyOf codec) (Duplex.receive_of_nothing rfl rfl)⟩

/-- A task that is answered leaves the connection as it was. -/
theorem dispatch_answered (isNew : conversation.duplex = {})
    (single : Single conversation.other.responses) {reply : OutputTask}
    (answered : (conversation.dispatch codec task).1 = .ok reply) :
    ∃ bytes payload rest, conversation.other.responses = .sends bytes :: rest ∧
      take defaultLimit bytes = .ok (some (payload, [])) ∧ codec.decode payload = .ok reply ∧
      (conversation.dispatch codec task).2 = { conversation with
        duplex := {}
        other := ⟨rest, conversation.other.received ++ [.ok (codec.encode task)]⟩ } := by
  obtain ⟨error, failed⟩ | ⟨bytes, rest, responds, outcome⟩ := dispatch_cases isNew codec task
  · rw [failed] at answered
    cases answered
  rw [outcome] at answered ⊢
  match received : ((carrying .left bytes).receive .left).1 with
  | .error error =>
    rw [received] at answered
    cases answered
  | .ok payload =>
    obtain ⟨behind, found⟩ := Duplex.take_of_receive received
    obtain rfl : behind = [] := single bytes payload behind (by simp [responds]) found
    obtain ⟨fits, rfl⟩ := (Frame.take_eq_some_iff (Nat.min_le_right ..)).mp found
    rw [List.append_nil] at answered responds found ⊢
    have whole : (carrying .left (wire payload)).receive .left = (.ok payload, {}) :=
      Duplex.receive_carrying fits
    rw [whole] at answered ⊢
    refine ⟨_, payload, rest, responds, found, ?_, rfl⟩
    cases read : (codec.decode payload : Except CodecError OutputTask) with
    | error error => simp [Dispatcher.replyOf, read, Except.mapError] at answered
    | ok other => simpa [Dispatcher.replyOf, read, Except.mapError] using answered

/-- What dispatching tasks has come to, by the replies that were reported. -/
structure Reported (codec : Codec) (form : ReportForm) (before : Conversation scripted)
    (tasks : List InputTask) (replies : List OutputTask)
    (outcome : Option WorkerError × Conversation scripted) : Prop where
  answers : Answers codec tasks before.other.responses replies
  printed : outcome.2.printed =
    before.printed ++ String.join (List.zipWith (Report.reply form) tasks replies)
  received : before.other.received ++
    (tasks.take replies.length).map (fun task => .ok (codec.encode task)) <+: outcome.2.other.received
  complete : outcome.1 = none ↔ replies.length = tasks.length

/-- The replies to the first tasks are reported, and to all of them unless a dispatch fails. -/
theorem reported_dispatchAll (isNew : conversation.duplex = {})
    (single : Single conversation.other.responses) (codec : Codec) (form : ReportForm)
    (tasks : List InputTask) :
    ∃ replies, Reported codec form conversation tasks replies
      (conversation.dispatchAll codec form tasks) := by
  fun_induction dispatchAll conversation codec form tasks with
  | case1 conversation => exact ⟨[], .none .., by simp, by simp, by simp⟩
  | case2 conversation task rest error next outcome =>
    have received := received_dispatch conversation codec task
    have printed := printed_dispatch conversation codec task
    rw [outcome] at received printed
    exact ⟨[], .none .., by simpa using printed, by simpa using received, by simp⟩
  | case3 conversation task rest reply next outcome printed ih =>
    obtain ⟨bytes, payload, responses, responds, found, read, after⟩ :=
      dispatch_answered isNew single (congrArg Prod.fst outcome)
    rw [outcome] at after
    obtain rfl := after
    obtain ⟨replies, reported⟩ := ih rfl fun bytes payload behind member =>
      single bytes payload behind (responds ▸ List.mem_cons_of_mem _ member)
    refine ⟨reply :: replies, ?_, ?_, ?_, ?_⟩
    · rw [responds]
      exact .next found read reported.answers
    · rw [reported.printed]
      simp [printed, String.append_assoc]
    · simpa using reported.received
    · simpa using reported.complete

theorem toOption_received (codec : Codec) (tasks : List InputTask) :
    (tasks.map fun task => (.ok (codec.encode task) : Except FrameError Bytes)).filterMap
      (·.toOption) = tasks.map codec.encode := by
  rw [List.filterMap_map]
  exact congrFun List.filterMap_eq_map tasks

theorem received_finish_prefix (conversation : Conversation scripted) :
    conversation.other.received <+: conversation.finish.other.received := by
  rw [finish]
  exact Script.received_turn _ conversation.other

end Scripted

end Conversation

end FramedTasks.CommandLine.Dispatch
