import Mathlib
import FramedTasks.Dispatcher
import FramedTasks.Proofs.Frame.Delivery

/-! # Which reply a call returns

A dispatcher talks to a peer that answers every request with one reply, in order, and the bytes of
the replies arrive whenever they do (`Conversation`). Every call takes the oldest reply that no
call has taken yet, or runs out of time and leaves its own reply to a later call (`InOrder`). So a
call returns the answer to the request before which as many requests were sent as calls have not
run out of time (`dispatch_answers`): its own request exactly if no earlier call ran out of time.
-/

namespace FramedTasks.Dispatcher

open FramedTasks.Frame (wire wires take effectiveLimit)
open FramedTasks.Frame.Reader (WithinFrame)

variable {ε σ : Type}

/-- What the other side makes of successive requests: a reply to each, and its next state. -/
abbrev Peer (σ : Type) := σ → Bytes → Bytes × σ

/-- A dispatcher whose stream will do the given things. -/
def hearing (dispatcher : Dispatcher ε) (events : List (SourceEvent ε)) : Dispatcher ε :=
  { dispatcher with channel := { dispatcher.channel with
      reader := { dispatcher.channel.reader with
        source := { dispatcher.channel.reader.source with events } } } }

/-- Calls of a dispatcher with their results, given the state of the peer and the bytes of its
replies that are still to come. The bytes arrive in any pieces and with any delays. -/
inductive Conversation (peer : Peer σ) : Dispatcher ε → σ → Bytes →
    List (InputTask × Except WorkerError OutputTask) → Prop
  | done (dispatcher : Dispatcher ε) (state : σ) (pending : Bytes) :
      Conversation peer dispatcher state pending []
  /-- The request is too large to be sent, and the peer does not hear of it. -/
  | refused {dispatcher : Dispatcher ε} {state : σ} {pending : Bytes} {task : InputTask}
      {size limit : Nat} {rest : List (InputTask × Except WorkerError OutputTask)} :
      (dispatcher.send task).1 = .error (.send (.payloadTooLarge size limit)) →
      Conversation peer (dispatcher.dispatch task).2 state pending rest →
      Conversation peer dispatcher state pending ((task, (dispatcher.dispatch task).1) :: rest)
  | sent {dispatcher : Dispatcher ε} {state : σ} {pending left : Bytes} {task : InputTask}
      {events : List (SourceEvent ε)} {rest : List (InputTask × Except WorkerError OutputTask)} :
      (dispatcher.send task).1 = .ok () →
      Source.Brings events (pending ++ wire (peer state (dispatcher.codec.encode task)).1) →
      Source.Brings ((dispatcher.hearing events).dispatch task).2.channel.reader.source.events left →
      Conversation peer ((dispatcher.hearing events).dispatch task).2
        (peer state (dispatcher.codec.encode task)).2 left rest →
      Conversation peer dispatcher state pending
        ((task, ((dispatcher.hearing events).dispatch task).1) :: rest)

/-- What calls return, given the state of the peer and the replies that no call has taken yet: the
oldest of them, unless the call runs out of time. -/
inductive InOrder (codec : Codec) (peer : Peer σ) : σ → List Bytes →
    List (InputTask × Except WorkerError OutputTask) → Prop
  | done (state : σ) (backlog : List Bytes) : InOrder codec peer state backlog []
  | refused {state : σ} {backlog : List Bytes} {task : InputTask} {error : FrameError}
      {rest : List (InputTask × Except WorkerError OutputTask)} :
      InOrder codec peer state backlog rest →
      InOrder codec peer state backlog ((task, .error (.send error)) :: rest)
  | late {state : σ} {backlog : List Bytes} {task : InputTask}
      {rest : List (InputTask × Except WorkerError OutputTask)} :
      InOrder codec peer (peer state (codec.encode task)).2
        (backlog ++ [(peer state (codec.encode task)).1]) rest →
      InOrder codec peer state backlog ((task, .error (.receive .timeout)) :: rest)
  | heard {state : σ} {backlog others : List Bytes} {oldest : Bytes} {task : InputTask}
      {rest : List (InputTask × Except WorkerError OutputTask)} :
      backlog ++ [(peer state (codec.encode task)).1] = oldest :: others →
      InOrder codec peer (peer state (codec.encode task)).2 others rest →
      InOrder codec peer state backlog ((task, replyOf codec (.ok oldest)) :: rest)

section Call

variable {dispatcher : Dispatcher ε} {task : InputTask}

theorem dispatch_of_refused {error : WorkerError} (refused : (dispatcher.send task).1 = .error error) :
    (dispatcher.dispatch task).1 = .error error ∧
      (dispatcher.dispatch task).2 = (dispatcher.send task).2 := by
  simp only [dispatch]
  rcases outcome : dispatcher.send task with ⟨result, after⟩
  rw [outcome] at refused
  obtain rfl : result = .error error := refused
  exact ⟨rfl, rfl⟩

/-- A call whose request went out returns what its reader receives. -/
theorem dispatch_of_sent (sent : (dispatcher.send task).1 = .ok ()) :
    (dispatcher.dispatch task).1 = replyOf dispatcher.codec dispatcher.channel.reader.receive.1 ∧
      (dispatcher.dispatch task).2.channel.reader = dispatcher.channel.reader.receive.2 ∧
      (dispatcher.dispatch task).2.codec = dispatcher.codec := by
  have reader : (dispatcher.send task).2.channel.reader = dispatcher.channel.reader := rfl
  have codec : (dispatcher.send task).2.codec = dispatcher.codec := rfl
  simp only [dispatch]
  rcases outcome : dispatcher.send task with ⟨result, after⟩
  rw [outcome] at sent reader codec
  obtain rfl : result = .ok () := sent
  simp only at reader codec
  simp only [receive, Frame.Channel.receive, reader, codec, and_self]

end Call

/-- A dispatcher and its peer between two calls: the replies that no call has taken yet. -/
structure Owes (codec : Codec) (limit : Nat) (dispatcher : Dispatcher ε) (pending : Bytes)
    (backlog : List Bytes) : Prop where
  sameCodec : dispatcher.codec = codec
  sameLimit : dispatcher.channel.reader.limit = limit
  within : WithinFrame dispatcher.channel.reader.buffer
  whole : dispatcher.channel.reader.buffer ++ pending = wires backlog
  fits : ∀ reply ∈ backlog, reply.length ≤ effectiveLimit limit

theorem brings_unique {events : List (SourceEvent ε)} {first second : Bytes}
    (one : Source.Brings events first) (other : Source.Brings events second) : first = second := by
  induction one generalizing second with
  | ended => cases other; rfl
  | closed => cases other; rfl
  | data _ _ ih => cases other with | data _ other => rw [ih other]
  | delay _ _ ih => cases other with | delay _ other => exact ih other
  | moment _ _ ih => cases other with | moment _ other => exact ih other

section Run

variable {codec : Codec} {limit : Nat} {dispatcher : Dispatcher ε} {pending left reply : Bytes}
  {backlog : List Bytes} {task : InputTask} {events : List (SourceEvent ε)}

/-- A call takes the oldest reply, or runs out of time and leaves all of them. -/
theorem Owes.dispatch (owes : Owes codec limit dispatcher pending backlog)
    (sent : (dispatcher.send task).1 = .ok ()) (fits : reply.length ≤ effectiveLimit limit)
    (brings : Source.Brings events (pending ++ wire reply))
    (remains : Source.Brings
      ((dispatcher.hearing events).dispatch task).2.channel.reader.source.events left) :
    (((dispatcher.hearing events).dispatch task).1 = .error (.receive .timeout) ∧
      Owes codec limit ((dispatcher.hearing events).dispatch task).2 left (backlog ++ [reply])) ∨
    ∃ oldest others, backlog ++ [reply] = oldest :: others ∧
      ((dispatcher.hearing events).dispatch task).1 = replyOf codec (.ok oldest) ∧
      Owes codec limit ((dispatcher.hearing events).dispatch task).2 left others := by
  obtain ⟨rfl, rfl, within, whole, small⟩ := owes
  have sent' : ((dispatcher.hearing events).send task).1 = .ok () := sent
  obtain ⟨result, reader, codec⟩ := dispatch_of_sent sent'
  have limit : ((dispatcher.hearing events).dispatch task).2.channel.reader.limit =
      dispatcher.channel.reader.limit := by rw [reader]; rfl
  obtain ⟨oldest, others, queue⟩ : ∃ oldest others, backlog ++ [reply] = oldest :: others :=
    List.exists_cons_of_ne_nil (by simp)
  have bytes : dispatcher.channel.reader.buffer ++ (pending ++ wire reply) =
      wire oldest ++ wires others := by
    rw [← List.append_assoc, whole, ← Frame.wires_cons, ← queue, Frame.wires_append]
    simp
  have bounded : ∀ payload ∈ oldest :: others,
      payload.length ≤ effectiveLimit dispatcher.channel.reader.limit := by
    rw [← queue]
    intro payload member
    rcases List.mem_append.mp member with member | member
    · exact small payload member
    · rw [List.mem_singleton.mp member]
      exact fits
  have found : take (effectiveLimit dispatcher.channel.reader.limit)
      (wire oldest ++ wires others) = .ok (some (oldest, wires others)) :=
    (Frame.take_eq_some_iff (Nat.min_le_right ..)).mpr ⟨bounded oldest (List.mem_cons_self ..), rfl⟩
  have received := @Frame.Reader.received_receive _ (dispatcher.hearing events).channel.reader _
    within brings
  rw [← reader, show (dispatcher.hearing events).channel.reader.buffer ++ _ = _ from bytes] at received
  rw [result]
  cases outcome : (dispatcher.hearing events).channel.reader.receive.1 with
  | ok payload =>
    rw [outcome] at received
    obtain ⟨rest, first, brings, empty⟩ := received.of_ok
    obtain ⟨rfl, rfl⟩ : oldest = payload ∧ wires others = rest := by
      simpa using found.symm.trans first
    obtain rfl := brings_unique remains brings
    refine .inr ⟨oldest, others, queue, rfl, codec, limit, ?_, ?_, ?_⟩
    · rw [empty]
      exact Frame.Reader.withinFrame_nil
    · rw [empty, List.nil_append]
    · exact fun payload member => bounded payload (List.mem_cons_of_mem _ member)
  | error error =>
    rw [outcome] at received
    by_cases late : error = .timeout
    · subst late
      obtain ⟨left', whole, within, brings⟩ := received.of_timeout
      obtain rfl := brings_unique remains brings
      refine .inl ⟨rfl, codec, limit, within, ?_, queue ▸ bounded⟩
      rw [← whole, queue, Frame.wires_cons]
    · exact absurd found ((received.of_error late).1 _ _)

theorem inOrder_of_conversation {peer : Peer σ} {state : σ}
    {calls : List (InputTask × Except WorkerError OutputTask)}
    (conversation : Conversation peer dispatcher state pending calls)
    (owes : Owes codec limit dispatcher pending backlog)
    (fits : ∀ state request, (peer state request).1.length ≤ effectiveLimit limit) :
    InOrder codec peer state backlog calls := by
  induction conversation generalizing backlog with
  | done => exact .done ..
  | @refused dispatcher state pending task size most rest refused _ ih =>
    obtain ⟨result, after⟩ := dispatch_of_refused refused
    rw [result]
    refine .refused (ih ?_)
    rw [after]
    exact ⟨owes.sameCodec, owes.sameLimit, owes.within, owes.whole, owes.fits⟩
  | @sent dispatcher state pending left task events rest sent brings remains _ ih =>
    rw [owes.sameCodec] at brings ih
    rcases owes.dispatch sent (fits ..) brings remains with
      ⟨result, after⟩ | ⟨oldest, others, queue, result, after⟩
    · rw [result]
      exact .late (ih after)
    · rw [result]
      exact .heard queue (ih after)

end Run

def isLate : Except WorkerError OutputTask → Bool
  | .error (.receive .timeout) => true
  | _ => false

def isRefused : Except WorkerError OutputTask → Bool
  | .error (.send _) => true
  | _ => false

def lateCalls (calls : List (InputTask × Except WorkerError OutputTask)) : Nat :=
  calls.countP fun call => isLate call.2

def requests (calls : List (InputTask × Except WorkerError OutputTask)) : List InputTask :=
  (calls.filter fun call => !isRefused call.2).map (·.1)

/-- The replies of a peer to the requests for some tasks. -/
def answers (codec : Codec) (peer : Peer σ) : σ → List InputTask → List Bytes
  | _, [] => []
  | state, task :: rest =>
    (peer state (codec.encode task)).1 :: answers codec peer (peer state (codec.encode task)).2 rest

section Pairing

variable {codec : Codec} {peer : Peer σ} {state : σ} {backlog : List Bytes} {task : InputTask}
  {result : Except WorkerError OutputTask}
  {earlier later : List (InputTask × Except WorkerError OutputTask)}

theorem replyOf_ok (codec : Codec) (payload : Bytes) :
    isLate (replyOf codec (.ok payload)) = false ∧ isRefused (replyOf codec (.ok payload)) = false := by
  simp only [replyOf]
  cases (codec.decode payload : Except CodecError OutputTask) <;> exact ⟨rfl, rfl⟩

/-- A call takes as many replies after the first as earlier calls have taken. -/
theorem InOrder.pairs
    (inOrder : InOrder codec peer state backlog (earlier ++ (task, result) :: later))
    (inTime : isLate result = false) (sent : isRefused result = false) :
    ∃ place payload, place + lateCalls earlier = (requests earlier).length ∧
      (backlog ++ answers codec peer state (requests earlier ++ [task]))[place]? = some payload ∧
      result = replyOf codec (.ok payload) := by
  induction earlier generalizing state backlog with
  | nil =>
    cases inOrder with
    | refused => simp [isRefused] at sent
    | late => simp [isLate] at inTime
    | @heard _ _ others oldest _ _ queue _ =>
      refine ⟨0, oldest, rfl, ?_, rfl⟩
      simp only [requests, List.filter_nil, List.map_nil, List.nil_append, answers, queue]
      rfl
  | cons first rest ih =>
    cases inOrder with
    | refused inOrder =>
      obtain ⟨place, payload, total, found, same⟩ := ih inOrder
      refine ⟨place, payload, ?_, ?_, same⟩
      · simpa [lateCalls, requests, isLate, isRefused] using total
      · simpa [requests, isRefused] using found
    | late inOrder =>
      obtain ⟨place, payload, total, found, same⟩ := ih inOrder
      refine ⟨place, payload, ?_, ?_, same⟩
      · simp only [lateCalls, requests, isLate, isRefused, List.countP_cons, List.filter_cons,
          Bool.not_false, if_true, List.map_cons, List.length_cons] at total ⊢
        omega
      · simpa [requests, isRefused, answers] using found
    | @heard _ _ others oldest first _ queue inOrder =>
      obtain ⟨place, payload, total, found, same⟩ := ih inOrder
      obtain ⟨inTime, sent⟩ := replyOf_ok codec oldest
      refine ⟨place + 1, payload, ?_, ?_, same⟩
      · simp only [lateCalls, requests, inTime, sent, List.countP_cons, List.filter_cons,
          Bool.not_false, if_true, List.map_cons, List.length_cons, Bool.false_eq_true,
          if_false] at total ⊢
        omega
      · simp only [requests, sent, List.filter_cons, Bool.not_false, if_true, List.map_cons,
          List.cons_append, answers] at found ⊢
        rw [← List.singleton_append, ← List.append_assoc, queue]
        exact found

end Pairing

/-- A peer that tells its first reply from the others. -/
def tellingPeer : Peer Nat := fun count _ =>
  (Codec.encode {} (OutputTask.done (if count = 0 then "first" else "second")), count + 1)

theorem fits_tellingPeer (state : Nat) (request : Bytes) :
    (tellingPeer state request).1.length ≤ effectiveLimit Frame.defaultLimit := by
  simp only [tellingPeer]
  split <;> cbv

def newDispatcher : Dispatcher Unit := { channel := .between { events := [] } {}, codec := {} }

/-- The first call runs out of time, and the second one finds both replies. -/
theorem conversation_late :
    Conversation tellingPeer newDispatcher 0 []
      [({ message := "one" }, .error (.receive .timeout)),
        ({ message := "two" }, .ok (.done "first"))] := by
  let first : Bytes := wire (Codec.encode {} (OutputTask.done "first"))
  let second : Bytes := wire (Codec.encode {} (OutputTask.done "second"))
  let late : List (SourceEvent Unit) := [.fault ⟨.timedOut, none⟩, .data first none]
  let both : List (SourceEvent Unit) := [.data (first ++ second) none]
  let one : InputTask := { message := "one" }
  let two : InputTask := { message := "two" }
  have timedOut : ((newDispatcher.hearing late).dispatch one).1 = .error (.receive .timeout) := by cbv
  have stale : ((((newDispatcher.hearing late).dispatch one).2.hearing both).dispatch two).1 =
      .ok (.done "first") := by cbv
  have held : ((newDispatcher.hearing late).dispatch one).2.channel.reader.source.events =
      [.data first none] := by cbv
  have kept : ((((newDispatcher.hearing late).dispatch one).2.hearing both).dispatch
      two).2.channel.reader.source.events = [.data second none] := by cbv
  have firstSent : (newDispatcher.send one).1 = .ok () := by cbv
  have secondSent : (((newDispatcher.hearing late).dispatch one).2.send two).1 = .ok () := by cbv
  have firstReply (request : Bytes) : wire (tellingPeer 0 request).1 = first := rfl
  have secondReply (request : Bytes) : wire (tellingPeer 1 request).1 = second := rfl
  -- From here on the bytes of the replies do not matter, and are not to be computed again.
  clear_value first second
  have piece (bytes : Bytes) : Source.Brings [(.data bytes none : SourceEvent Unit)] bytes := by
    have brings := @Source.brings_pieces Unit [bytes]
    rwa [List.flatten_singleton] at brings
  rw [← timedOut]
  refine @Conversation.sent Unit Nat tellingPeer _ 0 [] first one late _ firstSent ?_
    (held ▸ piece first) ?_
  · rw [firstReply]
    exact .delay rfl (piece first)
  · rw [← stale]
    refine @Conversation.sent Unit Nat tellingPeer _ 1 first second two both [] secondSent ?_
      (kept ▸ piece second) (.done ..)
    rw [secondReply]
    exact piece (first ++ second)

/-- A call that gets a reply gets the answer to the request that was sent as many requests before
its own as earlier calls ran out of time. These are the requests that are in flight beside its own,
and where there are none the reply is the answer to its own request. -/
theorem dispatch_answers {dispatcher : Dispatcher ε} {peer : Peer σ} {state : σ}
    {task : InputTask} {result : Except WorkerError OutputTask}
    {earlier later : List (InputTask × Except WorkerError OutputTask)}
    (conversation : Conversation peer dispatcher state [] (earlier ++ (task, result) :: later))
    (fresh : dispatcher.channel.reader.buffer = [])
    (fits : ∀ state request,
      (peer state request).1.length ≤ effectiveLimit dispatcher.channel.reader.limit)
    (inTime : isLate result = false) (sent : isRefused result = false) :
    ∃ place payload, place + lateCalls earlier = (requests earlier).length ∧
      (answers dispatcher.codec peer state (requests earlier ++ [task]))[place]? = some payload ∧
      result = replyOf dispatcher.codec (.ok payload) := by
  have owes : Owes dispatcher.codec dispatcher.channel.reader.limit dispatcher [] [] := by
    refine ⟨rfl, rfl, ?_, ?_, by simp⟩
    · rw [fresh]
      exact Frame.Reader.withinFrame_nil
    · rw [fresh]
      rfl
  exact (inOrder_of_conversation conversation owes fits).pairs inTime sent

/-- The second call gets the answer to the first request. -/
theorem dispatch_answers_late :
    Conversation tellingPeer newDispatcher 0 []
      ([({ message := "one" }, .error (.receive .timeout))] ++
        ({ message := "two" }, .ok (.done "first")) :: []) ∧
      (∀ state request, (tellingPeer state request).1.length ≤ effectiveLimit Frame.defaultLimit) ∧
      ∃ place payload, place + 1 = 1 ∧
        (answers {} tellingPeer 0 [{ message := "one" }, { message := "two" }])[place]? =
          some payload ∧ (.ok (.done "first") : Except WorkerError OutputTask) = replyOf {} (.ok payload) :=
  ⟨conversation_late, fits_tellingPeer,
    @dispatch_answers Unit Nat newDispatcher tellingPeer 0 { message := "two" } _
      [({ message := "one" }, .error (.receive .timeout))] [] conversation_late rfl
      fits_tellingPeer rfl rfl⟩

/-- It is not so that every reply that a call returns is the answer to the request of this call. -/
theorem dispatch_mispairs :
    ¬ ∀ (peer : Peer Nat) (dispatcher : Dispatcher Unit) (state : Nat)
        (earlier later : List (InputTask × Except WorkerError OutputTask)) (task : InputTask)
        (reply : OutputTask),
      Conversation peer dispatcher state [] (earlier ++ (task, .ok reply) :: later) →
      dispatcher.channel.reader.buffer = [] →
      (∀ state request,
        (peer state request).1.length ≤ effectiveLimit dispatcher.channel.reader.limit) →
      ∃ payload,
        (answers dispatcher.codec peer state (requests earlier ++ [task]))[(requests earlier).length]? =
          some payload ∧ replyOf dispatcher.codec (.ok payload) = .ok reply := by
  intro paired
  obtain ⟨payload, found, read⟩ := paired tellingPeer newDispatcher 0
    [({ message := "one" }, .error (.receive .timeout))] [] { message := "two" } (.done "first")
    conversation_late rfl fits_tellingPeer
  have own : payload = Codec.encode {} (OutputTask.done "second") := (Option.some.inj found).symm
  have answer : replyOf {} (.ok (Codec.encode {} (OutputTask.done "second"))) =
      .ok (.done "second") := by cbv
  rw [own, show newDispatcher.codec = {} from rfl, answer] at read
  simp [OutputTask.done] at read

end FramedTasks.Dispatcher
