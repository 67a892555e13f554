import FramedTasks.Proofs.CommandLine.Conversation
import FramedTasks.Proofs.CommandLine.HeaderArgument
import FramedTasks.Proofs.Record.Lengths

/-! # What a peer receives

Whatever a peer does, the bytes that it has received, holds and has still to come are those that the
command has sent, until one of the two goes away (`Conversation.Carries`). So its requests are the
first tasks (`requests_run`), and it reads them as they were made, whatever its own key convention is.
Every task has the headers that the arguments mean (`headers_come_through`).
-/

namespace FramedTasks

/-- What an end writes does not change what is on the way to it. -/
theorem Connection.inflow_write (side : Side) (bytes : Bytes) (connection : Connection) :
    (connection.write side bytes).2.inflow side = connection.inflow side := by
  rw [write]
  split
  · rfl
  split
  · rfl
  · cases side <;> rfl

namespace CommandLine

open FramedTasks.Frame (Duplex wire wires wireLimit Reader.WithinFrame Reader.payloads)

/-- A record that fits a frame comes through, whatever the key conventions of the two sides are. -/
theorem decode_encode_of_fits {α : Type} [Record α] (readable : Record.Readable α)
    {writing reading : Codec} (same : reading.format = writing.format) (record : α)
    (fits : (writing.encode record).length ≤ wireLimit) :
    reading.decode (writing.encode record) = .ok record := by
  obtain ⟨format, keys⟩ := writing
  obtain ⟨_, keys'⟩ := reading
  obtain rfl := same
  exact Codec.decode_encode_of_length readable _ keys keys' record (Nat.lt_succ_of_le fits)

namespace Dispatch

variable {duplex duplex' : Duplex} {script script' : Script} {sent : List Bytes} {codec : Codec}
  {task : InputTask} {form : ReportForm}

/-- What the peer has received, holds and has still to come is what the command has sent, until one
of the two goes away. -/
structure Carries (duplex : Duplex) (script : Script) (sent : List Bytes) : Prop where
  within : Reader.WithinFrame duplex.right.buffer
  ahead : wires script.requests ++ duplex.due .right <+: wires sent
  whole : duplex.connection.toRight.shut = false →
    wires script.requests ++ duplex.due .right = wires sent
  sentFits : ∀ payload ∈ sent, payload.length ≤ wireLimit
  receivedFits : ∀ payload ∈ script.requests, payload.length ≤ wireLimit

namespace Carries

theorem start (responses : List Response) : Carries {} { responses } [] where
  within := Frame.Reader.withinFrame_nil
  ahead := List.prefix_rfl
  whole _ := rfl
  sentFits := List.forall_mem_nil _
  receivedFits := List.forall_mem_nil _

/-- What the peer has received are the first of the payloads that were sent. -/
theorem requests_prefix (carries : Carries duplex script sent) : script.requests <+: sent := by
  apply Frame.prefix_of_wires_prefix carries.receivedFits carries.sentFits
  exact (List.prefix_append ..).trans carries.ahead

/-- Nothing else matters than what goes to the peer. -/
theorem congr (carries : Carries duplex script sent) (received : script'.received = script.received)
    (station : duplex'.right = duplex.right)
    (inflow : duplex'.connection.toRight = duplex.connection.toRight) :
    Carries duplex' script' sent := by
  have requests : script'.requests = script.requests := by
    rw [Script.requests, received, Script.requests]
  have due : duplex'.due .right = duplex.due .right := by
    simp only [Duplex.due, Duplex.station, Connection.inflow, station, inflow]
  refine ⟨station ▸ carries.within, ?_, ?_, carries.sentFits, requests ▸ carries.receivedFits⟩
  · rw [requests, due]
    exact carries.ahead
  · rw [requests, due, inflow]
    exact carries.whole

/-- An end that goes away takes along what is on the way to it. -/
theorem close (carries : Carries duplex script sent) (side : Side) :
    Carries { duplex with connection := duplex.connection.close side } script sent := by
  refine ⟨carries.within, ?_, ?_, carries.sentFits, carries.receivedFits⟩
  · refine List.IsPrefix.trans ?_ carries.ahead
    cases side with
    | left => exact List.prefix_rfl
    | right =>
      rw [List.prefix_append_right_inj]
      change duplex.right.buffer ++ [] <+: duplex.right.buffer ++ _
      rw [List.prefix_append_right_inj]
      exact List.nil_prefix
  · intro isOpen
    cases side <;> cases isOpen

theorem receive (carries : Carries duplex script sent)
    (received : script'.requests = script.requests ++
      Reader.payloads [(duplex.receive .right).1]) :
    Carries (duplex.receive .right).2 script' sent := by
  obtain ⟨within, due, fits⟩ := @Duplex.due_receive .right duplex carries.within
  have moved : wires script'.requests ++ (duplex.receive .right).2.due .right =
      wires script.requests ++ duplex.due .right := by
    rw [received, Frame.wires_append, List.append_assoc, ← due]
  have shut : (duplex.receive .right).2.connection.toRight.shut =
      duplex.connection.toRight.shut := Duplex.shut_receive .right duplex
  refine ⟨within, moved ▸ carries.ahead, ?_, carries.sentFits, ?_⟩
  · rw [moved, shut]
    exact carries.whole
  · rw [received]
    exact List.forall_mem_append.mpr ⟨carries.receivedFits, fits⟩

theorem respond (carries : Carries duplex script sent) (response : Response) :
    Carries (Script.respond duplex script response).1 (Script.respond duplex script response).2
      sent := by
  cases response with
  | sends bytes => exact carries.congr rfl rfl (Connection.inflow_write .right bytes _)
  | closes => exact carries.close .right
  | staysQuiet => exact carries.congr rfl rfl rfl

theorem turn (carries : Carries duplex script sent) :
    Carries (Script.turn duplex script).1 (Script.turn duplex script).2 sent := by
  unfold Script.turn
  split
  · exact carries
  next response responses _ =>
  have received (script' : Script) (same : script'.requests = script.requests ++
      Reader.payloads [(duplex.receive .right).1]) :
      Carries (duplex.receive .right).2 script' sent := carries.receive same
  split
  · next outcome =>
    rw [outcome] at received
    exact received script (by simp)
  · next outcome =>
    rw [outcome] at received
    exact received _ (by simp [Script.requests, Except.toOption])
  · next outcome =>
    rw [outcome] at received
    exact (received _ (by simp [Script.requests, Except.toOption])).respond response

/-- A payload goes behind what is on the way to a peer that is still there. -/
theorem send (carries : Carries duplex script sent) {payload : Bytes}
    (fits : payload.length ≤ wireLimit) (isOpen : duplex.connection.toRight.shut = false) :
    Carries { duplex with
      connection := duplex.connection.update .right fun inflow =>
        { inflow with bytes := inflow.bytes ++ wire payload } } script (sent ++ [payload]) := by
  have moved : wires script.requests ++
      (duplex.right.buffer ++ (duplex.connection.toRight.bytes ++ wire payload)) =
      wires (sent ++ [payload]) := by
    rw [Frame.wires_append, ← carries.whole isOpen]
    simp [Duplex.due, Duplex.station, Connection.inflow]
  refine ⟨carries.within, ?_, fun _ => moved, ?_, carries.receivedFits⟩
  · exact moved ▸ List.prefix_rfl
  · exact List.forall_mem_append.mpr ⟨carries.sentFits, List.forall_mem_singleton.mpr fits⟩

variable {conversation : Conversation scripted}

/-- A task is sent as a whole, or it is not sent and the command fails. -/
theorem dispatch (carries : Carries conversation.duplex conversation.other sent) (codec : Codec)
    (task : InputTask) :
    let outcome := conversation.dispatch codec task
    (∃ error, outcome.1 = .error error ∧ Carries outcome.2.duplex outcome.2.other sent) ∨
      Carries outcome.2.duplex outcome.2.other (sent ++ [codec.encode task]) := by
  obtain ⟨error, failed⟩ | ⟨fits, isOpen, outcome⟩ :=
    Duplex.send_cases .left (codec.encode task) conversation.duplex
  · left
    simp only [Conversation.dispatch, failed]
    exact ⟨_, rfl, carries⟩
  · right
    simp only [Conversation.dispatch, outcome]
    have turned := (carries.send fits isOpen).turn
    obtain ⟨station, inflow⟩ := Duplex.receive_other .left (Script.turn _ _).1
    exact turned.congr rfl station inflow

/-- The tasks that are sent are the first ones. -/
theorem dispatchAll (carries : Carries conversation.duplex conversation.other sent) (codec : Codec)
    (form : ReportForm) (tasks : List InputTask) :
    let last := (conversation.dispatchAll codec form tasks).2
    ∃ more, more <+: tasks.map codec.encode ∧ Carries last.duplex last.other (sent ++ more) := by
  induction tasks generalizing conversation sent with
  | nil => exact ⟨[], List.prefix_rfl, by rwa [List.append_nil]⟩
  | cons task rest ih =>
    have turn := carries.dispatch codec task
    rcases outcome : conversation.dispatch codec task with ⟨result, next⟩
    rw [outcome] at turn
    cases result with
    | error error =>
      simp only [Conversation.dispatchAll, outcome]
      rcases turn with ⟨_, -, unsent⟩ | after
      · exact ⟨[], List.nil_prefix, by rwa [List.append_nil]⟩
      · exact ⟨[codec.encode task], List.prefix_append [codec.encode task] _, after⟩
    | ok reply =>
      simp only [Conversation.dispatchAll, outcome]
      rcases turn with ⟨_, failed, -⟩ | after
      · cases failed
      · let printed := next.printed ++ Report.reply form task reply
        obtain ⟨more, first, carries⟩ := @ih _ { next with printed } after
        refine ⟨codec.encode task :: more, List.cons_prefix_cons.mpr ⟨rfl, first⟩, ?_⟩
        rwa [List.append_assoc] at carries

theorem finish (carries : Carries conversation.duplex conversation.other sent) :
    Carries conversation.finish.duplex conversation.finish.other sent :=
  (carries.close .left).turn

end Carries

/-- Whatever the peer does, it receives the first tasks, one after another. -/
theorem requests_run (options : DispatchOptions) (ready : Ready) (form : ReportForm)
    (responses : List Response) :
    let requests := (run options ready form responses).2.requests
    requests <+: ready.tasks.map options.codec.encode ∧
      ∀ payload ∈ requests, payload.length ≤ wireLimit := by
  obtain ⟨sent, first, carries⟩ :=
    @Carries.dispatchAll _ { other := { responses } } (Carries.start responses) options.codec form
      ready.tasks
  have finished := carries.finish
  exact ⟨finished.requests_prefix.trans first, finished.receivedFits⟩

open HeaderArgument (Means Complaint FirstComplaint Collects)

theorem headers_of_mem_tasks {options : DispatchOptions} {id : String} {headers : Option Headers}
    {task : InputTask} (member : task ∈ tasks options id headers) : task.headers = headers := by
  obtain ⟨index, inside, rfl⟩ := List.mem_mapIdx.mp member
  rfl

/-- The requests are read as the tasks that they were made of. -/
theorem decode_requests (options : DispatchOptions) (ready : Ready) (form : ReportForm)
    (responses : List Response) :
    let requests := (run options ready form responses).2.requests
    ∃ tasks, tasks <+: ready.tasks ∧
      ∀ keys, requests.map (Codec.decode ⟨options.codec.format, keys⟩) = tasks.map .ok := by
  intro requests
  obtain ⟨first, fits⟩ : requests <+: ready.tasks.map options.codec.encode ∧
      ∀ payload ∈ requests, payload.length ≤ wireLimit := requests_run options ready form responses
  obtain ⟨tasks, isFirst, whole⟩ := List.prefix_map_iff.mp first
  refine ⟨tasks, isFirst, fun keys => ?_⟩
  rw [whole, List.map_map]
  apply List.map_congr_left
  intro task member
  exact decode_encode_of_fits InputTask.readable rfl task
    (fits _ (whole ▸ List.mem_map_of_mem member))

/-- No arguments make no headers. The first argument that means no header is reported; it has no
equals sign, or no key before it. Otherwise the headers are those of the last argument under each
key. Every task has these headers, and a worker that decodes its requests finds them there. -/
theorem headers_come_through (options : DispatchOptions) (id : String) :
    (HeaderArgument.parse options.headers = .ok none ↔ options.headers = []) ∧
      (∀ failure, HeaderArgument.parse options.headers = .error failure ↔
        ∃ message, FirstComplaint message options.headers ∧ failure = misuse message) ∧
      ((∃ message, FirstComplaint message options.headers) ↔
        ∃ entry ∈ options.headers, ∃ message, Complaint entry message) ∧
      (∀ headers, HeaderArgument.parse options.headers = .ok (some headers) ↔
        options.headers ≠ [] ∧ Collects options.headers headers) ∧
      ∀ ready, prepare options id = .ok ready →
        ∃ headers, HeaderArgument.parse options.headers = .ok headers ∧
          ready.tasks.length = options.messages.length ∧
          (∀ task ∈ ready.tasks, task.headers = headers ∧
            ((options.codec.encode task).length ≤ wireLimit → ∀ keys,
              Codec.decode ⟨options.codec.format, keys⟩ (options.codec.encode task) = .ok task)) ∧
          ∀ form responses,
            let requests := (run options ready form responses).2.requests
            ∃ tasks, tasks <+: ready.tasks ∧
              ∀ keys, requests.map (Codec.decode ⟨options.codec.format, keys⟩) = tasks.map .ok := by
  refine ⟨HeaderArgument.parse_eq_none, fun _ => HeaderArgument.parse_eq_error,
    HeaderArgument.exists_firstComplaint_iff, fun _ => HeaderArgument.parse_eq_some, ?_⟩
  intro ready prepared
  obtain ⟨headers, parsed, isTasks⟩ := prepare_eq_ok prepared
  refine ⟨headers, parsed, ?_, ?_, decode_requests options ready⟩
  · rw [isTasks, length_tasks]
  · intro task member
    refine ⟨headers_of_mem_tasks (isTasks ▸ member), fun fits keys => ?_⟩
    exact decode_encode_of_fits InputTask.readable rfl task fits

/-- A key twice, with white space around it once, and an empty value; a value keeps its equals sign
and its white space. -/
private def spaced : DispatchOptions :=
  { pipe := "./s"
    lead := PipeName.defaultLead
    messages := ["m"]
    correlationId := some "7"
    queue := none
    headers := ["\tk =a", "n=", "k=b=c "]
    timeout := "30s"
    codec := { format := .json } }

private def spacedHeaders : Headers := .ofList [("k", "b=c "), ("n", "")]

private def spacedTask : InputTask := ⟨"m", some "7-0", none, some spacedHeaders⟩

private theorem parse_spaced : HeaderArgument.parse spaced.headers = .ok (some spacedHeaders) := rfl

private theorem prepare_spaced :
    prepare spaced "" = .ok { socket := "./s", timeout := ⟨30000⟩, tasks := [spacedTask] } := rfl

/-- The headers of one task, under both key conventions of the worker. -/
theorem headers_come_through_spaced :
    prepare spaced "" = .ok { socket := "./s", timeout := ⟨30000⟩, tasks := [spacedTask] } ∧
      Collects spaced.headers spacedHeaders ∧ spacedTask.headers = some spacedHeaders ∧
      ∀ keys, Codec.decode ⟨.json, keys⟩ (spaced.codec.encode spacedTask) = .ok spacedTask := by
  obtain ⟨-, -, -, meant, through⟩ := headers_come_through spaced ""
  obtain ⟨headers, parsed, -, made, -⟩ := through _ prepare_spaced
  obtain rfl : some spacedHeaders = headers := Except.ok.inj (parse_spaced.symm.trans parsed)
  obtain ⟨held, read⟩ := made spacedTask (List.mem_singleton_self _)
  have short : (spaced.codec.encode spacedTask).length ≤ 64 := by decide
  exact ⟨prepare_spaced, ((meant spacedHeaders).mp parse_spaced).2, held,
    read (Nat.le_trans short (by decide))⟩

end Dispatch

end CommandLine

end FramedTasks
