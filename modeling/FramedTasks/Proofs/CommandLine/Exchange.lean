import Mathlib
import FramedTasks.CommandLine.Program
import FramedTasks.Proofs.CommandLine.Report
import FramedTasks.Proofs.CommandLine.Requests
import FramedTasks.Proofs.CommandLine.Session
import FramedTasks.Proofs.Socket.Ownership

/-! # A host and a worker

What the host sends is what the worker receives, and the other way round. So where the two are
compatible, the worker's session and the host's conversation are about the same tasks and the same
replies (`Compatible.converse_eq`). Against any other peer that answers one by one, the host reports
the replies to its first tasks, and fails if these are not all of its tasks (`Dispatch.run_reports`).
Of the arguments, only what a command makes of them when it prepares itself is used.
-/

namespace FramedTasks.CommandLine

open FramedTasks.Frame (wire wires effectiveLimit defaultLimit)

namespace Failure

theorem codeOfFault_ne_success (kind : FaultKind) : codeOfFault kind ≠ .success := by
  cases kind <;> exact ExitCode.noConfusion

theorem ofSocketError_ne_success (context : String) (error : SocketError) :
    (ofSocketError context error).code ≠ .success := by
  cases error with
  | bind _ fault | connect _ fault | accept fault | io fault => exact codeOfFault_ne_success _
  | _ => exact ExitCode.noConfusion

theorem ofFrameError_ne_success (context : String) (error : FrameError) :
    (ofFrameError context error).code ≠ .success := by
  cases error with
  | io fault => exact codeOfFault_ne_success _
  | _ => exact ExitCode.noConfusion

/-- No failure has the code of a success. -/
theorem ofWorkerError_ne_success (context : String) (error : WorkerError) :
    (ofWorkerError context error).code ≠ .success := by
  cases error with
  | socket error => exact ofSocketError_ne_success context error
  | receive error | send error | setup error => exact ofFrameError_ne_success context error
  | _ => exact ExitCode.noConfusion

end Failure

theorem ExitCode.number_eq_zero_iff {code : ExitCode} : code.number = 0 ↔ code = .success := by
  cases code <;> decide

theorem Work.prepare_eq_ok {options : WorkOptions} {input : Descriptor} {ready : Ready}
    (prepared : prepare options input = .ok ready) :
    ready.config.codec = options.codec ∧ ready.config.limit = defaultLimit ∧
      ready.config.sentinel = options.sentinel := by
  simp only [prepare, bind, Except.bind] at prepared
  split at prepared
  · cases prepared
  split at prepared
  · cases prepared
  split at prepared
  · cases prepared
  obtain rfl := Except.ok.inj prepared
  exact ⟨rfl, rfl, rfl⟩

def Work.payload (options : WorkOptions) (task : InputTask) : Bytes :=
  options.codec.encode (echo options.replyQueue task)

/-- A host and a worker that have a wire format in common, and frames that hold every task and every
reply. The worker is not asked to shut down. -/
structure Compatible (options : DispatchOptions) (host : Dispatch.Ready) (workOptions : WorkOptions)
    (worker : Work.Ready) : Prop where
  format : workOptions.codec.format = options.codec.format
  codec : worker.config.codec = workOptions.codec
  limit : worker.config.limit = defaultLimit
  quiet : worker.Quiet
  requests : ∀ task ∈ host.tasks, (options.codec.encode task).length ≤ defaultLimit
  replies : ∀ task ∈ host.tasks, (Work.payload workOptions task).length ≤ defaultLimit

namespace Compatible

variable {options : DispatchOptions} {host : Dispatch.Ready} {workOptions : WorkOptions}
  {worker : Work.Ready} (compatible : Compatible options host workOptions worker)

include compatible

/-- The worker replies to every task of the host. -/
theorem serves {task : InputTask} (member : task ∈ host.tasks) :
    Dispatch.Conversation.Serves (Program.attending workOptions.replyQueue) options.codec
      (fun done (other : Work.Attendant) =>
        other.result? = none ∧ Work.Attendant.InOrder worker.config done other.worker)
      (Work.payload workOptions) (Work.echo workOptions.replyQueue) task where
  request := compatible.requests task member
  reply := compatible.replies task member
  reads := decode_encode_of_fits OutputTask.readable compatible.format.symm _
    (Nat.le_trans (compatible.replies task member) (by decide))
  turn done other inOrder := by
    have limit : effectiveLimit worker.config.limit = defaultLimit := by
      rw [compatible.limit]
      rfl
    have request := compatible.requests task member
    have reads : worker.config.codec.decode (options.codec.encode task) = .ok task := by
      rw [compatible.codec]
      exact decode_encode_of_fits InputTask.readable compatible.format _
        (Nat.le_trans request (by decide))
    have reply := compatible.replies task member
    rw [Work.payload, ← compatible.codec, ← limit] at reply
    rw [← limit] at request
    obtain ⟨later, turn, after⟩ :=
      Work.Attendant.turn_carrying inOrder.1 inOrder.2 request reads reply
    rw [compatible.codec] at turn
    exact ⟨{ worker := later }, turn, rfl, after⟩

/-- The worker replies to the tasks of the host one by one, and ends when the host goes away. -/
theorem converse_eq (form workForm : ReportForm) :
    Program.converse options host form workOptions worker workForm =
      (.success (String.join (host.tasks.map fun task =>
          Report.reply form task (Work.echo workOptions.replyQueue task))),
        .success (Report.summary workForm worker.socket .peerClosed host.tasks.length)) := by
  obtain ⟨other, ⟨goesOn, inOrder⟩, outcome, last⟩ :=
    Dispatch.Conversation.converse_of_serves (fun task member => compatible.serves member) form
      (Work.Attendant.inOrder_start compatible.quiet)
  have session := @Work.Attendant.session_of_gone _ workOptions.replyQueue _ _ goesOn inOrder
  simp only [Program.converse, outcome, last, session]
  rfl

end Compatible

/-- The host reports the replies to its first tasks, and fails unless it has reported all of them. -/
theorem Dispatch.run_reports (options : DispatchOptions) (ready : Ready) (form : ReportForm)
    {responses : List Response} (single : Single responses) :
    let run := run options ready form responses
    ∃ replies, Answers options.codec ready.tasks responses replies ∧
      run.1.printed = String.join (List.zipWith (Report.reply form) ready.tasks replies) ∧
      (ready.tasks.take replies.length).map options.codec.encode <+: run.2.requests ∧
      (run.1.number = 0 ↔ replies.length = ready.tasks.length) := by
  let start : Conversation scripted := { other := { responses } }
  obtain ⟨replies, reported⟩ := @Conversation.reported_dispatchAll start rfl single options.codec
    form ready.tasks
  simp only [run, converse]
  rcases done : start.dispatchAll options.codec form ready.tasks with ⟨error, last⟩
  rw [done] at reported
  obtain ⟨answers, printed, received, complete⟩ := reported
  refine ⟨replies, answers, ?_, ?_, ?_⟩
  · rw [String.empty_append] at printed
    cases error <;> exact printed
  · have requests := (received.trans (Conversation.received_finish_prefix last)).filterMap
      (·.toOption)
    rwa [List.nil_append, Conversation.toOption_received] at requests
  · rw [← complete]
    cases error with
    | none => simp [Outcome.success, ExitCode.number]
    | some error =>
      simp [Outcome.failure, ExitCode.number_eq_zero_iff, Failure.ofWorkerError_ne_success]

namespace Program

/-- A worker that makes for the socket of a host is connected to it. -/
theorem exchange_eq {setting : Setting} {directory : Directory} (sound : directory.Sound) {hostArguments workArguments : List String}
    {input : Descriptor} {options : DispatchOptions} {ready : Dispatch.Ready} {form : ReportForm}
    {workOptions : WorkOptions} {ready' : Work.Ready} {workForm : ReportForm} {hosting : Hosting}
    (dispatches : taskOf setting hostArguments = .dispatch options form)
    (works : taskOf setting workArguments = .work workOptions workForm)
    (prepared : Dispatch.prepare options setting.defaultId = .ok ready)
    (prepared' : Work.prepare workOptions input = .ok ready')
    (listens : Dispatch.listen ready { directory } = .ok hosting)
    (same : ready'.socket = ready.socket) :
    exchange setting hostArguments workArguments input directory =
      let outcomes := converse options ready form workOptions ready' workForm
      .finished outcomes.1 outcomes.2 := by
  have hosts : host setting options { directory } = .ok (ready, hosting) := by
    simp only [host, bind, Except.bind, prepared, listens, pure, Except.pure]
  have connects : ∃ connected, worker workOptions input hosting = .ok (ready', connected) := by
    unfold Dispatch.listen at listens
    split at listens
    · next bound =>
      obtain rfl := Except.ok.inj listens
      obtain ⟨connected, connects⟩ :=
        Hosting.connect_of_bind (Hosting.Sound.start sound) rfl bound Work.endName
      refine ⟨connected, ?_⟩
      simp only [worker, bind, Except.bind, prepared', Work.connect, same, connects, pure,
        Except.pure]
    · cases listens
  obtain ⟨connected, connects⟩ := connects
  simp only [exchange, dispatches, works, hosts, connects]

/-- The lines of a host on the echoes of its messages. -/
def echoLines (options : DispatchOptions) (id : String) (headers : Option Headers)
    (queue : Option String) : List String :=
  options.messages.mapIdx fun index message =>
    (Report.echoed s!"{id}-{index}" message headers queue).compact

theorem replies_of_echoes (options : DispatchOptions) (id : String) (headers : Option Headers)
    (queue : Option String) :
    ((Dispatch.tasks options id headers).map fun task =>
        Report.reply .json task (Work.echo queue task)) =
      (echoLines options id headers queue).map (· ++ "\n") := by
  simp only [Dispatch.tasks, echoLines, List.mapIdx_eq_zipIdx_map, List.map_map]
  exact List.map_congr_left fun numbered _ => Report.reply_echo queue rfl

/-- A host and a worker that echoes its tasks agree on them, and both succeed. -/
structure Agrees (setting : Setting) (options : DispatchOptions) (ready : Dispatch.Ready)
    (workOptions : WorkOptions) (worker : Work.Ready) (workForm : ReportForm) (input : Descriptor)
    (lines : List String) : Prop where
  one_line_each : ∀ line ∈ lines, '\n' ∉ line.toList
  /-- Once they are connected, the host reports each echo and the worker how many there were. -/
  converse : converse options ready .json workOptions worker workForm =
    ({ number := 0, printed := String.join (lines.map (· ++ "\n")) },
      { number := 0
        printed := Report.summary workForm worker.socket .peerClosed options.messages.length })
  /-- They are connected if both make for the same socket and the host can bind it. -/
  exchange : ∀ hostArguments workArguments directory hosting, directory.Sound →
    taskOf setting hostArguments = .dispatch options .json →
    taskOf setting workArguments = .work workOptions workForm →
    Dispatch.listen ready { directory } = .ok hosting → worker.socket = ready.socket →
    exchange setting hostArguments workArguments input directory =
      .finished { number := 0, printed := String.join (lines.map (· ++ "\n")) }
        { number := 0
          printed := Report.summary workForm worker.socket .peerClosed options.messages.length }

/-- What a host reports of a peer that answers one by one. -/
structure Reports (options : DispatchOptions) (ready : Dispatch.Ready) (form : ReportForm)
    (responses : List Dispatch.Response) (run : Outcome × Dispatch.Conversation Dispatch.scripted)
    (replies : List OutputTask) : Prop where
  /-- The replies are those to the first tasks. -/
  answers : Dispatch.Answers options.codec ready.tasks responses replies
  printed : run.1.printed = String.join (List.zipWith (Report.reply form) ready.tasks replies)
  one_line_each : form = .json → ∀ report ∈ List.zipWith (Report.reply form) ready.tasks replies,
    ∃ line, report = line ++ "\n" ∧ '\n' ∉ line.toList
  requests : (ready.tasks.take replies.length).map options.codec.encode <+: run.2.requests
  at_most : replies.length ≤ options.messages.length
  succeeds : run.1.number = 0 ↔ replies.length = options.messages.length

/-- A host that has read its arguments sends every message as a task of its own. Any worker that
works for it with the same wire format echoes all of them: the host reports each echo on a line, the
worker reports how many there were, and both succeed. With a peer that answers one by one, the host
reports the replies to its first tasks, and succeeds only if these are all of its tasks. -/
theorem commands_agree {setting : Setting} {options : DispatchOptions} {ready : Dispatch.Ready}
    (prepared : Dispatch.prepare options setting.defaultId = .ok ready) :
    let id := options.correlationId.getD setting.defaultId
    ∃ headers, HeaderArgument.parse options.headers = .ok headers ∧
      (headers = none ↔ options.headers = []) ∧
      ready.tasks = Dispatch.tasks options id headers ∧
      (∀ workOptions workForm input worker, Work.prepare workOptions input = .ok worker →
        workOptions.codec.format = options.codec.format →
        (∀ text, .token text ∈ worker.input.polls →
          Listener.isSentinel workOptions.sentinel text = false) →
        (∀ task ∈ ready.tasks, (options.codec.encode task).length ≤ defaultLimit ∧
          (workOptions.codec.encode (Work.echo workOptions.replyQueue task)).length ≤
            defaultLimit) →
        Agrees setting options ready workOptions worker workForm input
          (echoLines options id headers workOptions.replyQueue)) ∧
      ∀ form responses, Dispatch.Single responses →
        ∃ replies, Reports options ready form responses (Dispatch.run options ready form responses)
          replies := by
  intro id
  obtain ⟨headers, parsed, isTasks⟩ := Dispatch.prepare_eq_ok prepared
  refine ⟨headers, parsed, HeaderArgument.parse_eq_none_iff parsed, isTasks, ?_, ?_⟩
  · intro workOptions workForm input worker prepared' format quiet fits
    obtain ⟨codec, limit, sentinel⟩ := Work.prepare_eq_ok prepared'
    have compatible : Compatible options ready workOptions worker :=
      ⟨format, codec, limit, by rwa [Work.Ready.Quiet, sentinel], fun task member =>
        (fits task member).1, fun task member => (fits task member).2⟩
    have agree := compatible.converse_eq .json workForm
    rw [isTasks, replies_of_echoes, Dispatch.length_tasks] at agree
    refine ⟨fun line member => ?_, agree, ?_⟩
    · obtain ⟨index, inside, rfl⟩ := List.mem_mapIdx.mp member
      exact Report.newline_not_mem_echoed _ options.messages[index] _ _
    · intro hostArguments workArguments directory hosting sound dispatches works listens same
      rw [exchange_eq sound dispatches works prepared prepared' listens same, agree]
      rfl
  · intro form responses single
    obtain ⟨replies, answers, printed, requests, complete⟩ :=
      Dispatch.run_reports options ready form single
    have count : ready.tasks.length = options.messages.length := by
      rw [isTasks, Dispatch.length_tasks]
    refine ⟨replies, answers, printed, ?_, requests, count ▸ answers.length_le, count ▸ complete⟩
    rintro rfl report member
    rw [← List.map_uncurry_zip_eq_zipWith] at member
    obtain ⟨⟨task, reply⟩, -, rfl⟩ := List.mem_map.mp member
    exact ⟨_, Report.reply_json task reply, Report.newline_not_mem_reply task reply⟩

section OneTask

private def setting : Setting := { defaultId := "7" }

private def hostOptions : DispatchOptions :=
  { pipe := "./s"
    lead := PipeName.defaultLead
    messages := ["a"]
    correlationId := none
    queue := none
    headers := ["k=v"]
    timeout := "30s"
    codec := { keys := .named } }

private def sentHeaders : Headers := .ofList [("k", "v")]

private def hostReady : Dispatch.Ready :=
  { socket := "./s"
    timeout := ⟨30000⟩
    tasks := Dispatch.tasks hostOptions "7" (some sentHeaders) }

private def workOptions : WorkOptions :=
  { pipe := some "./s"
    lead := PipeName.defaultLead
    sentinel := Listener.defaultSentinel
    pollInterval := "250ms"
    replyQueue := some "q"
    codec := {} }

private def closedInput : Descriptor := { arrivals := [], ending := .closed }

private def workReady : Work.Ready :=
  { socket := "./s", input := closedInput, config := { pollInterval := 250000 } }

private theorem parse_headers :
    HeaderArgument.parse hostOptions.headers = .ok (some sentHeaders) := by
  have entry : HeaderArgument.parseEntry "k=v" = .ok ("k", "v") := by cbv
  simp [HeaderArgument.parse, hostOptions, entry, Except.map, pure, Except.pure, bind, Except.bind,
    sentHeaders]

private theorem prepare_host :
    Dispatch.prepare hostOptions setting.defaultId = .ok hostReady := by
  have timeout : Duration.parse hostOptions.timeout = .ok ⟨30000⟩ := by cbv
  have socket : SocketArgument.resolve hostOptions.pipe hostOptions.lead = .ok "./s" := by cbv
  have id : hostOptions.correlationId.getD setting.defaultId = "7" := rfl
  simp only [Dispatch.prepare, bind, Except.bind, timeout, parse_headers, socket, pure, Except.pure,
    id, hostReady]

private theorem prepare_worker : Work.prepare workOptions closedInput = .ok workReady := by
  have interval : Duration.parse workOptions.pollInterval = .ok ⟨250⟩ := by
    have chars : trimChars workOptions.pollInterval.toList = ['2', '5', '0', 'm', 's'] := by cbv
    simp only [Duration.parse, chars]
    rfl
  have socket : SocketArgument.resolve "./s" workOptions.lead = .ok "./s" := by cbv
  have name : Work.nameOf workOptions closedInput = .ok ("./s", closedInput) := rfl
  simp only [Work.prepare, bind, Except.bind, interval, name, socket, pure, Except.pure]
  rfl

private theorem taskOf_host :
    taskOf setting ["dispatch", "./s", "-m", "a", "-H", "k=v", "--keys", "named"] =
      .dispatch hostOptions .json := by cbv

private theorem taskOf_worker :
    taskOf setting ["work", "./s", "--reply-queue", "q"] = .work workOptions .json := by cbv

/-- One task from a host with named keys to a worker with positional keys. -/
theorem commands_agree_once :
    exchange setting ["dispatch", "./s", "-m", "a", "-H", "k=v", "--keys", "named"]
        ["work", "./s", "--reply-queue", "q"] closedInput =
      .finished
        { number := 0
          printed := (Report.echoed "7-0" "a" (some sentHeaders) (some "q")).compact ++ "\n" }
        { number := 0, printed := Report.summary .json "./s" .peerClosed 1 } := by
  have listens : Dispatch.listen hostReady { directory := {} } = .ok
      { directory :=
          { nodes := [.folder, .socket 0o600], entries := [⟨0, "s", 1⟩], above := [(1, 0)] }
        bound := [("host", { path := "./s", node := 1 })] } := by cbv
  have silent : workReady.input.polls = [] := by cbv
  have small (payload : Bytes) (short : payload.length ≤ 42) :
      payload.length ≤ defaultLimit := Nat.le_trans short (by decide)
  obtain ⟨headers, parsed, -, -, agree, -⟩ := commands_agree prepare_host
  obtain rfl : some sentHeaders = headers := Except.ok.inj (parse_headers.symm.trans parsed)
  have agrees := agree workOptions .json closedInput workReady prepare_worker rfl
    (by simp [silent]) fun task member => by
      obtain rfl := List.mem_singleton.mp member
      exact ⟨small _ (by cbv), small _ (by cbv)⟩
  have id : s!"{hostOptions.correlationId.getD setting.defaultId}-{0}" = "7-0" := by cbv
  have line : echoLines hostOptions (hostOptions.correlationId.getD setting.defaultId)
      (some sentHeaders) workOptions.replyQueue =
      [(Report.echoed "7-0" "a" (some sentHeaders) (some "q")).compact] := by
    rw [← id]
    rfl
  rw [agrees.exchange _ _ _ _ Directory.Sound.empty taskOf_host taskOf_worker listens rfl, line]
  simp only [List.map_cons, List.map_nil, String.join_cons, String.join_nil, String.append_empty]
  rfl

end OneTask

end Program

end FramedTasks.CommandLine
