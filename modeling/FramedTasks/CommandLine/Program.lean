import FramedTasks.CommandLine.Dispatch
import FramedTasks.CommandLine.Work
import FramedTasks.Frame.Run

/-! # The program

A program reads its command line and then either is over at once, or works, or dispatches. It is run
by itself, against a peer that is given, or as two programs against each other. When two programs
exchange tasks, the worker is the peer of the host.
-/

namespace FramedTasks.CommandLine

/-- What a program finds around it. -/
structure Setting where
  environment : List (String × String) := []
  /-- The platform that the program was built for. -/
  target : String := "unknown"
  /-- The correlation id where none is set. -/
  defaultId : String := ""
deriving DecidableEq, Repr

namespace Program

def name : String := "taskpipe"

def version : String := "0.1.0"

/-- The number with which a program exits whose command line does not make sense. -/
def usageNumber : Nat := 2

def versionLine : String := s!"{name} {version}\n"

/-- The lines that tell how the program was built. -/
def buildLines (target : String) : String :=
  let config : WorkerConfig := {}
  "".intercalate <| List.map (· ++ "\n")
    [s!"name: {name}", s!"version: {version}", s!"target: {target}",
      "features: async=false, cli=true", "wire: msgpack, positional keys",
      s!"max_payload: {Frame.defaultLimit}", s!"pipe_prefix: {PipeName.defaultLead}",
      s!"sentinel: {Listener.defaultSentinel}",
      s!"poll_interval_ms: {config.pollInterval / 1000}"]

/-- The outcome of a command line without options. -/
def outcomeOf : UsageFault → Outcome
  | .help => .success ""
  | .version => .success versionLine
  | _ => { number := usageNumber }

/-- What a program does once it has read its command line. -/
inductive Task where
  | ended (outcome : Outcome)
  | work (options : WorkOptions) (form : ReportForm)
  | dispatch (options : DispatchOptions) (form : ReportForm)

/-- Read a command line. Reports are objects unless it says otherwise, as the output is no
terminal. -/
def taskOf (setting : Setting) (arguments : List String) : Task :=
  match Options.parse setting.environment arguments with
  | .error fault => .ended (outcomeOf fault)
  | .ok options =>
    let form := options.reportForm.getD .json
    match options.command with
    | .work work => .work work form
    | .dispatch dispatch => .dispatch dispatch form
    | .version false => .ended (.success versionLine)
    | .version true => .ended (.success (buildLines setting.target))

def host (setting : Setting) (options : DispatchOptions) (hosting : Hosting) :
    Except Failure (Dispatch.Ready × Hosting) := do
  let ready ← Dispatch.prepare options setting.defaultId
  let hosting ← Dispatch.listen ready hosting
  return (ready, hosting)

def worker (options : WorkOptions) (input : Descriptor) (hosting : Hosting) :
    Except Failure (Work.Ready × Hosting) := do
  let ready ← Work.prepare options input
  let hosting ← Work.connect ready hosting
  return (ready, hosting)

/-- A worker program in a directory where a host may listen: its outcome, and the bytes that it has
sent if it was connected. -/
def work (setting : Setting) (arguments : List String) (input : Descriptor) (hosting : Hosting)
    (happenings : List Work.Happening) : Outcome × Option Bytes :=
  match taskOf setting arguments with
  | .work options form =>
    match worker options input hosting with
    | .error failure => (.failure failure, none)
    | .ok (ready, _) =>
      let session := Work.session options ready happenings
      (Work.report form ready session, some session.sent)
  | .ended outcome => (outcome, none)
  | .dispatch .. => ({ number := usageNumber }, none)

/-- A host program with a peer: its outcome and what the peer has received. -/
def dispatch (setting : Setting) (arguments : List String) (hosting : Hosting)
    (responses : List Dispatch.Response) : Outcome × List (Except FrameError Bytes) :=
  match taskOf setting arguments with
  | .dispatch options form =>
    match host setting options hosting with
    | .error failure => (.failure failure, [])
    | .ok (ready, _) =>
      let (outcome, conversation) :=
        Dispatch.run options ready form (Dispatch.untilEnd responses)
      (outcome, Dispatch.Script.received conversation.other)
  | .ended outcome => (outcome, [])
  | .work .. => ({ number := usageNumber }, [])

/-- A program by itself in a directory; nothing if it waits for a worker. -/
def alone (setting : Setting) (arguments : List String) (input : Descriptor)
    (hosting : Hosting) : Option Outcome :=
  match taskOf setting arguments with
  | .ended outcome => some outcome
  | .work .. => some (work setting arguments input hosting []).1
  | .dispatch options _ =>
    match host setting options hosting with
    | .error failure => some (.failure failure)
    | .ok _ => none

/-- Workers that echo, at the other end of a connection. -/
abbrev attending (queue : Option String) : Dispatch.Peer :=
  { State := Work.Attendant, turn := Work.Attendant.turn queue }

/-- A connected host and worker: the outcomes of both. -/
def converse (hostOptions : DispatchOptions) (host : Dispatch.Ready) (hostForm : ReportForm)
    (workOptions : WorkOptions) (worker : Work.Ready) (workForm : ReportForm) :
    Outcome × Outcome :=
  let queue := workOptions.replyQueue
  let other : (attending queue).State := Work.Attendant.start worker
  let (outcome, conversation) := Dispatch.converse hostOptions host hostForm other
  (outcome, Work.report workForm worker (Work.Attendant.session queue conversation.other))

/-- How an exchange of two programs ends. -/
inductive Exchange where
  /-- The host was over before it listened. -/
  | hostOver (host : Outcome)
  /-- The worker was over before it connected, and the host waits. -/
  | hostWaits (worker : Outcome)
  | finished (host worker : Outcome)
deriving DecidableEq, Repr

/-- A host program in a directory, and then a worker program against it. -/
def exchange (setting : Setting) (hostArguments workArguments : List String)
    (input : Descriptor) (directory : Directory := {}) : Exchange :=
  match taskOf setting hostArguments with
  | .ended outcome => .hostOver outcome
  | .work .. => .hostOver { number := usageNumber }
  | .dispatch hostOptions hostForm =>
    match host setting hostOptions { directory } with
    | .error failure => .hostOver (.failure failure)
    | .ok (host, hosting) =>
      match taskOf setting workArguments with
      | .ended outcome => .hostWaits outcome
      | .dispatch .. => .hostWaits { number := usageNumber }
      | .work workOptions workForm =>
        match worker workOptions input hosting with
        | .error failure => .hostWaits (.failure failure)
        | .ok (worker, _) =>
          let (hostOutcome, workOutcome) :=
            converse hostOptions host hostForm workOptions worker workForm
          .finished hostOutcome workOutcome

end Program

end FramedTasks.CommandLine
