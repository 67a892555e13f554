import FramedTasks.CommandLine.Grammar
import FramedTasks.CommandLine.Report
import FramedTasks.Control.Listener
import FramedTasks.Record.Codec
import FramedTasks.Socket.PipeName

/-! # Options

There are three commands: one to work, one to dispatch tasks to a worker, and one to tell the
version. Some parameters belong to all of them and may stand before the command or behind it.
-/

namespace FramedTasks.CommandLine

inductive LogForm where
  | text
  | json
deriving DecidableEq, Repr

inductive LogLevel where
  | off
  | error
  | warn
  | info
  | debug
  | trace
deriving DecidableEq, Repr

def ReportForm.words : List (String × ReportForm) :=
  [("json", .json), ("table", .table), ("pretty", .pretty), ("raw", .raw)]

def LogForm.words : List (String × LogForm) := [("text", .text), ("json", .json)]

def LogLevel.words : List (String × LogLevel) :=
  [("off", .off), ("error", .error), ("warn", .warn), ("info", .info), ("debug", .debug),
    ("trace", .trace)]

def formatWords : List (String × WireFormat) := [("msgpack", .messagePack), ("json", .json)]

def keyWords : List (String × KeyConvention) := [("positional", .positional), ("named", .named)]

structure WorkOptions where
  /-- The socket or pipe name; without it, the first line of the input. -/
  pipe : Option String
  lead : String
  sentinel : String
  pollInterval : String
  replyQueue : Option String
  codec : Codec
deriving DecidableEq, Repr

structure DispatchOptions where
  pipe : String
  lead : String
  messages : List String
  correlationId : Option String
  queue : Option String
  headers : List String
  timeout : String
  codec : Codec
deriving DecidableEq, Repr

inductive Command where
  | work (options : WorkOptions)
  | dispatch (options : DispatchOptions)
  | version (extended : Bool)
deriving DecidableEq, Repr

structure Options where
  reportForm : Option ReportForm
  logForm : LogForm
  logLevel : LogLevel
  command : Command
deriving DecidableEq, Repr

namespace Options

/-- A parameter whose values are the words of a list. -/
def choice {α : Type} (name : String) (words : List (String × α))
    (variableName : Option String := none) : Parameter :=
  { name, choices := some (words.map (·.1)), variableName }

def helpParameter : Parameter := { name := "help", letter := some 'h', arity := .help }

def versionParameter : Parameter := { name := "version", letter := some 'V', arity := .version }

def shared : List Parameter :=
  [choice "format" ReportForm.words,
    choice "log-format" LogForm.words (some "TASKPIPE_LOG_FORMAT"),
    choice "log-level" LogLevel.words (some "TASKPIPE_LOG_LEVEL")]

/-- The parameters of the commands that exchange tasks. -/
def exchange : List Parameter :=
  [{ name := "prefix", variableName := some "TASKPIPE_PIPE_PREFIX" },
    choice "wire-format" formatWords (some "TASKPIPE_WIRE_FORMAT"),
    choice "keys" keyWords (some "TASKPIPE_KEYS")]

def pipePlace : Parameter := { name := "pipe" }

def outerGrammar : Grammar :=
  { parameters := shared ++ [helpParameter, versionParameter]
    commands := ["work", "dispatch", "version", "help"] }

def workGrammar : Grammar :=
  { parameters := shared ++ exchange ++
      [{ name := "sentinel", variableName := some "TASKPIPE_SENTINEL" },
        { name := "poll-interval" }, { name := "reply-queue" }, helpParameter]
    places := [pipePlace] }

def dispatchGrammar : Grammar :=
  { parameters := shared ++ exchange ++
      [{ name := "message", letter := some 'm', arity := .repeated },
        { name := "correlation-id" }, { name := "queue" },
        { name := "header", letter := some 'H', arity := .repeated }, { name := "timeout" },
        helpParameter]
    places := [pipePlace] }

def versionGrammar : Grammar :=
  { parameters := shared ++ [{ name := "extended", arity := .switch }, helpParameter] }

def chosen? {α : Type} (words : List (String × α)) (value : Option String) : Option α :=
  value.bind (words.lookup ·)

def leadOf (given : Given) : String := (given.value? "prefix").getD PipeName.defaultLead

def codecOf (given : Given) : Codec :=
  { format := (chosen? formatWords (given.value? "wire-format")).getD .messagePack
    keys := (chosen? keyWords (given.value? "keys")).getD .positional }

def workOptions (given : Given) : WorkOptions :=
  { pipe := given.value? "pipe"
    lead := leadOf given
    sentinel := (given.value? "sentinel").getD Listener.defaultSentinel
    pollInterval := (given.value? "poll-interval").getD "250ms"
    replyQueue := given.value? "reply-queue"
    codec := codecOf given }

def dispatchOptions (pipe : String) (given : Given) : DispatchOptions :=
  { pipe
    lead := leadOf given
    messages := given.values "message"
    correlationId := given.value? "correlation-id"
    queue := given.value? "queue"
    headers := given.values "header"
    timeout := (given.value? "timeout").getD "30s"
    codec := codecOf given }

def parseCommand (environment : List (String × String)) (name : String)
    (arguments : List String) : Except UsageFault (Command × Given) := do
  let read (grammar : Grammar) : Except UsageFault Given := do
    let (scan, _) ← Scan.takeAll grammar { places := grammar.places } arguments
    Given.ofScan grammar environment scan
  match name with
  | "work" =>
    let given ← read workGrammar
    return (.work (workOptions given), given)
  | "dispatch" =>
    let given ← read dispatchGrammar
    match given.value? "pipe", given.values "message" with
    | some pipe, _ :: _ => return (.dispatch (dispatchOptions pipe given), given)
    | _, _ => .error .argumentMissing
  | _ =>
    let given ← read versionGrammar
    return (.version (given.value? "extended").isSome, given)

/-- The answer to a request for help on a command. -/
def helpOn : List String → UsageFault
  | [] => .help
  | name :: rest =>
    if name ∈ outerGrammar.commands ∧ rest = [] then .help else .commandUnknown

def parse (environment : List (String × String)) (arguments : List String) :
    Except UsageFault Options := do
  let (scan, found) ← Scan.takeAll outerGrammar {} arguments
  match found with
  | some ("help", rest) => .error (helpOn rest)
  | some (name, rest) =>
    let (command, inner) ← parseCommand environment name rest
    let outer ← Given.ofScan outerGrammar environment scan
    let value? := Given.sharedValue? outer inner
    return {
      reportForm := chosen? ReportForm.words (value? "format")
      logForm := (chosen? LogForm.words (value? "log-format")).getD .text
      logLevel := (chosen? LogLevel.words (value? "log-level")).getD .info
      command }
  | none =>
    let outer ← Given.ofScan outerGrammar environment scan
    .error (if outer.isEmpty then .nothing else .commandMissing)

end Options

end FramedTasks.CommandLine
