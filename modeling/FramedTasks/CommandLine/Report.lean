import FramedTasks.Json.Basic
import FramedTasks.Record.Basic
import FramedTasks.Text.Table
import FramedTasks.Worker.Stage

/-! # Reports

A command reports each reply, or how its work ended, in one of four forms: a JSON object, a table,
a line of labelled values, or the bare text.
-/

namespace FramedTasks.CommandLine

inductive ReportForm where
  | json
  | table
  | pretty
  | raw
deriving DecidableEq, Repr

namespace Report

def optionalText : Option String → Json.Value
  | some text => .text text
  | none => .null

def tableText (titles row : List String) : String := "\n".intercalate (Table.render titles [row])

/-- The members of a reply in JSON, in their order. -/
def replyMembers (request : InputTask) (reply : OutputTask) : List (String × Json.Value) :=
  [("correlationId", optionalText request.correlationId),
    ("request", .text request.message),
    ("message", .text reply.message),
    ("status", .integer reply.status.code.toInt),
    ("statusName", optionalText reply.status.name?),
    ("done", .bool reply.status.isDone)] ++
  (match reply.headers with
    | some headers =>
      [("headers", .object (headers.entries.map fun (key, value) => (key, .text value)))]
    | none => []) ++
  [("replyQueueName", optionalText reply.replyQueueName)]

def headersLine : Option Headers → String
  | none => "-"
  | some headers =>
    if headers.entries.isEmpty then "\x7b\x7d"
    else ",".intercalate (headers.entries.map fun (key, value) => key ++ "=" ++ value)

/-- The report of a reply next to the request that it answers. -/
def reply (form : ReportForm) (request : InputTask) (reply : OutputTask) : String :=
  let queue := reply.replyQueueName.getD "-"
  let text := match form with
    | .json => (Json.Value.object (replyMembers request reply)).compact
    | .table =>
      tableText ["CORRELATION", "STATUS", "REPLY QUEUE", "MESSAGE"]
        [request.correlationId.getD "", reply.status.text, queue, reply.message]
    | .pretty =>
      let id := request.correlationId.getD "-"
      s!"correlation={id} status={reply.status.text} reply_queue={queue} " ++
        s!"headers={headersLine reply.headers} message={reply.message}"
    | .raw => reply.message
  text ++ "\n"

def terminationWord : Termination → String
  | .shutdown => "shutdown"
  | .peerClosed => "peer_closed"

/-- The report of a worker that has ended in order. -/
def summary (form : ReportForm) (socket : String) (termination : Termination) (tasks : Nat) :
    String :=
  let word := terminationWord termination
  let text := match form with
    | .json =>
      (Json.Value.object [("socket", .text socket), ("termination", .text word),
        ("tasksHandled", .integer tasks)]).compact
    | .table =>
      tableText ["SOCKET", "TERMINATION", "TASKS"]
        [socket, word, String.ofList (Decimal.natChars tasks)]
    | .pretty | .raw => s!"socket={socket} termination={word} tasks={tasks}"
  text ++ "\n"

end Report

end FramedTasks.CommandLine
