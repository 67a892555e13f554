import FramedTasks.CommandLine.Options
import FramedTasks.CommandLine.Outcome
import FramedTasks.CommandLine.Value
import FramedTasks.Dispatcher
import FramedTasks.Frame.Duplex
import FramedTasks.Socket.Hosting

/-! # The command to dispatch

The command waits for a worker, sends it one task for each message, and reports every reply before
it sends the next task. The first failure ends it. At the other end of the connection is a peer, which
takes its turn each time that the command waits for a reply. A peer may have a list of responses, one
for each request that it receives.
-/

namespace FramedTasks.CommandLine.Dispatch

/-- The tasks of the messages, numbered behind a prefix. -/
def tasks (options : DispatchOptions) (id : String) (headers : Option Headers) : List InputTask :=
  options.messages.mapIdx fun index message =>
    { message
      correlationId := some s!"{id}-{index}"
      originalQueueName := options.queue
      headers }

/-- A command that is ready to listen. -/
structure Ready where
  socket : String
  timeout : Duration
  tasks : List InputTask

/-- Go through everything that comes before the socket. -/
def prepare (options : DispatchOptions) (id : String) : Except Failure Ready := do
  let timeout ← Duration.parse options.timeout
  let headers ← HeaderArgument.parse options.headers
  let socket ← SocketArgument.resolve options.pipe options.lead
  return { socket, timeout, tasks := tasks options (options.correlationId.getD id) headers }

def hostName : String := "host"

def listen (ready : Ready) (hosting : Hosting) : Except Failure Hosting :=
  match hosting.bind hostName ready.socket with
  | (.ok (), hosting) => .ok hosting
  | (.error error, _) => .error (.ofSocketError "bind failed" error)

/-- Someone at the right end of a connection, who takes a turn whenever the command waits for a reply,
and once more when it has gone. -/
structure Peer where
  State : Type
  turn : Frame.Duplex → State → Frame.Duplex × State

/-- A conversation with a peer: the command has the left end of the connection. -/
structure Conversation (peer : Peer) where
  duplex : Frame.Duplex := {}
  other : peer.State
  printed : String := ""

namespace Conversation

variable {peer : Peer}

def peerTurn (conversation : Conversation peer) : Conversation peer :=
  let (duplex, other) := peer.turn conversation.duplex conversation.other
  { conversation with duplex, other }

def dispatch (conversation : Conversation peer) (codec : Codec) (task : InputTask) :
    Except WorkerError OutputTask × Conversation peer :=
  match conversation.duplex.send .left (codec.encode task) with
  | (.error error, duplex) => (.error (.send error), { conversation with duplex })
  | (.ok (), duplex) =>
    let conversation := peerTurn { conversation with duplex }
    let (result, duplex) := conversation.duplex.receive .left
    (Dispatcher.replyOf codec result, { conversation with duplex })

/-- Dispatch tasks one by one and report their replies, up to the first failure. -/
def dispatchAll (conversation : Conversation peer) (codec : Codec) (form : ReportForm) :
    List InputTask → Option WorkerError × Conversation peer
  | [] => (none, conversation)
  | task :: rest =>
    match conversation.dispatch codec task with
    | (.error error, conversation) => (some error, conversation)
    | (.ok reply, conversation) =>
      let printed := conversation.printed ++ Report.reply form task reply
      dispatchAll { conversation with printed } codec form rest

/-- The command ends, and the peer takes notice of it. -/
def finish (conversation : Conversation peer) : Conversation peer :=
  let connection := conversation.duplex.connection.close .left
  peerTurn { conversation with duplex := { conversation.duplex with connection } }

end Conversation

/-- Dispatch all tasks to a peer: the outcome of the command, and the conversation at its end. -/
def converse {peer : Peer} (options : DispatchOptions) (ready : Ready) (form : ReportForm)
    (other : peer.State) : Outcome × Conversation peer :=
  let (error, conversation) :=
    Conversation.dispatchAll { other } options.codec form ready.tasks
  let outcome := match error with
    | none => .success conversation.printed
    | some error => .failure (.ofWorkerError "dispatch failed" error) conversation.printed
  (outcome, conversation.finish)

/-- What a peer does after it has received a request. -/
inductive Response where
  | sends (bytes : Bytes)
  | closes
  /-- It does nothing any more. -/
  | staysQuiet
deriving DecidableEq, Repr

/-- The responses of a peer that receives once more after its last reply and then goes away. -/
def untilEnd : List Response → List Response
  | [] => [.closes]
  | [.sends bytes] => [.sends bytes, .closes]
  | [response] => [response]
  | response :: rest => response :: untilEnd rest

/-- A peer that has its responses ready, and what it has received. -/
structure Script where
  responses : List Response
  received : List (Except FrameError Bytes) := []

namespace Script

def respond (duplex : Frame.Duplex) (script : Script) : Response → Frame.Duplex × Script
  | .sends bytes =>
    let connection := (duplex.connection.write .right bytes).2
    ({ duplex with connection }, script)
  | .closes => ({ duplex with connection := duplex.connection.close .right }, script)
  | .staysQuiet => (duplex, { script with responses := [] })

/-- Receive a request if one is there, and respond to it. -/
def turn (duplex : Frame.Duplex) (script : Script) : Frame.Duplex × Script :=
  match script.responses with
  | [] => (duplex, script)
  | response :: responses =>
    match duplex.receive .right with
    | (.error .timeout, duplex) => (duplex, script)
    | (.error error, duplex) => (duplex, ⟨[], script.received ++ [.error error]⟩)
    | (.ok request, duplex) =>
      respond duplex ⟨responses, script.received ++ [.ok request]⟩ response

def requests (script : Script) : List Bytes := script.received.filterMap (·.toOption)

end Script

abbrev scripted : Peer := { State := Script, turn := Script.turn }

/-- Dispatch all tasks to a peer that has its responses ready. -/
def run (options : DispatchOptions) (ready : Ready) (form : ReportForm)
    (responses : List Response) : Outcome × Conversation scripted :=
  converse options ready form { responses }

/-- The requests that a peer has received that has its responses ready. -/
def Conversation.requests (conversation : Conversation scripted) : List Bytes :=
  Script.requests conversation.other

end FramedTasks.CommandLine.Dispatch
