import FramedTasks.CommandLine.Options
import FramedTasks.CommandLine.Outcome
import FramedTasks.CommandLine.Value
import FramedTasks.Control.Descriptor
import FramedTasks.Frame.Duplex
import FramedTasks.Socket.Hosting
import FramedTasks.Worker.Blocking

/-! # The command to work

The command connects to its host and sends every task back. Its input brings the name of the pipe,
unless an argument does, and then the sentinel. What happens around the running worker is either a
list, where bytes arrive from the host or at the input, or one of them ends; or the worker has an end
of a connection, and goes on whenever something has been put on the way to it (`Attendant.turn`).
-/

namespace FramedTasks.CommandLine.Work

/-- The reply to a task: its message behind a word, with its headers. -/
def echo (queue : Option String) (task : InputTask) : OutputTask :=
  let message := "Processed: " ++ task.message
  let reply := match queue with
    | some queue => OutputTask.replyTo message queue
    | none => OutputTask.done message
  reply.withHeaders task.headers

def processor (queue : Option String) : Processor Unit := fun _ task _ =>
  { answer := .reply (echo queue task), state := () }

/-- Something that happens around a running worker. -/
inductive Happening where
  | host (bytes : Bytes)
  | hostClosed
  | input (bytes : Bytes)
  | inputClosed
deriving DecidableEq, Repr

/-- The outcomes of polls as they come to a waiting worker, which then finds its read run out. -/
def momentsOf (polls : List Poll) : List (SourceEvent Moment) :=
  polls.map (fun poll => .moment (.control poll)) ++ [.fault Connection.nothingYet]

/-- What happens, as the worker meets it. -/
def eventsOf (input : Descriptor) : List Happening → List (SourceEvent Moment)
  | [] => []
  | .host bytes :: rest => .data bytes none :: eventsOf input rest
  | .hostClosed :: rest => .closed :: eventsOf input rest
  | .input bytes :: rest =>
    let (polls, input) := (input.feed bytes).drain
    momentsOf polls ++ eventsOf input rest
  | .inputClosed :: rest =>
    let (polls, input) := input.close.drain
    momentsOf (polls ++ [.closed]) ++ eventsOf input rest

/-- The name that the command works for: that of the argument, or the first line of the input. -/
def nameOf (options : WorkOptions) (input : Descriptor) : Except Failure (String × Descriptor) :=
  match options.pipe with
  | some name => .ok (name, input)
  | none =>
    match input.readLine with
    | (.line name, input) => .ok (name, input)
    | (.fault fault, _) => .error (.ofFault "failed to read pipe name" fault)
    | _ => .error (misuse "no pipe name given and stdin is closed")

/-- A command that is ready to work. -/
structure Ready where
  socket : String
  input : Descriptor
  config : WorkerConfig

/-- Go through everything that comes before the connection. -/
def prepare (options : WorkOptions) (input : Descriptor) : Except Failure Ready := do
  let interval ← Duration.parse options.pollInterval
  let (name, input) ← nameOf options input
  let socket ← SocketArgument.resolve name options.lead
  return {
    socket
    input
    config := {
      codec := options.codec
      sentinel := options.sentinel
      pollInterval := interval.millis * 1000 } }

/-- The name under which the worker's end of its connection is held. -/
def endName : String := "worker"

def connect (ready : Ready) (hosting : Hosting) : Except Failure Hosting :=
  match hosting.connect endName ready.socket with
  | (.ok (), hosting) => .ok hosting
  | (.error error, _) => .error (.ofSocketError "connect failed" error)

/-- How the work of a connected worker ended, how many tasks it has had processed, and the bytes
that it has sent. -/
structure Session where
  result : Except WorkerError Termination
  handled : Nat
  sent : Bytes

def Session.of (result : Except WorkerError Termination) (worker : BlockingWorker) : Session :=
  ⟨result, worker.seen.length, worker.link.channel.writer.sink.taken⟩

def start (ready : Ready) (source : Source Moment) : Except WorkerError Unit × BlockingWorker :=
  let supply : Listener.Supply :=
    { events := ready.input.drain.1.map fun poll => { poll }
      staysOpen := ready.input.ending == .quiet }
  (BlockingWorker.between source {} ready.config).initial supply

def session (options : WorkOptions) (ready : Ready) (happenings : List Happening) : Session :=
  match start ready { events := eventsOf ready.input.drain.2 happenings } with
  | (.error error, worker) => .of (.error error) worker
  | (.ok (), worker) =>
    let (result, _, worker) := worker.doWork (processor options.replyQueue) ()
    .of result worker

/-- A worker at the right end of a connection, and the result of its work if that is over. -/
structure Attendant where
  worker : BlockingWorker
  result? : Option (Except WorkerError Termination) := none

namespace Attendant

def start (ready : Ready) : Attendant :=
  match Work.start ready { events := [] } with
  | (.error error, worker) => { worker, result? := some (.error error) }
  | (.ok (), worker) => { worker }

/-- A worker that reads what is on the way to it, and whose bytes are taken unless the other end has
gone. -/
def facing (connection : Connection) (worker : BlockingWorker) : BlockingWorker :=
  let channel := worker.link.channel
  let writes := if connection.isShutFrom .right then [.fault Connection.brokenPipe] else []
  worker.withChannel {
    reader := { channel.reader with source := Frame.Duplex.source (connection.inflow .right) }
    writer := { channel.writer with sink := { channel.writer.sink with writes } } }

/-- The connection after a worker has gone on: it has taken bytes off it, and put others on it. -/
def leftBehind (connection : Connection) (before after : BlockingWorker) : Connection :=
  let remaining := connection.update .right
    (Frame.Duplex.remainder · after.link.channel.reader.source)
  let sent := after.link.channel.writer.sink.taken.drop before.link.channel.writer.sink.taken.length
  (remaining.write .right sent).2

/-- Go on as far as what the host has sent so far allows. A worker whose work is over goes away. -/
def turn (queue : Option String) (duplex : Frame.Duplex) (attendant : Attendant) :
    Frame.Duplex × Attendant :=
  match attendant.result? with
  | some _ => (duplex, attendant)
  | none =>
    let (ended?, _, worker) :=
      (facing duplex.connection attendant.worker).advance (processor queue) ()
    let connection := leftBehind duplex.connection attendant.worker worker
    match ended? with
    | none => ({ duplex with connection }, { worker })
    | some ended =>
      let (result, worker) := BlockingWorker.conclude ended worker
      ({ duplex with connection := connection.close .right }, { worker, result? := some result })

/-- The session of a worker to which nothing more will come. -/
def session (queue : Option String) (attendant : Attendant) : Session :=
  match attendant.result? with
  | some result => .of result attendant.worker
  | none =>
    let (ended, _, worker) := attendant.worker.complete (processor queue) ()
    let (result, worker) := BlockingWorker.conclude ended worker
    .of result worker

end Attendant

def report (form : ReportForm) (ready : Ready) (session : Session) : Outcome :=
  match session.result with
  | .ok termination => .success (Report.summary form ready.socket termination session.handled)
  | .error error => .failure (.ofWorkerError "worker failed" error)

end FramedTasks.CommandLine.Work
