import FramedTasks.Worker.Error

/-! # Exit codes

Every failure of a command ends in an exit code and one line of text. The code tells what a caller
can do about the failure; the text is the failure's own, behind the words for what was being done.
-/

namespace FramedTasks.CommandLine

inductive ExitCode where
  | success
  | failure
  | socketError
  | permissionDenied
  | dataInvalid
  | usage
  | timeout
  | internal
deriving DecidableEq, Repr

def ExitCode.number : ExitCode → Nat
  | .success => 0
  | .failure => 1
  | .socketError => 3
  | .permissionDenied => 50
  | .dataInvalid => 60
  | .usage => 64
  | .timeout => 124
  | .internal => 125

/-- A command that failed. -/
structure Failure where
  code : ExitCode
  message : String
deriving DecidableEq, Repr

namespace Failure

/-- The code for a fault of the operating system. -/
def codeOfFault (kind : FaultKind) : ExitCode :=
  match kind with
  | .permissionDenied => .permissionDenied
  | .timedOut | .wouldBlock => .timeout
  | .connectionRefused | .notFound => .failure
  | _ => .internal

/-- A failure with a code, its text behind a context. -/
def within (context : String) (code : ExitCode) (text : String) : Failure :=
  ⟨code, s!"{context}: {text}"⟩

def ofFault (context : String) (fault : Fault) : Failure :=
  within context (codeOfFault fault.kind) fault.message

def ofSocketError (context : String) (error : SocketError) : Failure :=
  match error with
  | .bind _ fault | .connect _ fault | .accept fault | .io fault => ofFault context fault
  | .invalidPipeName .. => within context .usage error.message
  | .pathTooLong .. => within context .socketError error.message

def ofFrameError (context : String) (error : FrameError) : Failure :=
  match error with
  | .io fault => ofFault context fault
  | .timeout => within context .timeout error.message
  | .truncated .. | .payloadTooLarge .. => within context .dataInvalid error.message
  | .endOfStream => within context .failure error.message

def ofWorkerError (context : String) (error : WorkerError) : Failure :=
  match error with
  | .socket error => ofSocketError context error
  | .receive error | .send error | .setup error => ofFrameError context error
  | .decode _ | .encode _ => within context .dataInvalid error.message
  | .disconnected => within context .failure error.message
  | _ => within context .internal error.message

end Failure

end FramedTasks.CommandLine
