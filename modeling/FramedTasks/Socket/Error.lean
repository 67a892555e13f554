import FramedTasks.Stream.Fault
import FramedTasks.Text.Quoted

/-! # Errors on the way to a connected stream

A stream comes about in steps: a name becomes a path, the host binds and accepts, the worker
connects. Each step has its own error.
-/

namespace FramedTasks

/-- What is wrong with a pipe name. -/
inductive PipeNameFlaw where
  | empty
  | forbiddenCharacter
deriving DecidableEq, Repr

def PipeNameFlaw.message : PipeNameFlaw → String
  | .empty => "empty"
  | .forbiddenCharacter => "contains a path separator or NUL byte"

inductive SocketError where
  | bind (path : String) (fault : Fault)
  | connect (path : String) (fault : Fault)
  | accept (fault : Fault)
  | io (fault : Fault)
  | pathTooLong (path : String) (length limit : Nat)
  | invalidPipeName (name : String) (flaw : PipeNameFlaw)
deriving DecidableEq, Repr

namespace SocketError

def message : SocketError → String
  | .bind path fault => s!"failed to bind to {path}: {fault.message}"
  | .connect path fault => s!"failed to connect to {path}: {fault.message}"
  | .accept fault => s!"failed to accept connection: {fault.message}"
  | .io fault => s!"transport I/O error: {fault.message}"
  | .pathTooLong path length limit =>
    s!"socket path too long ({length} bytes, max {limit}): {path}"
  | .invalidPipeName name flaw => s!"invalid pipe name {Quoted.quote name}: {flaw.message}"

end SocketError

end FramedTasks
