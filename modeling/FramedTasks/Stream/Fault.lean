/-! # Faults of input and output

Every operation on a stream, a socket or a file can fail with a fault: a kind, and a text of its
own if the plain wording of the kind does not serve.
-/

namespace FramedTasks

inductive FaultKind where
  | notFound
  | permissionDenied
  | connectionRefused
  | connectionReset
  | hostUnreachable
  | networkUnreachable
  | connectionAborted
  | notConnected
  | addrInUse
  | addrNotAvailable
  | networkDown
  | brokenPipe
  | alreadyExists
  | wouldBlock
  | notADirectory
  | isADirectory
  | directoryNotEmpty
  | readOnlyFilesystem
  | staleNetworkFileHandle
  | invalidInput
  | invalidData
  | timedOut
  | writeZero
  | storageFull
  | notSeekable
  | quotaExceeded
  | fileTooLarge
  | resourceBusy
  | executableFileBusy
  | deadlock
  | tooManyLinks
  | invalidFilename
  | argumentListTooLong
  | interrupted
  | unsupported
  | unexpectedEof
  | outOfMemory
  | other
  | filesystemLoop
  | uncategorized
deriving DecidableEq, Repr, Inhabited

def FaultKind.message : FaultKind → String
  | .notFound => "entity not found"
  | .permissionDenied => "permission denied"
  | .connectionRefused => "connection refused"
  | .connectionReset => "connection reset"
  | .hostUnreachable => "host unreachable"
  | .networkUnreachable => "network unreachable"
  | .connectionAborted => "connection aborted"
  | .notConnected => "not connected"
  | .addrInUse => "address in use"
  | .addrNotAvailable => "address not available"
  | .networkDown => "network down"
  | .brokenPipe => "broken pipe"
  | .alreadyExists => "entity already exists"
  | .wouldBlock => "operation would block"
  | .notADirectory => "not a directory"
  | .isADirectory => "is a directory"
  | .directoryNotEmpty => "directory not empty"
  | .readOnlyFilesystem => "read-only filesystem or storage medium"
  | .staleNetworkFileHandle => "stale network file handle"
  | .invalidInput => "invalid input parameter"
  | .invalidData => "invalid data"
  | .timedOut => "timed out"
  | .writeZero => "write zero"
  | .storageFull => "no storage space"
  | .notSeekable => "seek on unseekable file"
  | .quotaExceeded => "quota exceeded"
  | .fileTooLarge => "file too large"
  | .resourceBusy => "resource busy"
  | .executableFileBusy => "executable file busy"
  | .deadlock => "deadlock"
  | .tooManyLinks => "too many links"
  | .invalidFilename => "invalid filename"
  | .argumentListTooLong => "argument list too long"
  | .interrupted => "operation interrupted"
  | .unsupported => "unsupported"
  | .unexpectedEof => "unexpected end of file"
  | .outOfMemory => "out of memory"
  | .other => "other error"
  | .filesystemLoop => "filesystem loop or indirection limit (e.g. symlink loop)"
  | .uncategorized => "uncategorized error"

structure Fault where
  kind : FaultKind
  /-- The wording, where it is not the plain one of the kind. -/
  detail : Option String := none
deriving DecidableEq, Repr, Inhabited

namespace Fault

def message (fault : Fault) : String := fault.detail.getD fault.kind.message

/-- A fault that the operating system reports under a number. -/
def ofSystem (kind : FaultKind) (wording : String) (number : Nat) : Fault :=
  ⟨kind, some s!"{wording} (os error {number})"⟩

/-- Whether the operation may be tried again at once. -/
def isInterrupted (fault : Fault) : Bool := fault.kind == .interrupted

def isTimeout (fault : Fault) : Bool := fault.kind == .wouldBlock || fault.kind == .timedOut

end Fault

end FramedTasks
