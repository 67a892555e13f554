import FramedTasks.Socket.Error
import FramedTasks.Text.Blank

/-! # Pipe names

A host hands its worker the bare name of a pipe. White space around the name is ignored, so that a
line of input serves as it is; the path is the name behind a prefix.
-/

namespace FramedTasks.PipeName

/-- The text before a name where none is set. -/
def defaultLead : String := "/tmp/CoreFxPipe_"

def isForbidden (c : Char) : Bool := c == '/' || c == '\x00'

def path (lead name : String) : Except SocketError String :=
  let chars := trimChars name.toList
  if chars = [] then .error (.invalidPipeName "" .empty)
  else if chars.any isForbidden then
    .error (.invalidPipeName (String.ofList chars) .forbiddenCharacter)
  else .ok (lead ++ String.ofList chars)

end FramedTasks.PipeName
