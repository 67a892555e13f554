import FramedTasks.CommandLine.Exit
import FramedTasks.Record.Basic
import FramedTasks.Socket.PipeName
import FramedTasks.Text.Blank
import FramedTasks.Text.Decimal

/-! # What arguments stand for

Some arguments are texts with a meaning of their own: a length of time, a header, the place of a
socket. A text that has none is an error of usage.
-/

namespace FramedTasks.CommandLine

def misuse (text : String) : Failure := ⟨.usage, text⟩

/-- A length of time in milliseconds. -/
structure Duration where
  millis : Nat
deriving DecidableEq, Repr

namespace Duration

inductive Unit where
  | seconds
  | milliseconds
deriving DecidableEq, Repr

def ofUnit (number : Nat) : Unit → Duration
  | .seconds => ⟨number * 1000⟩
  | .milliseconds => ⟨number⟩

/-- A number may not reach this. -/
def numberLimit : Nat := 0x10000000000000000

/-- Split the unit from the end of a text; without one the unit is a second. -/
def splitUnit (chars : List Char) : List Char × Unit :=
  match chars.reverse with
  | 's' :: 'm' :: number => (number.reverse, .milliseconds)
  | 's' :: number => (number.reverse, .seconds)
  | _ => (chars, .seconds)

/-- Read a positive number with a unit behind it. -/
def parse (text : String) : Except Failure Duration :=
  let chars := trimChars text.toList
  if chars = [] then .error (misuse "duration must not be empty")
  else
    let (digits, unit) := splitUnit chars
    match Decimal.readNat? digits with
    | none => .error (misuse s!"invalid duration value: {String.ofList chars}")
    | some number =>
      if numberLimit ≤ number then
        .error (misuse s!"invalid duration value: {String.ofList chars}")
      else if number = 0 then .error (misuse "duration must be greater than zero")
      else .ok (ofUnit number unit)

end Duration

namespace HeaderArgument

/-- The key and the value of one header: the text before the first equals sign, without the white
space around it, and the text after that sign. -/
def parseEntry (entry : String) : Except Failure (String × String) :=
  let chars := entry.toList
  match chars.dropWhile (· != '=') with
  | [] => .error (misuse s!"header must be KEY=VALUE: {entry}")
  | _ :: value =>
    let key := trimChars (chars.takeWhile (· != '='))
    if key = [] then .error (misuse s!"header key is empty: {entry}")
    else .ok (String.ofList key, String.ofList value)

/-- The headers of several entries, of which the last one under a key counts; no entries make no
headers. -/
def parse (entries : List String) : Except Failure (Option Headers) :=
  if entries = [] then .ok none
  else (entries.mapM parseEntry).map fun pairs => some (Headers.ofList pairs)

end HeaderArgument

namespace SocketArgument

/-- The path of a socket: a text with a slash is one, any other is the name of a pipe. -/
def resolve (text lead : String) : Except Failure String :=
  let chars := trimChars text.toList
  if chars.contains '/' then .ok (String.ofList chars)
  else (PipeName.path lead (String.ofList chars)).mapError
    (Failure.ofSocketError "invalid pipe name")

end SocketArgument

end FramedTasks.CommandLine
