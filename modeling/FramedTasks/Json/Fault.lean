import FramedTasks.Bytes
import FramedTasks.Json.Basic
import FramedTasks.Record.Fault

/-! # Faults of a JSON payload

A fault is a cause and a place. While reading, the place is the number of bytes after it; in the
message it is a line and a column, the column counting bytes since the last line feed.
-/

namespace FramedTasks.Json

inductive Cause where
  | endInList
  | endInObject
  | endInText
  | endInValue
  | expectedColon
  | expectedCommaOrListEnd
  | expectedCommaOrObjectEnd
  | expectedWord
  | expectedValue
  | invalidEscape
  | invalidNumber
  | numberOutOfRange
  | invalidCodePoint
  | controlCharacter
  | keyNotText
  | loneSurrogate
  | cutEscape
  | trailingComma
  | trailingCharacters
  | tooDeep
  | record (fault : RecordFault)
deriving DecidableEq, Repr

def vocabulary : Vocabulary := { nil := "null", number := (·.text numberLayout) }

def Cause.message : Cause → String
  | .endInList => "EOF while parsing a list"
  | .endInObject => "EOF while parsing an object"
  | .endInText => "EOF while parsing a string"
  | .endInValue => "EOF while parsing a value"
  | .expectedColon => "expected `:`"
  | .expectedCommaOrListEnd => "expected `,` or `]`"
  | .expectedCommaOrObjectEnd => "expected `,` or `\x7d`"
  | .expectedWord => "expected ident"
  | .expectedValue => "expected value"
  | .invalidEscape => "invalid escape"
  | .invalidNumber => "invalid number"
  | .numberOutOfRange => "number out of range"
  | .invalidCodePoint => "invalid unicode code point"
  | .controlCharacter => "control character (\\u0000-\\u001F) found while parsing a string"
  | .keyNotText => "key must be a string"
  | .loneSurrogate => "lone leading surrogate in hex escape"
  | .cutEscape => "unexpected end of hex escape"
  | .trailingComma => "trailing comma"
  | .trailingCharacters => "trailing characters"
  | .tooDeep => "recursion limit exceeded"
  | .record fault => fault.message vocabulary

/-- A cause, and how many bytes of the payload come after the place where it is reported. -/
structure Fault where
  cause : Cause
  left : Nat
deriving DecidableEq, Repr

/-- A line, counted from one, and the bytes of it before a place. -/
structure Position where
  line : Nat
  column : Nat
deriving DecidableEq, Repr

def Position.after (bytes : Bytes) : Position where
  line := bytes.count 0x0A + 1
  column := (bytes.reverse.takeWhile (· != 0x0A)).length

def Position.message (place : Position) : String :=
  s!"at line {place.line} column {place.column}"

/-- The position of a fault that arose in reading a payload. -/
def Fault.place (payload : Bytes) (fault : Fault) : Position :=
  .after (payload.take (payload.length - fault.left))

def failAt {α : Type} (cause : Cause) (unread : Bytes) : Except Fault α :=
  .error ⟨cause, unread.length⟩

/-- A fault just after the first unread byte, if there is one. -/
def failAfter {α : Type} (cause : Cause) (unread : Bytes) : Except Fault α :=
  .error ⟨cause, unread.length - 1⟩

end FramedTasks.Json
