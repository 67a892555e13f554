import FramedTasks.Number.Shortest
import FramedTasks.Record.Schema
import FramedTasks.Text.Quoted

/-! # Values that do not fit a record

A payload can be well formed and still not be a record: a value of the wrong type, a number out
of range, a field missing or met twice. These causes are the same in every wire format; only the
words for nil and for numbers with a fraction differ.
-/

namespace FramedTasks

/-- What stood where a record wanted something else. -/
inductive Found where
  | nil
  | bool (value : Bool)
  | integer (value : Int)
  | number (value : Binary64)
  | text (value : String)
  | bytes
  | sequence
  | map
  | extension
deriving DecidableEq, Repr

/-- What a record wanted. -/
inductive Wanted where
  | text
  | key
  | map
  | status
  | fieldName
  | anyValue
  | record (title : String)
deriving DecidableEq, Repr

/-- Why a well-formed payload is no record. -/
inductive RecordFault where
  | wrongType (found : Found) (wanted : Wanted)
  | wrongValue (found : Found) (wanted : Wanted)
  | tooShort (length : Nat) (schema : Schema)
  | missingField (name : String)
  | duplicateField (name : String)
deriving DecidableEq, Repr

/-- The words of a wire format for the values that formats name differently. -/
structure Vocabulary where
  nil : String
  number : Binary64 → String

def Found.shown (vocabulary : Vocabulary) : Found → String
  | .nil => vocabulary.nil
  | .bool value => s!"boolean `{value}`"
  | .integer value => s!"integer `{value}`"
  | .number value => s!"floating point `{vocabulary.number value}`"
  | .text value => s!"string {Quoted.quote value}"
  | .bytes => "byte array"
  | .sequence => "sequence"
  | .map => "map"
  | .extension => "newtype struct"

def Wanted.message : Wanted → String
  | .text => "a string"
  | .key => "a string key"
  | .map => "a map"
  | .status => "i32"
  | .fieldName => "field identifier"
  | .anyValue => "any valid JSON value"
  | .record title => s!"struct {title}"

/-- The wording of a fault in the words of a format. -/
def RecordFault.message (vocabulary : Vocabulary) : RecordFault → String
  | .wrongType found wanted =>
    s!"invalid type: {found.shown vocabulary}, expected {wanted.message}"
  | .wrongValue found wanted =>
    s!"invalid value: {found.shown vocabulary}, expected {wanted.message}"
  | .tooShort length schema =>
    s!"invalid length {length}, expected struct {schema.title} with {schema.fields.length} elements"
  | .missingField name => s!"missing field `{name}`"
  | .duplicateField name => s!"duplicate field `{name}`"

end FramedTasks
