import FramedTasks.Record.Basic

/-! # The fields of a record

Both records have four fields. Each goes by three names on the wire: its own, a digit, and its
own name with a capital letter. A `Draft` is a record that is being read: the values met so far,
one place for each field.
-/

namespace FramedTasks

/-- What a field holds. -/
inductive FieldKind where
  | text
  | status
  | optionalText
  | headers
deriving DecidableEq, Repr

/-- The value of a field. -/
inductive FieldValue where
  | text (value : String)
  | status (value : Status)
  | optionalText (value : Option String)
  | headers (value : Option Headers)
deriving DecidableEq

/-- A field under its own name, with the other names that it goes by. -/
structure Field where
  name : String
  digit : String
  capitalName : String
  kind : FieldKind
deriving DecidableEq, Repr

namespace Field

def answersTo (field : Field) (name : String) : Bool :=
  field.name == name || field.digit == name || field.capitalName == name

/-- The value of a field that is absent, unless the field is required. -/
def default? (field : Field) : Option FieldValue :=
  match field.kind with
  | .text | .status => none
  | .optionalText => some (.optionalText none)
  | .headers => some (.headers none)

end Field

/-- A record kind: its title and its fields in order. -/
structure Schema where
  title : String
  fields : List Field
deriving DecidableEq, Repr

namespace Schema

def index? (schema : Schema) (name : String) : Option Nat :=
  schema.fields.findIdx? (·.answersTo name)

end Schema

/-- The values met so far, one place for each field of a schema. -/
abbrev Draft := List (Option FieldValue)

namespace Draft

def empty (schema : Schema) : Draft := List.replicate schema.fields.length none

def has (draft : Draft) (index : Nat) : Bool := (draft[index]?.getD none).isSome

/-- Fill a place. -/
def put (draft : Draft) (index : Nat) (value : FieldValue) : Draft := draft.set index (some value)

/-- The values of all fields, absent optional ones included, or the first required field that
was not met. -/
def finish : List Field → Draft → Except String (List FieldValue)
  | [], _ => .ok []
  | field :: fields, draft =>
    match (draft.head?.getD none).or field.default? with
    | none => .error field.name
    | some value => (finish fields draft.tail).map (value :: ·)

end Draft

namespace FieldValue

/-- The text at a place of a list of field values; empty if there is none. -/
def textAt (values : List FieldValue) (index : Nat) : String :=
  match values[index]? with
  | some (.text value) => value
  | _ => ""

/-- The status at a place of a list of field values. -/
def statusAt (values : List FieldValue) (index : Nat) : Status :=
  match values[index]? with
  | some (.status value) => value
  | _ => default

/-- The optional text at a place of a list of field values. -/
def optionalTextAt (values : List FieldValue) (index : Nat) : Option String :=
  match values[index]? with
  | some (.optionalText value) => value
  | _ => none

/-- The headers at a place of a list of field values. -/
def headersAt (values : List FieldValue) (index : Nat) : Option Headers :=
  match values[index]? with
  | some (.headers value) => value
  | _ => none

end FieldValue

/-- A type of records with its schema. -/
class Record (α : Type) where
  schema : Schema
  /-- The record with the given field values, in the order of the schema. -/
  ofValues : List FieldValue → α
  /-- The field values of a record, in the order of the schema. -/
  values : α → List FieldValue
  ofValues_values (record : α) : ofValues (values record) = record

open FieldValue in
instance : Record InputTask where
  schema := {
    title := "InputTask"
    fields := [
      ⟨"message", "0", "Message", .text⟩,
      ⟨"correlationId", "1", "CorrelationId", .optionalText⟩,
      ⟨"originalQueueName", "2", "OriginalQueueName", .optionalText⟩,
      ⟨"headers", "3", "Headers", .headers⟩] }
  ofValues values := {
    message := textAt values 0
    correlationId := optionalTextAt values 1
    originalQueueName := optionalTextAt values 2
    headers := headersAt values 3 }
  values task :=
    [.text task.message, .optionalText task.correlationId, .optionalText task.originalQueueName,
      .headers task.headers]
  ofValues_values _ := rfl

open FieldValue in
instance : Record OutputTask where
  schema := {
    title := "OutputTask"
    fields := [
      ⟨"message", "0", "Message", .text⟩,
      ⟨"status", "1", "Status", .status⟩,
      ⟨"headers", "2", "Headers", .headers⟩,
      ⟨"replyQueueName", "3", "ReplyQueueName", .optionalText⟩] }
  ofValues values := {
    message := textAt values 0
    status := statusAt values 1
    headers := headersAt values 2
    replyQueueName := optionalTextAt values 3 }
  values task :=
    [.text task.message, .status task.status, .headers task.headers,
      .optionalText task.replyQueueName]
  ofValues_values _ := rfl

end FramedTasks
