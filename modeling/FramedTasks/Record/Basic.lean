import FramedTasks.Keyed
import FramedTasks.Text.Blank
import FramedTasks.Text.Decimal

/-! # Task records

A host sends an `InputTask` and receives an `OutputTask`. Both carry optional headers, a map from
text to text whose entries are kept in key order, so that two equal maps are equal values.
-/

namespace FramedTasks

/-- A map from text to text, its entries in key order. -/
structure Headers where
  entries : List (String × String)
  sorted : Keyed.Sorted entries

namespace Headers

instance : DecidableEq Headers := fun a b =>
  if same : a.entries = b.entries then
    .isTrue (by cases a; cases b; cases same; rfl)
  else .isFalse fun equal => same (congrArg entries equal)

def empty : Headers := ⟨[], List.Pairwise.nil⟩

instance : Inhabited Headers := ⟨empty⟩

/-- Put a value under a key, in place of the value that was there. -/
def insert (headers : Headers) (key value : String) : Headers :=
  ⟨Keyed.insert key value headers.entries, headers.sorted.insert key value⟩

def find? (headers : Headers) (key : String) : Option String := Keyed.find? key headers.entries

/-- The map of a list of entries; the last value under a key stays. -/
def ofList (entries : List (String × String)) : Headers :=
  ⟨Keyed.ofList entries, Keyed.sorted_ofList entries⟩

end Headers

/-- The result of a processed task: an open set of codes, four of them named. -/
structure Status where
  code : Int32
deriving DecidableEq, Inhabited, Repr

namespace Status

/-- The host should drop the message. -/
def ignoreMessage : Status := ⟨-1⟩
/-- The task is complete. -/
def done : Status := ⟨200⟩
/-- The task is complete and its reply goes to a queue. -/
def doneWithReply : Status := ⟨201⟩
/-- Processing failed. -/
def unknownError : Status := ⟨500⟩

/-- Whether the host should take the task as finished. -/
def isDone (status : Status) : Bool := status == done || status == doneWithReply

/-- The status of a number that fits a signed word of 32 bits. -/
def ofInt? (number : Int) : Option Status :=
  if -0x80000000 ≤ number ∧ number < 0x80000000 then some ⟨Int32.ofInt number⟩ else none

def name? (status : Status) : Option String :=
  if status = ignoreMessage then some "IGNORE_MESSAGE"
  else if status = done then some "DONE"
  else if status = doneWithReply then some "DONE_WITH_REPLY"
  else if status = unknownError then some "UNKNOWN_ERROR"
  else none

def digits (status : Status) : String := Decimal.intText status.code.toInt

/-- The code, with its name in brackets if it has one. -/
def text (status : Status) : String :=
  match status.name? with
  | some name => s!"{status.digits} ({name})"
  | none => status.digits

end Status

/-- A task as the host hands it over. -/
structure InputTask where
  message : String
  correlationId : Option String := none
  originalQueueName : Option String := none
  headers : Option Headers := none
deriving DecidableEq, Inhabited

/-- The header through which a host grants a task a time limit in milliseconds. -/
def timeoutHeader : String := "TimeoutMilliseconds"

namespace InputTask

def withCorrelationId (task : InputTask) (id : String) : InputTask :=
  { task with correlationId := some id }

def withOriginalQueueName (task : InputTask) (queue : String) : InputTask :=
  { task with originalQueueName := some queue }

/-- Add a header, making the map if the task has none. -/
def withHeader (task : InputTask) (key value : String) : InputTask :=
  { task with headers := some ((task.headers.getD .empty).insert key value) }

def header? (task : InputTask) (key : String) : Option String :=
  task.headers.bind (·.find? key)

/-- The time limit of the task in milliseconds. A value that is negative, too large for a signed
64-bit number or no decimal number means that there is none. -/
def timeoutMillis? (task : InputTask) : Option Nat := do
  let value ← task.header? timeoutHeader
  let millis ← Decimal.readInt? (trimChars value.toList)
  if 0 ≤ millis ∧ millis < 0x8000000000000000 then some millis.toNat else none

end InputTask

/-- The result of a task as the worker hands it back. -/
structure OutputTask where
  message : String
  status : Status
  headers : Option Headers := none
  replyQueueName : Option String := none
deriving DecidableEq, Inhabited

namespace OutputTask

def done (message : String) : OutputTask := { message, status := .done }

/-- A completed task whose reply goes to a queue. -/
def replyTo (message queue : String) : OutputTask :=
  { message, status := .doneWithReply, replyQueueName := some queue }

def ignore (message : String) : OutputTask := { message, status := .ignoreMessage }

def withHeaders (task : OutputTask) (headers : Option Headers) : OutputTask :=
  { task with headers }

end OutputTask

end FramedTasks
