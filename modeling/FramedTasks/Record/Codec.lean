import FramedTasks.Json.Record
import FramedTasks.MessagePack.Record

/-! # Payloads of records

A codec is a wire format and a key convention. The convention matters for writing only: positional
keys write every field, an absent one as nil, and named keys leave absent fields out. Reading
accepts every name of a field in either format.
-/

namespace FramedTasks

inductive WireFormat where
  | messagePack
  | json
deriving DecidableEq, Repr, Inhabited

inductive KeyConvention where
  /-- Digits in field order. -/
  | positional
  /-- The fields' own names. -/
  | named
deriving DecidableEq, Repr, Inhabited

structure Codec where
  format : WireFormat := .messagePack
  keys : KeyConvention := .positional
deriving DecidableEq, Repr, Inhabited

/-- Why a payload is no record. -/
inductive CodecError where
  | messagePack (fault : MessagePack.Fault)
  | json (cause : Json.Cause) (place : Json.Position)
deriving DecidableEq, Repr

def CodecError.message : CodecError → String
  | .messagePack fault => s!"msgpack decode error: {fault.message}"
  | .json cause place => s!"json error: {cause.message} {place.message}"

namespace Codec

def isPresent : FieldValue → Bool
  | .optionalText none | .headers none => false
  | _ => true

/-- The named values that a convention writes for a record. -/
def KeyConvention.fields (keys : KeyConvention) (schema : Schema) (values : List FieldValue) :
    List (String × FieldValue) :=
  let fields := schema.fields.zip values
  match keys with
  | .positional => fields.map fun field => (field.1.digit, field.2)
  | .named =>
    (fields.filter fun field => isPresent field.2).map fun field => (field.1.name, field.2)

def encode {α : Type} [Record α] (codec : Codec) (record : α) : Bytes :=
  let fields := KeyConvention.fields codec.keys (Record.schema α) (Record.values record)
  match codec.format with
  | .messagePack => MessagePack.encodeFields fields
  | .json => Json.encodeFields fields

def decodeFields (codec : Codec) (schema : Schema) (payload : Bytes) :
    Except CodecError (List FieldValue) :=
  match codec.format with
  | .messagePack => (MessagePack.decodeFields schema payload).mapError .messagePack
  | .json =>
    (Json.decodeFields schema payload).mapError fun fault => .json fault.cause (fault.place payload)

def decode {α : Type} [Record α] (codec : Codec) (payload : Bytes) : Except CodecError α :=
  (codec.decodeFields (Record.schema α) payload).map Record.ofValues

end Codec

end FramedTasks
