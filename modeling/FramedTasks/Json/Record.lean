import FramedTasks.Json.Reader

/-! # Records in JSON

A record is an object whose members are fields under any of their names, or a list of field
values in order. Members under other names are passed over. Header values that are no texts are
kept as their compact text, and null ones are dropped.
-/

namespace FramedTasks.Json

/-- A fault of the record at the first unread byte. -/
def failRecord {α : Type} (fault : RecordFault) (unread : Bytes) : Except Fault α :=
  failAt (.record fault) unread

/-- The fault of a value of another type than the wanted one. Scalars are read before they are
reported; of lists and objects only the bracket is looked at. -/
def failType {α : Type} (wanted : Wanted) (bytes : Bytes) : Except Fault α :=
  match bytes with
  | [] => failAfter .expectedValue []
  | byte :: rest =>
    if byte = 0x6E then do failRecord (.wrongType .nil wanted) (← readWord nullTail rest)
    else if byte = 0x74 then do
      failRecord (.wrongType (.bool true) wanted) (← readWord trueTail rest)
    else if byte = 0x66 then do
      failRecord (.wrongType (.bool false) wanted) (← readWord falseTail rest)
    else if byte = 0x22 then do
      let (text, rest) ← readText rest
      failRecord (.wrongType (.text text) wanted) rest
    else if byte = 0x2D then do
      let (number, rest) ← readNumber false rest
      failRecord (.wrongType (foundNumber number) wanted) rest
    else if isDigit byte then do
      let (number, rest) ← readNumber true bytes
      failRecord (.wrongType (foundNumber number) wanted) rest
    else if byte = 0x5B then failRecord (.wrongType .sequence wanted) bytes
    else if byte = 0x7B then failRecord (.wrongType .map wanted) bytes
    else failAfter .expectedValue bytes
where
  foundNumber : Number → Found
    | .integer value => .integer value
    | .number value => .number value

def readString (bytes : Bytes) : Except Fault (String × Bytes) :=
  match skipBlank bytes with
  | [] => failAfter .endInValue []
  | byte :: rest => if byte = 0x22 then readText rest else failType .text (byte :: rest)

def readOptionalString (bytes : Bytes) : Except Fault (Option String × Bytes) :=
  match skipBlank bytes with
  | [] => failAfter .endInValue []
  | byte :: rest =>
    if byte = 0x6E then do
      let rest ← readWord nullTail rest
      .ok (none, rest)
    else do
      let (text, rest) ← readString (byte :: rest)
      .ok (some text, rest)

def readStatus (bytes : Bytes) : Except Fault (Status × Bytes) :=
  match skipBlank bytes with
  | [] => failAfter .endInValue []
  | byte :: rest =>
    if byte = 0x2D then do ofNumber (← readNumber false rest)
    else if isDigit byte then do ofNumber (← readNumber true (byte :: rest))
    else failType .status (byte :: rest)
where
  ofNumber : Number × Bytes → Except Fault (Status × Bytes)
    | (.integer value, rest) =>
      match Status.ofInt? value with
      | some status => .ok (status, rest)
      | none => failRecord (.wrongValue (.integer value) .status) rest
    | (.number value, rest) => failRecord (.wrongType (.number value) .status) rest

def headerText? : Value → Option String
  | .null => none
  | .text text => some text
  | value => some value.compact

/-- The headers of an object: the texts of its members that are not null. -/
def headersOf (members : List (String × Value)) : Headers :=
  Headers.ofList (members.filterMap fun member =>
    (headerText? member.2).map fun text => (member.1, text))

/-- Read headers or null, nested less than `depth` deep. -/
def readHeaders (depth : Nat) (bytes : Bytes) : Except Fault (Option Headers × Bytes) :=
  match skipBlank bytes with
  | [] => failAfter .endInValue []
  | byte :: rest =>
    if byte = 0x6E then do
      let rest ← readWord nullTail rest
      .ok (none, rest)
    else if byte = 0x7B then
      if depth ≤ 1 then failAfter .tooDeep (byte :: rest)
      else do
        let (members, rest) ← readMembers (depth - 1) true [] (stepBound rest) rest
        .ok (some (headersOf members), rest)
    else failType .map (byte :: rest)

def readField (depth : Nat) (kind : FieldKind) (bytes : Bytes) :
    Except Fault (FieldValue × Bytes) :=
  match kind with
  | .text => (readString bytes).map fun (value, rest) => (.text value, rest)
  | .status => (readStatus bytes).map fun (value, rest) => (.status value, rest)
  | .optionalText => (readOptionalString bytes).map fun (value, rest) => (.optionalText value, rest)
  | .headers => (readHeaders depth bytes).map fun (value, rest) => (.headers value, rest)

/-- Where a fault of a whole object is reported: after its closing brace if that comes next. -/
def afterBrace (bytes : Bytes) : Bytes :=
  match skipBlank bytes with
  | [] => []
  | byte :: rest => if byte = 0x7D then rest else byte :: rest

/-- Read the members of an object into a draft of a record, to the closing brace. -/
def readDraft (schema : Schema) (depth : Nat) (first : Bool) (draft : Draft) :
    Nat → Bytes → Except Fault (List FieldValue × Bytes)
  | 0, bytes => failAfter .endInObject bytes
  | fuel + 1, bytes => do
    match ← nextKey first bytes with
    | (false, bytes) =>
      match Draft.finish schema.fields draft with
      | .ok values => .ok (values, bytes.tail)
      | .error name => failRecord (.missingField name) bytes.tail
    | (true, bytes) =>
      let (key, rest) ← readText bytes
      match schema.index? key with
      | none =>
        let rest ← skipValue (← readColon rest)
        readDraft schema depth false draft fuel rest
      | some index =>
        match schema.fields[index]? with
        | none => failAfter .endInObject rest
        | some field =>
          if draft.has index then failRecord (.duplicateField field.name) (afterBrace rest)
          else
            let (value, rest) ← readField depth field.kind (← readColon rest)
            readDraft schema depth false (draft.put index value) fuel rest

/-- Read field values in order from the items of a list, and return the bytes after them. A list
may end before its optional fields. -/
def readValues (schema : Schema) (depth index : Nat) (reversed : List FieldValue) :
    List Field → Bytes → Except Fault (List FieldValue × Bytes)
  | [], bytes => .ok (reversed.reverse, bytes)
  | field :: fields, bytes => do
    match ← nextItem (index == 0) bytes with
    | (true, bytes) =>
      let (value, rest) ← readField depth field.kind bytes
      readValues schema depth (index + 1) (value :: reversed) fields rest
    | (false, bytes) =>
      match field.default? with
      | some value => readValues schema depth (index + 1) (value :: reversed) fields bytes
      | none => failRecord (.tooShort index schema) bytes.tail

def readListEnd (bytes : Bytes) : Except Fault Bytes :=
  match skipBlank bytes with
  | [] => failAfter .endInList []
  | byte :: rest =>
    if byte = 0x5D then .ok rest
    else if byte = 0x2C then
      match skipBlank rest with
      | [] => failAfter .trailingCharacters []
      | next :: more =>
        if next = 0x5D then failAfter .trailingComma (next :: more)
        else failAfter .trailingCharacters (next :: more)
    else failAfter .trailingCharacters (byte :: rest)

def readFields (schema : Schema) (bytes : Bytes) : Except Fault (List FieldValue × Bytes) :=
  match skipBlank bytes with
  | [] => failAfter .endInValue []
  | byte :: rest =>
    if byte = 0x5B then do
      let (values, rest) ← readValues schema (depthLimit - 1) 0 [] schema.fields rest
      let rest ← readListEnd rest
      .ok (values, rest)
    else if byte = 0x7B then
      readDraft schema (depthLimit - 1) true (Draft.empty schema) (stepBound rest) rest
    else failType (.record schema.title) (byte :: rest)

/-- The field values of the record that a payload holds; nothing but blanks may follow it. -/
def decodeFields (schema : Schema) (payload : Bytes) : Except Fault (List FieldValue) := do
  let (values, rest) ← readFields schema payload
  match skipBlank rest with
  | [] => .ok values
  | rest => failAfter .trailingCharacters rest

def fieldChars : FieldValue → List Char
  | .text value => quoteChars value
  | .status value => Decimal.intChars value.code.toInt
  | .optionalText (some value) => quoteChars value
  | .optionalText none => Value.chars .null
  | .headers (some headers) =>
    Value.chars (.object (headers.entries.map fun entry => (entry.1, .text entry.2)))
  | .headers none => Value.chars .null

/-- Members separated by commas, each a name and the text of its value. -/
def joinMembers : List (String × List Char) → List Char
  | [] => []
  | [(name, value)] => quoteChars name ++ ':' :: value
  | (name, value) :: rest => quoteChars name ++ ':' :: value ++ ',' :: joinMembers rest

/-- The payload of a record given by named field values. -/
def encodeFields (fields : List (String × FieldValue)) : Bytes :=
  Utf8.encodeChars
    ('\x7b' :: joinMembers (fields.map fun field => (field.1, fieldChars field.2)) ++ ['\x7d'])

end FramedTasks.Json
