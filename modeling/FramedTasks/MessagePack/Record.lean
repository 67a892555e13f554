import FramedTasks.Json.Record
import FramedTasks.MessagePack.Item

/-! # Records in MessagePack

A record is a map whose keys are fields under any of their names, or a list of field values in
order. A key may also be a byte string that spells a name, or the place of a field as an unsigned
number. Bytes after the record are not looked at.
-/

namespace FramedTasks.MessagePack

def readOptionalString (depth : Nat) (bytes : Bytes) : Except Fault (Option String × Bytes) := do
  let (marker, rest) ← readMarker bytes
  if marker = .nil then .ok (none, rest)
  else
    let (head, rest) ← readHead marker rest
    let (text, rest) ← readString.readStringContent depth head rest
    .ok (some text, rest)

/-- Read a status code. An item that is no number, boolean or nil is refused by its marker. -/
def readStatus (bytes : Bytes) : Except Fault (Status × Bytes) := do
  let (marker, rest) ← readMarker bytes
  match marker with
  | .nil | .bool _ | .fixPos _ | .fixNeg _ | .unsigned _ | .signed _ | .float _ =>
    let (head, rest) ← readHead marker rest
    match head with
    | .unsigned value => ofInteger value rest
    | .signed value => ofInteger value rest
    | head => failType depthLimit .status head rest
  | marker => .error (.wrongMarker marker)
where
  ofInteger (value : Int) (rest : Bytes) : Except Fault (Status × Bytes) :=
    match Status.ofInt? value with
    | some status => .ok (status, rest)
    | none => .error (.record (.wrongValue (.integer value) .status))

def readHeaders (depth : Nat) (bytes : Bytes) : Except Fault (Option Headers × Bytes) := do
  let (marker, rest) ← readMarker bytes
  if marker = .nil then .ok (none, rest)
  else
    let (head, rest) ← readHead marker rest
    match head with
    | .map length =>
      let (members, rest) ← readMembers (← enter depth) false length [] (stepBound rest) rest
      .ok (some (Json.headersOf members), rest)
    | head => failType depth .map head rest

def readField (depth : Nat) (kind : FieldKind) (bytes : Bytes) :
    Except Fault (FieldValue × Bytes) :=
  match kind with
  | .text => (readString depth bytes).map fun (value, rest) => (.text value, rest)
  | .status => (readStatus bytes).map fun (value, rest) => (.status value, rest)
  | .optionalText =>
    (readOptionalString depth bytes).map fun (value, rest) => (.optionalText value, rest)
  | .headers => (readHeaders depth bytes).map fun (value, rest) => (.headers value, rest)

/-- Read a key of a record: the place of the field that it stands for, if it is one. -/
def readFieldKey (schema : Schema) (depth : Nat) (bytes : Bytes) :
    Except Fault (Option Nat × Bytes) := do
  let (head, rest) ← readItemHead bytes
  match head with
  | .unsigned value => .ok (if value < schema.fields.length then some value else none, rest)
  | .text length | .bytes length =>
    let (content, rest) ← readContent length rest
    match Utf8.decode content with
    | .ok name => .ok (schema.index? name, rest)
    | .error _ => .ok (none, rest)
  | head => failType depth .fieldName head rest

/-- Read the remaining members of a map into a draft of a record. -/
def readDraft (schema : Schema) (depth count : Nat) (draft : Draft) :
    Nat → Bytes → Except Fault (List FieldValue × Bytes)
  | 0, _ => .error .noMarker
  | fuel + 1, bytes => do
    if count = 0 then
      match Draft.finish schema.fields draft with
      | .ok values => .ok (values, bytes)
      | .error name => .error (.record (.missingField name))
    else
      let (index?, rest) ← readFieldKey schema depth bytes
      match index? with
      | none =>
        let rest ← skipItem depth (stepBound rest) rest
        readDraft schema depth (count - 1) draft fuel rest
      | some index =>
        match schema.fields[index]? with
        | none => .error .noMarker
        | some field =>
          if draft.has index then .error (.record (.duplicateField field.name))
          else
            let (value, rest) ← readField depth field.kind rest
            readDraft schema depth (count - 1) (draft.put index value) fuel rest

/-- Read field values in order from the remaining items of a list. The list may end before its
optional fields, and must not go on after the last. -/
def readValues (schema : Schema) (depth length : Nat) (index : Nat) (reversed : List FieldValue) :
    List Field → Bytes → Except Fault (List FieldValue × Bytes)
  | [], bytes =>
    if index < length then .error (.wrongLength index) else .ok (reversed.reverse, bytes)
  | field :: fields, bytes =>
    if index < length then do
      let (value, rest) ← readField depth field.kind bytes
      readValues schema depth length (index + 1) (value :: reversed) fields rest
    else
      match field.default? with
      | some value => readValues schema depth length (index + 1) (value :: reversed) fields bytes
      | none => .error (.record (.tooShort index schema))

/-- The fault of a byte string in place of a record: it is taken as a list of small numbers, and
the first of them is no text. -/
def failBytes {α : Type} (schema : Schema) (content : Bytes) : Except Fault α :=
  match content with
  | [] => .error (.record (.tooShort 0 schema))
  | byte :: _ => .error (.record (.wrongType (.integer byte.toNat) .text))

def readFields (schema : Schema) (bytes : Bytes) : Except Fault (List FieldValue × Bytes) := do
  let (head, rest) ← readItemHead bytes
  match head with
  | .list length =>
    readValues schema (depthLimit - 1) length 0 [] schema.fields rest
  | .map length =>
    readDraft schema (depthLimit - 1) length (Draft.empty schema) (stepBound rest) rest
  | .bytes length =>
    let (content, _) ← readContent length rest
    failBytes schema content
  | head => failType depthLimit (.record schema.title) head rest

/-- The field values of the record that a payload starts with. -/
def decodeFields (schema : Schema) (payload : Bytes) : Except Fault (List FieldValue) :=
  (readFields schema payload).map (·.1)

def marked (marker : UInt8) (width number : Nat) : Bytes := marker :: Bytes.bigEndian width number

/-- A text, its length in the fewest bytes. -/
def encodeText (text : String) : Bytes :=
  let content := Utf8.encode text
  let length := content.length
  (if length < 32 then [UInt8.ofNat (0xA0 + length)]
    else if length < 256 then marked 0xD9 1 length
    else if length < 65536 then marked 0xDA 2 length
    else marked 0xDB 4 length) ++ content

/-- The head of a map, its length in the fewest bytes. -/
def encodeMapHead (length : Nat) : Bytes :=
  if length < 16 then [UInt8.ofNat (0x80 + length)]
  else if length < 65536 then marked 0xDE 2 length
  else marked 0xDF 4 length

/-- A 32-bit integer in the fewest bytes. -/
def encodeInteger (value : Int) : Bytes :=
  if 0 ≤ value then
    let magnitude := value.toNat
    if magnitude < 128 then [UInt8.ofNat magnitude]
    else if magnitude < 256 then marked 0xCC 1 magnitude
    else if magnitude < 65536 then marked 0xCD 2 magnitude
    else marked 0xCE 4 magnitude
  else if -32 ≤ value then [UInt8.ofNat (value + 256).toNat]
  else if -128 ≤ value then marked 0xD0 1 (value + 256).toNat
  else if -32768 ≤ value then marked 0xD1 2 (value + 65536).toNat
  else marked 0xD2 4 (value + 4294967296).toNat

def encodeValue : FieldValue → Bytes
  | .text value => encodeText value
  | .status value => encodeInteger value.code.toInt
  | .optionalText (some value) => encodeText value
  | .optionalText none => [0xC0]
  | .headers (some headers) =>
    encodeMapHead headers.entries.length ++
      headers.entries.flatMap fun entry => encodeText entry.1 ++ encodeText entry.2
  | .headers none => [0xC0]

/-- The payload of a record given by named field values. -/
def encodeFields (fields : List (String × FieldValue)) : Bytes :=
  encodeMapHead fields.length ++
    fields.flatMap fun field => encodeText field.1 ++ encodeValue field.2

end FramedTasks.MessagePack
