import FramedTasks.Json.Basic
import FramedTasks.MessagePack.Marker
import FramedTasks.Record.Fault
import FramedTasks.Text.Utf8

/-! # Items of MessagePack

An item is read in two steps: its head, which for texts, byte strings, lists, maps and extensions
is a length, and then its content. `skipItem` passes over a whole item and `readValue` reads one
that is to become a JSON value. Nesting is limited.
-/

namespace FramedTasks.MessagePack

inductive Fault where
  /-- The payload ends where a marker should stand. -/
  | noMarker
  /-- The payload ends inside a number, a length or a kind of extension. -/
  | cutNumber
  /-- The payload ends inside the content of a text, byte string or extension. -/
  | cutContent
  /-- A marker that starts no item, or no number where one is wanted. -/
  | wrongMarker (marker : Marker)
  | notUtf8 (fault : Utf8.Fault)
  | tooDeep
  /-- A list with items left over after those that were wanted. -/
  | wrongLength (wanted : Nat)
  | record (fault : RecordFault)
deriving DecidableEq, Repr

/-- Numbers in messages are positional, however long. -/
def numberLayout : Binary64.Layout := { mostBefore := none, mostZeros := none }

def numberText (x : Binary64) : String :=
  if x.isFinite then x.text numberLayout
  else if x.isNaN then "NaN"
  else if x.isNegative then "-inf"
  else "inf"

/-- The words of MessagePack for nil and for numbers. -/
def vocabulary : Vocabulary := { nil := "unit value", number := numberText }

def Fault.message : Fault → String
  | .noMarker => "IO error while reading marker: failed to fill whole buffer"
  | .cutNumber => "IO error while reading data: failed to fill whole buffer"
  | .cutContent => "IO error while reading data: unexpected end of file"
  | .wrongMarker marker => s!"wrong msgpack marker {marker.name}"
  | .notUtf8 fault => s!"string found to be invalid utf8: {fault.message}"
  | .tooDeep => "depth limit exceeded"
  | .wrongLength wanted => s!"array had incorrect length, expected {wanted}"
  | .record fault => fault.message vocabulary

/-- The head of an item. -/
inductive Head where
  | nil
  | bool (value : Bool)
  | unsigned (value : Nat)
  | signed (value : Int)
  | number (value : Binary64)
  | text (length : Nat)
  | bytes (length : Nat)
  | list (length : Nat)
  | map (length : Nat)
  | extension (length : Nat)
deriving DecidableEq, Repr

def readNumber (width : Nat) (bytes : Bytes) : Except Fault (Nat × Bytes) :=
  let digits := bytes.take width
  if digits.length < width then .error .cutNumber
  else .ok (Bytes.toNat digits, bytes.drop width)

def readMarker : Bytes → Except Fault (Marker × Bytes)
  | [] => .error .noMarker
  | byte :: rest => .ok (.ofByte byte, rest)

/-- Read the head of an item from after its marker. -/
def readHead (marker : Marker) (bytes : Bytes) : Except Fault (Head × Bytes) :=
  match marker with
  | .nil => .ok (.nil, bytes)
  | .reserved => .error (.wrongMarker .reserved)
  | .bool value => .ok (.bool value, bytes)
  | .fixPos value => .ok (.unsigned value, bytes)
  | .fixNeg value => .ok (.signed value, bytes)
  | .unsigned width => do
    let (value, rest) ← readNumber width.bytes bytes
    .ok (.unsigned value, rest)
  | .signed width => do
    let (value, rest) ← readNumber width.bytes bytes
    .ok (.signed (Bytes.toSigned width.bytes value), rest)
  | .float width => do
    let (pattern, rest) ← readNumber width.bytes bytes
    .ok (.number (if width = .four then .ofBinary32 (UInt32.ofNat pattern)
      else ⟨UInt64.ofNat pattern⟩), rest)
  | .fixStr length => .ok (.text length, bytes)
  | .str width => do
    let (length, rest) ← readNumber width.bytes bytes
    .ok (.text length, rest)
  | .bin width => do
    let (length, rest) ← readNumber width.bytes bytes
    .ok (.bytes length, rest)
  | .fixArray length => .ok (.list length, bytes)
  | .array width => do
    let (length, rest) ← readNumber width.bytes bytes
    .ok (.list length, rest)
  | .fixMap length => .ok (.map length, bytes)
  | .map width => do
    let (length, rest) ← readNumber width.bytes bytes
    .ok (.map length, rest)
  | .fixExt length => .ok (.extension length, bytes)
  | .ext width => do
    let (length, rest) ← readNumber width.bytes bytes
    .ok (.extension length, rest)

def readItemHead (bytes : Bytes) : Except Fault (Head × Bytes) := do
  let (marker, rest) ← readMarker bytes
  readHead marker rest

def readContent (length : Nat) (bytes : Bytes) : Except Fault (Bytes × Bytes) :=
  let content := bytes.take length
  if content.length < length then .error .cutContent
  else .ok (content, bytes.drop length)

/-- Lists, maps and extensions nest less deep than this. -/
def depthLimit : Nat := 1024

/-- The depth inside a list, map or extension. -/
def enter (depth : Nat) : Except Fault Nat :=
  if depth ≤ 1 then .error .tooDeep else .ok (depth - 1)

/-- The fault of an item of another type than the wanted one. The content of a text is read
before it is reported. -/
def failType {α : Type} (depth : Nat) (wanted : Wanted) (head : Head) (bytes : Bytes) :
    Except Fault α :=
  let fail (found : Found) : Except Fault α := .error (.record (.wrongType found wanted))
  match head with
  | .nil => fail .nil
  | .bool value => fail (.bool value)
  | .unsigned value => fail (.integer value)
  | .signed value => fail (.integer value)
  | .number value => fail (.number value)
  | .text length => do
    let (content, _) ← readContent length bytes
    match Utf8.decode content with
    | .ok text => fail (.text text)
    | .error fault => .error (.notUtf8 fault)
  | .bytes length => do
    let _ ← readContent length bytes
    fail .bytes
  | .list _ => do
    let _ ← enter depth
    fail .sequence
  | .map _ => do
    let _ ← enter depth
    fail .map
  | .extension _ => do
    let _ ← enter depth
    fail .extension

mutual

def skipItem (depth : Nat) : Nat → Bytes → Except Fault Bytes
  | 0, _ => .error .noMarker
  | fuel + 1, bytes => do
    let (head, rest) ← readItemHead bytes
    match head with
    | .nil | .bool _ | .unsigned _ | .signed _ | .number _ => .ok rest
    | .text length | .bytes length =>
      let (_, rest) ← readContent length rest
      .ok rest
    | .list length => skipItems (← enter depth) length fuel rest
    | .map length => skipItems (← enter depth) (2 * length) fuel rest
    | .extension length =>
      let _ ← enter depth
      let (_, rest) ← readNumber 1 rest
      let (_, rest) ← readContent length rest
      .ok rest

def skipItems (depth count : Nat) : Nat → Bytes → Except Fault Bytes
  | 0, _ => .error .noMarker
  | fuel + 1, bytes =>
    if count = 0 then .ok bytes
    else do
      let rest ← skipItem depth fuel bytes
      skipItems depth (count - 1) fuel rest

end

/-- A number of steps that suffices for any reading of the bytes. -/
def stepBound (bytes : Bytes) : Nat := 2 * bytes.length + 2

/-- Read a text; a byte string that holds one will do. -/
def readString (depth : Nat) (bytes : Bytes) : Except Fault (String × Bytes) := do
  let (head, rest) ← readItemHead bytes
  readStringContent depth head rest
where
  readStringContent (depth : Nat) (head : Head) (bytes : Bytes) :
      Except Fault (String × Bytes) :=
    match head with
    | .text length => do
      let (content, rest) ← readContent length bytes
      match Utf8.decode content with
      | .ok text => .ok (text, rest)
      | .error fault => .error (.notUtf8 fault)
    | .bytes length => do
      let (content, rest) ← readContent length bytes
      match Utf8.decode content with
      | .ok text => .ok (text, rest)
      | .error _ => .error (.record (.wrongValue .bytes .text))
    | head => failType depth .text head bytes

/-- Read a text and nothing but a text, as the first key of a map inside a header value. -/
def readKey (depth : Nat) (bytes : Bytes) : Except Fault (String × Bytes) := do
  let (head, rest) ← readItemHead bytes
  match head with
  | .text _ => readString.readStringContent depth head rest
  | head => failType depth .key head rest

open Json (Value) in
mutual

/-- Read an item that is to become a JSON value. A number that JSON has no text for is null. -/
def readValue (depth : Nat) : Nat → Bytes → Except Fault (Value × Bytes)
  | 0, _ => .error .noMarker
  | fuel + 1, bytes => do
    let (head, rest) ← readItemHead bytes
    match head with
    | .nil => .ok (.null, rest)
    | .bool value => .ok (.bool value, rest)
    | .unsigned value => .ok (.integer value, rest)
    | .signed value => .ok (.integer value, rest)
    | .number value => .ok (if value.isFinite then .number value else .null, rest)
    | .text _ =>
      let (text, rest) ← readString.readStringContent depth head rest
      .ok (.text text, rest)
    | .bytes _ | .extension _ => failType depth .anyValue head rest
    | .list length =>
      let (items, rest) ← readItems (← enter depth) length [] fuel rest
      .ok (.list items, rest)
    | .map length =>
      let (members, rest) ← readMembers (← enter depth) true length [] fuel rest
      .ok (.object members, rest)
termination_by structural fuel => fuel

/-- Read a number of items, after items that are collected in reverse. -/
def readItems (depth count : Nat) (reversed : List Value) :
    Nat → Bytes → Except Fault (List Value × Bytes)
  | 0, _ => .error .noMarker
  | fuel + 1, bytes =>
    if count = 0 then .ok (reversed.reverse, bytes)
    else do
      let (item, rest) ← readValue depth fuel bytes
      readItems depth (count - 1) (item :: reversed) fuel rest
termination_by structural fuel => fuel

/-- Read a number of members, after members already in key order. The first key of a map inside
a value must be a text; any other key may be a byte string that holds one. -/
def readMembers (depth : Nat) (strict : Bool) (count : Nat) (members : List (String × Value)) :
    Nat → Bytes → Except Fault (List (String × Value) × Bytes)
  | 0, _ => .error .noMarker
  | fuel + 1, bytes =>
    if count = 0 then .ok (members, bytes)
    else do
      let (key, rest) ← if strict then readKey depth bytes else readString depth bytes
      let (value, rest) ← readValue depth fuel rest
      readMembers depth false (count - 1) (Keyed.insert key value members) fuel rest
termination_by structural fuel => fuel

end

end FramedTasks.MessagePack
