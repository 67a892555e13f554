import FramedTasks.Json.Token

/-! # Reading and skipping JSON values

`readValue` builds the value at the front of the unread bytes; lists and objects may nest to a
limit. `skipValue` passes over a value that nobody wants: it checks the shape, sets no limit on
nesting and does not look at the characters of texts. Both take a bound on their steps, which the
number of unread bytes provides.
-/

namespace FramedTasks.Json

def depthLimit : Nat := 128

/-- A number of steps that suffices for any reading of the bytes. -/
def stepBound (bytes : Bytes) : Nat := 2 * bytes.length + 2

/-- The first item of a list or the next one: whether there is one, and the bytes from it on. The
bytes from the closing bracket on, if there is none. -/
def nextItem (first : Bool) (bytes : Bytes) : Except Fault (Bool × Bytes) :=
  match skipBlank bytes with
  | [] => failAfter .endInList []
  | byte :: rest =>
    if byte = 0x5D then .ok (false, byte :: rest)
    else if first then .ok (true, byte :: rest)
    else if byte = 0x2C then
      match skipBlank rest with
      | [] => failAfter .endInValue []
      | next :: more =>
        if next = 0x5D then failAfter .trailingComma (next :: more) else .ok (true, next :: more)
    else failAfter .expectedCommaOrListEnd (byte :: rest)

/-- The first key of an object or the next one: the bytes after its opening quote, or the bytes
from the closing brace on if there is none. -/
def nextKey (first : Bool) (bytes : Bytes) : Except Fault (Bool × Bytes) :=
  match skipBlank bytes with
  | [] => failAfter .endInObject []
  | byte :: rest =>
    if byte = 0x7D then .ok (false, byte :: rest)
    else if first then
      if byte = 0x22 then .ok (true, rest) else failAfter .keyNotText (byte :: rest)
    else if byte = 0x2C then
      match skipBlank rest with
      | [] => failAfter .endInValue []
      | next :: more =>
        if next = 0x22 then .ok (true, more)
        else if next = 0x7D then failAfter .trailingComma (next :: more)
        else failAfter .keyNotText (next :: more)
    else failAfter .expectedCommaOrObjectEnd (byte :: rest)

/-- Pass over the colon between a key and its value. -/
def readColon (bytes : Bytes) : Except Fault Bytes :=
  match skipBlank bytes with
  | [] => failAfter .endInObject []
  | byte :: rest => if byte = 0x3A then .ok rest else failAfter .expectedColon (byte :: rest)

mutual

/-- Read a value that may hold lists and objects nested less than `depth` deep. -/
def readValue (depth : Nat) : Nat → Bytes → Except Fault (Value × Bytes)
  | 0, bytes => failAfter .endInValue bytes
  | fuel + 1, bytes =>
    match skipBlank bytes with
    | [] => failAfter .endInValue []
    | byte :: rest =>
      if byte = 0x6E then do
        let rest ← readWord nullTail rest
        .ok (.null, rest)
      else if byte = 0x74 then do
        let rest ← readWord trueTail rest
        .ok (.bool true, rest)
      else if byte = 0x66 then do
        let rest ← readWord falseTail rest
        .ok (.bool false, rest)
      else if byte = 0x22 then do
        let (text, rest) ← readText rest
        .ok (.text text, rest)
      else if byte = 0x2D then do
        let (number, rest) ← readNumber false rest
        .ok (ofNumber number, rest)
      else if isDigit byte then do
        let (number, rest) ← readNumber true (byte :: rest)
        .ok (ofNumber number, rest)
      else if byte = 0x5B then
        if depth ≤ 1 then failAfter .tooDeep (byte :: rest)
        else do
          let (items, rest) ← readItems (depth - 1) true [] fuel rest
          .ok (.list items, rest)
      else if byte = 0x7B then
        if depth ≤ 1 then failAfter .tooDeep (byte :: rest)
        else do
          let (members, rest) ← readMembers (depth - 1) true [] fuel rest
          .ok (.object members, rest)
      else failAfter .expectedValue (byte :: rest)
where
  ofNumber : Number → Value
    | .integer value => .integer value
    | .number value => .number value

/-- Read the items of a list to its closing bracket, after items that are collected in reverse. -/
def readItems (depth : Nat) (first : Bool) (reversed : List Value) :
    Nat → Bytes → Except Fault (List Value × Bytes)
  | 0, bytes => failAfter .endInList bytes
  | fuel + 1, bytes => do
    match ← nextItem first bytes with
    | (false, bytes) => .ok (reversed.reverse, bytes.tail)
    | (true, bytes) =>
      let (item, rest) ← readValue depth fuel bytes
      readItems depth false (item :: reversed) fuel rest

/-- Read the members of an object to its closing brace, after members already in key order. -/
def readMembers (depth : Nat) (first : Bool) (members : List (String × Value)) :
    Nat → Bytes → Except Fault (List (String × Value) × Bytes)
  | 0, bytes => failAfter .endInObject bytes
  | fuel + 1, bytes => do
    match ← nextKey first bytes with
    | (false, bytes) => .ok (members, bytes.tail)
    | (true, bytes) =>
      let (key, rest) ← readText bytes
      let rest ← readColon rest
      let (value, rest) ← readValue depth fuel rest
      readMembers depth false (Keyed.insert key value members) fuel rest

end

/-- What a value that is being skipped is inside of. -/
inductive Enclosure where
  | list
  | object
deriving DecidableEq, Repr

/-- The fault of bytes that end inside an enclosure. -/
def Enclosure.endCause : Enclosure → Cause
  | .list => .endInList
  | .object => .endInObject

/-- The fault of a byte where a comma or the end of an enclosure should be. -/
def Enclosure.commaCause : Enclosure → Cause
  | .list => .expectedCommaOrListEnd
  | .object => .expectedCommaOrObjectEnd

def Enclosure.closing : Enclosure → UInt8
  | .list => 0x5D
  | .object => 0x7D

/-- In an object, pass over the key and the colon before the next value. -/
def Enclosure.skipKey (enclosure : Enclosure) (bytes : Bytes) : Except Fault Bytes :=
  match enclosure with
  | .list => .ok bytes
  | .object =>
    match skipBlank bytes with
    | [] => failAfter .endInObject []
    | byte :: rest =>
      if byte = 0x22 then do
        let rest ← skipText rest
        readColon rest
      else failAfter .keyNotText (byte :: rest)

mutual

/-- Pass over a value inside the given enclosures, innermost first, and over what follows it to
the end of the outermost one. -/
def skipInside : Nat → List Enclosure → Bytes → Except Fault Bytes
  | 0, _, bytes => failAfter .endInValue bytes
  | fuel + 1, enclosures, bytes =>
    match skipBlank bytes with
    | [] => failAfter .endInValue []
    | byte :: rest =>
      if byte = 0x6E then do skipAfter fuel true enclosures (← readWord nullTail rest)
      else if byte = 0x74 then do skipAfter fuel true enclosures (← readWord trueTail rest)
      else if byte = 0x66 then do skipAfter fuel true enclosures (← readWord falseTail rest)
      else if byte = 0x2D then do skipAfter fuel true enclosures (← skipNumber rest)
      else if isDigit byte then do skipAfter fuel true enclosures (← skipNumber (byte :: rest))
      else if byte = 0x22 then do skipAfter fuel true enclosures (← skipText rest)
      else if byte = 0x5B then skipAfter fuel false (.list :: enclosures) rest
      else if byte = 0x7B then skipAfter fuel false (.object :: enclosures) rest
      else failAfter .expectedValue (byte :: rest)

/-- Pass over what may follow inside the innermost enclosure: its end, or the next value. A comma
is due before the next value unless the enclosure was just opened. -/
def skipAfter : Nat → Bool → List Enclosure → Bytes → Except Fault Bytes
  | 0, _, _, bytes => failAfter .endInValue bytes
  | _ + 1, _, [], bytes => .ok bytes
  | fuel + 1, comma, enclosure :: outer, bytes =>
    match skipBlank bytes with
    | [] => failAfter enclosure.endCause []
    | byte :: rest =>
      if comma ∧ byte = 0x2C then do
        skipInside fuel (enclosure :: outer) (← enclosure.skipKey rest)
      else if byte = enclosure.closing then skipAfter fuel true outer rest
      else if comma then failAfter enclosure.commaCause (byte :: rest)
      else do
        skipInside fuel (enclosure :: outer) (← enclosure.skipKey (byte :: rest))

end

def skipValue (bytes : Bytes) : Except Fault Bytes := skipInside (stepBound bytes) [] bytes

end FramedTasks.Json
