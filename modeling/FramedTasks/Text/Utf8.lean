import FramedTasks.Bytes

/-! # UTF-8

A byte string splits into pieces in one way: well-formed characters, and maximal ill-formed runs
between them. Strict decoding stops at the first ill-formed piece and reports where it stands;
lenient decoding puts one replacement character for each of them.
-/

namespace FramedTasks.Utf8

open FramedTasks (Bytes)

/-- One step of a left-to-right reading of bytes. -/
inductive Piece where
  /-- A well-formed character. -/
  | char (c : Char)
  /-- An ill-formed run of the given length, longest possible start of a character. -/
  | bad (width : Nat)
  /-- The bytes end inside a character. -/
  | cut
deriving DecidableEq, Repr

/-- Where strict decoding stopped: after `validUpTo` good bytes, at an ill-formed run of
`width` bytes, or at the end of the bytes in the middle of a character. -/
structure Fault where
  validUpTo : Nat
  width : Option Nat
deriving DecidableEq, Repr

def Fault.message (fault : Fault) : String :=
  match fault.width with
  | some width => s!"invalid utf-8 sequence of {width} bytes from index {fault.validUpTo}"
  | none => s!"incomplete utf-8 byte sequence from index {fault.validUpTo}"

/-- Where a reader stands between two bytes: at the start of a character, or inside one. Inside,
`width` bytes have been read, `value` collects their payload, `need` more are due, and the next
of them must lie between `low` and `high`. -/
inductive State where
  | ready
  | inside (width value need : Nat) (low high : UInt8)
deriving DecidableEq, Repr

/-- The reading of a byte at the start of a character. The bounds on the second byte keep out
overlong forms, surrogates and numbers above the last code point. -/
def State.start (byte : UInt8) : List Piece × State :=
  if byte < 0x80 then ([.char (Char.ofNat byte.toNat)], .ready)
  else if byte < 0xC2 then ([.bad 1], .ready)
  else if byte < 0xE0 then ([], .inside 1 (byte.toNat % 32) 1 0x80 0xBF)
  else if byte = 0xE0 then ([], .inside 1 (byte.toNat % 16) 2 0xA0 0xBF)
  else if byte = 0xED then ([], .inside 1 (byte.toNat % 16) 2 0x80 0x9F)
  else if byte < 0xF0 then ([], .inside 1 (byte.toNat % 16) 2 0x80 0xBF)
  else if byte = 0xF0 then ([], .inside 1 (byte.toNat % 8) 3 0x90 0xBF)
  else if byte < 0xF4 then ([], .inside 1 (byte.toNat % 8) 3 0x80 0xBF)
  else if byte = 0xF4 then ([], .inside 1 (byte.toNat % 8) 3 0x80 0x8F)
  else ([.bad 1], .ready)

/-- The pieces that one more byte completes, and the state after it. -/
def State.feed : State → UInt8 → List Piece × State
  | .ready, byte => State.start byte
  | .inside width value need low high, byte =>
    if low ≤ byte ∧ byte ≤ high then
      let value := value * 64 + byte.toNat % 64
      if need ≤ 1 then ([.char (Char.ofNat value)], .ready)
      else ([], .inside (width + 1) value (need - 1) 0x80 0xBF)
    else
      let (started, next) := State.start byte
      (.bad width :: started, next)

/-- The pieces that the end of the bytes completes. -/
def State.finish : State → List Piece
  | .ready => []
  | .inside .. => [.cut]

/-- Split bytes into characters and ill-formed runs, from a state on. -/
def piecesFrom (state : State) : Bytes → List Piece
  | [] => state.finish
  | byte :: rest =>
    let (completed, next) := state.feed byte
    completed ++ piecesFrom next rest

/-- Split bytes into characters and ill-formed runs. -/
def pieces (bytes : Bytes) : List Piece := piecesFrom .ready bytes

/-- The characters before the first ill-formed piece, with the fault that stands there. -/
def collect (offset : Nat) (acc : List Char) : List Piece → Except Fault (List Char)
  | [] => .ok acc.reverse
  | .char c :: rest => collect (offset + c.utf8Size) (c :: acc) rest
  | .bad width :: _ => .error ⟨offset, some width⟩
  | .cut :: _ => .error ⟨offset, none⟩

/-- Strict decoding: every byte must belong to a well-formed character. -/
def decode (bytes : Bytes) : Except Fault String :=
  (collect 0 [] (pieces bytes)).map String.ofList

/-- The length of the characters before the first ill-formed piece. -/
def soundLength : List Piece → Nat
  | .char c :: rest => c.utf8Size + soundLength rest
  | _ => 0

/-- The character that stands for a piece in lenient decoding. -/
def Piece.shown : Piece → Char
  | .char c => c
  | .bad _ | .cut => '\uFFFD'

/-- Lenient decoding: each ill-formed piece becomes one replacement character. -/
def decodeLenient (bytes : Bytes) : String :=
  String.ofList ((pieces bytes).map Piece.shown)

def encodeChars (chars : List Char) : Bytes :=
  chars.flatMap String.utf8EncodeChar

def encode (text : String) : Bytes := encodeChars text.toList

end FramedTasks.Utf8
