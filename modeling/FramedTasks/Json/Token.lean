import FramedTasks.Json.Fault
import FramedTasks.Text.Utf8

/-! # Tokens of JSON

Blanks, words, texts and numbers, each read from the front of the unread bytes. A reader returns
what it read and the bytes after it.
-/

namespace FramedTasks.Json

def isBlank (byte : UInt8) : Bool := byte == 0x20 || byte == 0x09 || byte == 0x0A || byte == 0x0D

/-- The bytes from the first one that is not blank. -/
def skipBlank (bytes : Bytes) : Bytes := bytes.dropWhile isBlank

/-- Read the remaining letters of a word. -/
def readWord : Bytes → Bytes → Except Fault Bytes
  | [], bytes => .ok bytes
  | _ :: _, [] => failAt .endInValue []
  | letter :: letters, byte :: bytes =>
    if byte = letter then readWord letters bytes else failAt .expectedWord bytes

def nullTail : Bytes := [0x75, 0x6C, 0x6C]
def trueTail : Bytes := [0x72, 0x75, 0x65]
def falseTail : Bytes := [0x61, 0x6C, 0x73, 0x65]

def hexDigit? (byte : UInt8) : Option Nat :=
  if 0x30 ≤ byte ∧ byte ≤ 0x39 then some (byte.toNat - 0x30)
  else if 0x41 ≤ byte ∧ byte ≤ 0x46 then some (byte.toNat - 0x41 + 10)
  else if 0x61 ≤ byte ∧ byte ≤ 0x66 then some (byte.toNat - 0x61 + 10)
  else none

def hexNumber? (a b c d : UInt8) : Option Nat := do
  pure ((((← hexDigit? a) * 16 + (← hexDigit? b)) * 16 + (← hexDigit? c)) * 16 + (← hexDigit? d))

/-- The byte that a one-letter escape stands for. -/
def escaped? (letter : UInt8) : Option UInt8 :=
  if letter = 0x22 ∨ letter = 0x5C ∨ letter = 0x2F then some letter
  else if letter = 0x62 then some 0x08
  else if letter = 0x66 then some 0x0C
  else if letter = 0x6E then some 0x0A
  else if letter = 0x72 then some 0x0D
  else if letter = 0x74 then some 0x09
  else none

def isLeadSurrogate (unit : Nat) : Bool := 0xD800 ≤ unit && unit ≤ 0xDBFF

def isTrailSurrogate (unit : Nat) : Bool := 0xDC00 ≤ unit && unit ≤ 0xDFFF

def pairedCodePoint (lead trail : Nat) : Nat := (lead - 0xD800) * 1024 + (trail - 0xDC00) + 0x10000

/-- The bytes of a code point, put before bytes that are collected in reverse. -/
def pushCodePoint (code : Nat) (reversed : Bytes) : Bytes :=
  (String.utf8EncodeChar (Char.ofNat code)).reverse ++ reversed

/-- The bytes that a text denotes, from just after its opening quote to its closing quote, and
what follows. An escape by number must denote a character, a surrogate half only in a pair. -/
def readTextBytes (reversed : Bytes) : Bytes → Except Fault (Bytes × Bytes)
  | [] => failAt .endInText []
  | byte :: rest =>
    if byte = 0x22 then .ok (reversed.reverse, rest)
    else if byte = 0x5C then
      match rest with
      | [] => failAt .endInText []
      | letter :: rest =>
        if letter = 0x75 then
          match rest with
          | a :: b :: c :: d :: rest =>
            match hexNumber? a b c d with
            | none => failAt .invalidEscape rest
            | some unit =>
              if isTrailSurrogate unit then failAt .loneSurrogate rest
              else if isLeadSurrogate unit then
                match rest with
                | [] => failAt .endInText []
                | backslash :: rest =>
                  if backslash ≠ 0x5C then failAt .cutEscape rest
                  else match rest with
                  | [] => failAt .endInText []
                  | letter :: rest =>
                    if letter ≠ 0x75 then failAt .cutEscape rest
                    else match rest with
                    | a :: b :: c :: d :: rest =>
                      match hexNumber? a b c d with
                      | none => failAt .invalidEscape rest
                      | some trail =>
                        if isTrailSurrogate trail then
                          readTextBytes (pushCodePoint (pairedCodePoint unit trail) reversed) rest
                        else failAt .loneSurrogate rest
                    | _ => failAt .endInText []
              else readTextBytes (pushCodePoint unit reversed) rest
          | _ => failAt .endInText []
        else match escaped? letter with
          | some denoted => readTextBytes (denoted :: reversed) rest
          | none => failAt .invalidEscape rest
    else if byte < 0x20 then failAt .controlCharacter rest
    else readTextBytes (byte :: reversed) rest

/-- Read a text from just after its opening quote. Bytes that are no characters are reported at
the first of them: escapes are written in ASCII, so it is also the first of the written text. -/
def readText (bytes : Bytes) : Except Fault (String × Bytes) := do
  let (denoted, rest) ← readTextBytes [] bytes
  match Utf8.decode denoted with
  | .ok text => .ok (text, rest)
  | .error _ => failAfter .invalidCodePoint (bytes.drop (Utf8.soundLength (Utf8.pieces bytes)))

/-- Pass over a text from just after its opening quote, without a look at its characters. -/
def skipText : Bytes → Except Fault Bytes
  | [] => failAt .endInText []
  | byte :: rest =>
    if byte = 0x22 then .ok rest
    else if byte = 0x5C then
      match rest with
      | [] => failAt .endInText []
      | letter :: rest =>
        if letter = 0x75 then
          match rest with
          | a :: b :: c :: d :: rest =>
            if (hexNumber? a b c d).isSome then skipText rest else failAt .invalidEscape rest
          | _ => failAt .endInText []
        else if (escaped? letter).isSome then skipText rest
        else failAt .invalidEscape rest
    else if byte < 0x20 then failAt .controlCharacter (byte :: rest)
    else skipText rest

def isDigit (byte : UInt8) : Bool := 0x30 ≤ byte && byte ≤ 0x39

def digitValue (byte : UInt8) : Nat := byte.toNat - 0x30

/-- A number as it is read: exact if it is an integer of at most 64 bits, otherwise rounded. -/
inductive Number where
  | integer (value : Int)
  | number (value : Binary64)
deriving DecidableEq, Repr

/-- Take digits into a significand for as long as it fits 64 bits; the digits left over follow. -/
def takeDigits (significand : Nat) : Bytes → Nat × Bytes
  | [] => (significand, [])
  | digit :: digits =>
    let next := significand * 10 + digitValue digit
    if next < 0x10000000000000000 then takeDigits next digits else (significand, digit :: digits)

def powerOfTen (exponent : Nat) : Binary64 := Binary64.ofRatio (Nat.pow 10 exponent) 1

/-- The largest power of ten that is finite. -/
def largestPower : Nat := 308

/-- Divide by a power of ten, in several steps if it is not finite. -/
def divideByPower (x : Binary64) (exponent : Nat) : Binary64 :=
  if exponent ≤ largestPower then x.div (powerOfTen exponent)
  else if x.isZero then x
  else divideByPower (x.div (powerOfTen largestPower)) (exponent - largestPower)
termination_by exponent
decreasing_by simp only [largestPower] at *; omega

/-- The number `significand * 10 ^ exponent`, by one multiplication or division of rounded
operands; none if it is too large. -/
def scaled? (significand : Nat) (exponent : Int) : Option Binary64 :=
  let x := Binary64.ofNat significand
  if exponent < 0 then some (divideByPower x exponent.natAbs)
  else if exponent.toNat ≤ largestPower then
    let product := x.mul (powerOfTen exponent.toNat)
    if product.isFinite then some product else none
  else if x.isZero then some x
  else none

/-- The number with the given sign; a magnitude that is too large is a fault. -/
def finish (positive : Bool) (significand : Nat) (exponent : Int) (rest : Bytes) :
    Except Fault (Number × Bytes) :=
  match scaled? significand exponent with
  | some x => .ok (.number (if positive then x else x.neg), rest)
  | none => failAt .numberOutOfRange rest

/-- Read exponent digits until they pass 31 bits: the exponent, whether it passed them, and the
bytes after the last digit read. -/
def readPower (power : Nat) : Bytes → Nat × Bool × Bytes
  | [] => (power, false, [])
  | byte :: rest =>
    if isDigit byte then
      let next := power * 10 + digitValue byte
      if next < 0x80000000 then readPower next rest else (next, true, rest)
    else (power, false, byte :: rest)

def readExponent (positive : Bool) (significand : Nat) (exponent : Int) (bytes : Bytes) :
    Except Fault (Number × Bytes) :=
  let (up, bytes) := match bytes with
    | 0x2B :: rest => (true, rest)
    | 0x2D :: rest => (false, rest)
    | _ => (true, bytes)
  match bytes with
  | [] => failAt .endInValue []
  | byte :: rest =>
    if isDigit byte then
      match readPower 0 bytes with
      | (_, true, rest) =>
        if significand ≠ 0 ∧ up then failAt .numberOutOfRange rest
        else finish positive 0 0 (rest.dropWhile isDigit)
      | (power, false, rest) =>
        finish positive significand (if up then exponent + power else exponent - power) rest
    else failAt .invalidNumber rest

/-- Read what may follow the digits before the point or after it: an exponent or nothing. -/
def readScale (positive : Bool) (significand : Nat) (exponent : Int) (bytes : Bytes) :
    Except Fault (Number × Bytes) :=
  match bytes with
  | byte :: rest =>
    if byte = 0x65 ∨ byte = 0x45 then readExponent positive significand exponent rest
    else finish positive significand exponent bytes
  | [] => finish positive significand exponent []

/-- Read the digits after the point, from just after it. -/
def readFraction (positive : Bool) (significand : Nat) (exponent : Int) (bytes : Bytes) :
    Except Fault (Number × Bytes) :=
  let digits := bytes.takeWhile isDigit
  let rest := bytes.dropWhile isDigit
  if digits.isEmpty then
    match rest with
    | [] => failAt .endInValue []
    | _ => failAfter .invalidNumber rest
  else
    let (significand, unused) := takeDigits significand digits
    readScale positive significand (exponent - (digits.length - unused.length : Nat)) rest

/-- Whether a byte ends the integer part of a number that has more parts. -/
def startsPart (byte : UInt8) : Bool := byte == 0x2E || byte == 0x65 || byte == 0x45

def readNumber (positive : Bool) (bytes : Bytes) : Except Fault (Number × Bytes) :=
  match bytes with
  | [] => failAt .endInValue []
  | first :: after =>
    if !isDigit first then failAt .invalidNumber after
    else
      let digits := if first = 0x30 then [first] else bytes.takeWhile isDigit
      let rest := if first = 0x30 then after else bytes.dropWhile isDigit
      let (significand, unused) := takeDigits 0 digits
      match rest with
      | byte :: more =>
        if first = 0x30 ∧ isDigit byte then failAfter .invalidNumber rest
        else if byte = 0x2E then readFraction positive significand unused.length more
        else if startsPart byte ∨ unused ≠ [] then
          readScale positive significand unused.length rest
        else whole positive significand rest
      | [] =>
        if unused ≠ [] then finish positive significand unused.length []
        else whole positive significand []
where
  /-- An integer of at most 64 bits; negative zero and integers below them are rounded. -/
  whole (positive : Bool) (significand : Nat) (rest : Bytes) : Except Fault (Number × Bytes) :=
    if positive then .ok (.integer significand, rest)
    else if significand = 0 ∨ 0x8000000000000000 < significand then
      .ok (.number (Binary64.ofNat significand).neg, rest)
    else .ok (.integer (-(significand : Int)), rest)

def skipNumber (bytes : Bytes) : Except Fault Bytes :=
  match bytes with
  | [] => failAt .invalidNumber []
  | first :: after =>
    if !isDigit first then failAt .invalidNumber after
    else
      let rest := if first = 0x30 then after else bytes.dropWhile isDigit
      match rest with
      | [] => .ok []
      | byte :: more =>
        if first = 0x30 ∧ isDigit byte then failAfter .invalidNumber rest
        else if byte = 0x2E then
          if (more.takeWhile isDigit).isEmpty then failAfter .invalidNumber more
          else skipExponent (more.dropWhile isDigit)
        else skipExponent rest
where
  /-- Pass over an exponent if one follows. -/
  skipExponent (bytes : Bytes) : Except Fault Bytes :=
    match bytes with
    | [] => .ok []
    | byte :: rest =>
      if byte = 0x65 ∨ byte = 0x45 then
        let rest := match rest with
          | 0x2B :: more => more
          | 0x2D :: more => more
          | _ => rest
        match rest with
        | [] => failAt .invalidNumber []
        | digit :: more =>
          if isDigit digit then .ok (more.dropWhile isDigit) else failAt .invalidNumber more
      else .ok bytes

end FramedTasks.Json
