/-! # Decimal integers in text

Reading accepts one or more ASCII digits, for signed numbers after an optional sign; leading zeros
are allowed. Writing uses no sign for a number that is not negative and no leading zero.
-/

namespace FramedTasks.Decimal

def isDigit (c : Char) : Bool := '0' ≤ c && c ≤ '9'

/-- The value of a digit, by its distance from `0`. -/
def digitValue (c : Char) : Nat := c.toNat - '0'.toNat

/-- The number that a list of digits denotes. -/
def ofDigits (digits : List Char) : Nat :=
  digits.foldl (fun number digit => number * 10 + digitValue digit) 0

/-- Read one or more digits, and nothing else. -/
def readDigits? (chars : List Char) : Option Nat :=
  if chars ≠ [] ∧ chars.all isDigit then some (ofDigits chars) else none

/-- Read digits after an optional plus sign. -/
def readNat? : List Char → Option Nat
  | '+' :: rest => readDigits? rest
  | chars => readDigits? chars

/-- Read digits after an optional sign. -/
def readInt? : List Char → Option Int
  | '+' :: rest => (readDigits? rest).map Int.ofNat
  | '-' :: rest => (readDigits? rest).map fun number => -(number : Int)
  | chars => (readDigits? chars).map Int.ofNat

/-- The digits of a number without leading zeros. -/
def natChars (number : Nat) : List Char := Nat.toDigits 10 number

/-- A minus sign for a negative number, then the digits of its magnitude. -/
def intChars (number : Int) : List Char :=
  if number < 0 then '-' :: natChars number.natAbs else natChars number.natAbs

def intText (number : Int) : String := String.ofList (intChars number)

end FramedTasks.Decimal
