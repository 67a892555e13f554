/-! # Binary floating-point numbers of 64 bits

A number is its bit pattern. A finite one denotes `significand * 2 ^ scale`; `ofRatio` is the
nearest number to a quotient of naturals, a tie going to the even significand. All arithmetic is
exact arithmetic on naturals followed by one rounding.
-/

namespace FramedTasks

/-- A 64-bit binary floating-point number, as its bit pattern. -/
structure Binary64 where
  bits : UInt64
deriving DecidableEq, Repr

namespace Binary64

def isNegative (x : Binary64) : Bool := 0x8000000000000000 ≤ x.bits.toNat

/-- The number of trailing significands, two to the fifty-second power. -/
def fractionCount : Nat := 0x10000000000000

/-- The biased exponent, eleven bits. -/
def exponentField (x : Binary64) : Nat := x.bits.toNat / fractionCount % 2048

/-- The trailing significand, fifty-two bits. -/
def fraction (x : Binary64) : Nat := x.bits.toNat % fractionCount

def isFinite (x : Binary64) : Bool := x.exponentField != 2047

def isNaN (x : Binary64) : Bool := x.exponentField == 2047 && x.fraction != 0

def significand (x : Binary64) : Nat :=
  if x.exponentField = 0 then x.fraction else fractionCount + x.fraction

/-- The power of two that scales the significand of a finite number. -/
def scale (x : Binary64) : Int :=
  if x.exponentField = 0 then -1074 else (x.exponentField : Int) - 1075

/-- The numerator of the magnitude of a finite number. -/
def numerator (x : Binary64) : Nat := x.significand * Nat.pow 2 x.scale.toNat

/-- The denominator of the magnitude of a finite number, a power of two. -/
def denominator (x : Binary64) : Nat := Nat.pow 2 (-x.scale).toNat

def isZero (x : Binary64) : Bool := x.significand == 0

def infinity : Binary64 := ⟨0x7FF0000000000000⟩

def neg (x : Binary64) : Binary64 := ⟨x.bits ^^^ 0x8000000000000000⟩

/-- The integer nearest to a quotient, a tie going to the even one. -/
def roundQuotient (num den : Nat) : Nat :=
  let quotient := num / den
  let twice := 2 * (num % den)
  if twice < den then quotient
  else if den < twice then quotient + 1
  else quotient + quotient % 2

/-- The largest `k` with `2 ^ k ≤ num / den`, for positive operands. -/
def floorLog2 (num den : Nat) : Int :=
  let guess : Int := (num.log2 : Int) - den.log2
  if num * Nat.pow 2 (-guess).toNat < den * Nat.pow 2 guess.toNat then guess - 1 else guess

/-- The number nearest to `num / den` with `den` positive; infinity from half a step above the
largest finite number on. -/
def ofRatio (num den : Nat) : Binary64 :=
  if num = 0 then ⟨0⟩
  else
    let scale := max (floorLog2 num den - 52) (-1074)
    let significand :=
      roundQuotient (num * Nat.pow 2 (-scale).toNat) (den * Nat.pow 2 scale.toNat)
    let pattern := significand + (scale + 1074).toNat * fractionCount
    if pattern < infinity.bits.toNat then ⟨UInt64.ofNat pattern⟩ else infinity

def ofNat (number : Nat) : Binary64 := ofRatio number 1

/-- The product of two finite magnitudes, rounded once. -/
def mul (x y : Binary64) : Binary64 :=
  ofRatio (x.numerator * y.numerator) (x.denominator * y.denominator)

/-- The quotient of two finite magnitudes, rounded once; the divisor is positive. -/
def div (x y : Binary64) : Binary64 :=
  ofRatio (x.numerator * y.denominator) (x.denominator * y.numerator)

/-- The number that a 32-bit pattern denotes; every such number is exact in 64 bits. -/
def ofBinary32 (pattern : UInt32) : Binary64 :=
  let negative := 0x80000000 ≤ pattern.toNat
  let exponentField := pattern.toNat / 0x800000 % 256
  let fraction := pattern.toNat % 0x800000
  let magnitude : Binary64 :=
    if exponentField = 255 then ⟨infinity.bits + UInt64.ofNat (fraction * 0x20000000)⟩
    else if exponentField = 0 then ofRatio fraction (Nat.pow 2 149)
    else ofRatio ((0x800000 + fraction) * Nat.pow 2 exponentField) (Nat.pow 2 150)
  if negative then magnitude.neg else magnitude

end Binary64

end FramedTasks
