import FramedTasks.Number.Binary64

/-! # The shortest decimal that reads back

Among the decimals that round to a finite number, the one with the fewest digits is written; of
several, the nearest. A decimal rounds to the number when it lies between the midpoints to its two
neighbours, the midpoints themselves included exactly when the significand is even.
-/

namespace FramedTasks

/-- The decimal `digits * 10 ^ exponent`. -/
structure DecimalNumber where
  digits : Nat
  exponent : Int
deriving DecidableEq, Repr

namespace Binary64

/-- Compare `a * 10 ^ i` with `b * 2 ^ j`. -/
def compareScaled (a : Nat) (i : Int) (b : Nat) (j : Int) : Ordering :=
  compare (a * Nat.pow 10 i.toNat * Nat.pow 2 (-j).toNat)
    (b * Nat.pow 2 j.toNat * Nat.pow 10 (-i).toNat)

/-- Whether a decimal rounds to the magnitude of the number. The number below is half as far as
the one above when the fraction is zero and a smaller binade exists. -/
def readsBack (x : Binary64) (d : DecimalNumber) : Bool :=
  let narrow := x.fraction == 0 && 1 < x.exponentField
  let low := if narrow then 4 * x.significand - 1 else 4 * x.significand - 2
  let high := 4 * x.significand + 2
  let closed := x.significand % 2 == 0
  let fromLow := compareScaled d.digits d.exponent low (x.scale - 2)
  let fromHigh := compareScaled d.digits d.exponent high (x.scale - 2)
  (fromLow == .gt || (closed && fromLow == .eq)) && (fromHigh == .lt || (closed && fromHigh == .eq))

/-- The decimal grid of spacing `10 ^ exponent`: the point of it that reads back and is nearest
to the magnitude, an exact tie going to the even digit. -/
def onGrid (x : Binary64) (exponent : Int) : Option DecimalNumber :=
  let num := x.numerator * Nat.pow 10 (-exponent).toNat
  let den := x.denominator * Nat.pow 10 exponent.toNat
  let below : DecimalNumber := ⟨num / den, exponent⟩
  let above : DecimalNumber := ⟨num / den + 1, exponent⟩
  let nearer : DecimalNumber := ⟨roundQuotient num den, exponent⟩
  match readsBack x below, readsBack x above with
  | true, true => some nearer
  | true, false => some below
  | false, true => some above
  | false, false => none

/-- The least `k` with `num / den < 10 ^ k`, searched upwards from below. -/
def decimalCeil (num den : Nat) : Nat → Int → Int
  | 0, k => k
  | fuel + 1, k =>
    if num * Nat.pow 10 (-k).toNat < den * Nat.pow 10 k.toNat then k else decimalCeil num den fuel (k + 1)

/-- The number of digits before the point in the magnitude; not positive for a fraction. -/
def magnitudeDigits (x : Binary64) : Int :=
  let guess := (floorLog2 x.numerator x.denominator) * 30103 / 100000 - 1
  decimalCeil x.numerator x.denominator 5 guess

def searchGrid (x : Binary64) (places : Int) : Nat → Nat → Option DecimalNumber
  | 0, _ => none
  | fuel + 1, count =>
    match x.onGrid (places - count) with
    | some d => some d
    | none => x.searchGrid places fuel (count + 1)

def stripZeros : Nat → DecimalNumber → DecimalNumber
  | 0, d => d
  | fuel + 1, d =>
    if d.digits ≠ 0 ∧ d.digits % 10 = 0 then stripZeros fuel ⟨d.digits / 10, d.exponent + 1⟩ else d

/-- The shortest decimal that reads back to the magnitude of a finite number. -/
def shortest (x : Binary64) : DecimalNumber :=
  if x.isZero then ⟨0, 0⟩
  else
    match x.searchGrid x.magnitudeDigits 17 1 with
    | some d => stripZeros 17 d
    | none => ⟨x.numerator * Nat.pow 5 (-x.scale).toNat, -(-x.scale).toNat⟩

/-- Where a layout changes from positional digits to a power of ten, by the number of digits
before the point, and how it writes the power. -/
structure Layout where
  /-- Most digits before the point in positional form. -/
  mostBefore : Option Int
  /-- Most zeros after the point before the first digit, in positional form. -/
  mostZeros : Option Int
deriving DecidableEq, Repr

/-- Lay out a decimal. Positional form always shows a digit on both sides of the point; the other
form has one digit before the point and a signed power of ten. -/
def Layout.chars (layout : Layout) (d : DecimalNumber) : List Char :=
  let digits := Nat.toDigits 10 d.digits
  let before : Int := digits.length + d.exponent
  let positional :=
    (layout.mostBefore.all fun most => before ≤ most) &&
      (layout.mostZeros.all fun most => -before ≤ most)
  if positional then
    if 0 ≤ d.exponent then digits ++ List.replicate d.exponent.toNat '0' ++ ['.', '0']
    else if 0 < before then digits.take before.toNat ++ '.' :: digits.drop before.toNat
    else '0' :: '.' :: List.replicate (-before).toNat '0' ++ digits
  else
    let power := before - 1
    let mantissa := match digits with
      | [] => []
      | [digit] => [digit]
      | digit :: more => digit :: '.' :: more
    mantissa ++ 'e' :: (if power < 0 then '-' else '+') :: Nat.toDigits 10 power.natAbs

def text (x : Binary64) (layout : Layout) : String :=
  String.ofList ((if x.isNegative then ['-'] else []) ++ layout.chars x.shortest)

end Binary64

end FramedTasks
