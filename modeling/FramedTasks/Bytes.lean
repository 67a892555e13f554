/-! # Byte strings

Everything that crosses a stream is a list of bytes. Numbers are written with their most
significant byte first; `toNat_bigEndian` says that reading undoes writing for every number that
fits the width.
-/

namespace FramedTasks

/-- A finite string of bytes, in the order in which they cross a stream. -/
abbrev Bytes := List UInt8

namespace Bytes

/-- The number whose base-256 digits are the given bytes, most significant first. -/
def toNat (bytes : Bytes) : Nat :=
  bytes.foldl (fun number byte => number * 256 + byte.toNat) 0

/-- The lowest `width` base-256 digits of a number, most significant first. -/
def bigEndian : Nat → Nat → Bytes
  | 0, _ => []
  | width + 1, number => bigEndian width (number / 256) ++ [UInt8.ofNat number]

@[simp] theorem length_bigEndian (width number : Nat) : (bigEndian width number).length = width := by
  induction width generalizing number with
  | zero => rfl
  | succ width ih => simp [bigEndian, ih]

theorem toNat_append_singleton (bytes : Bytes) (byte : UInt8) :
    toNat (bytes ++ [byte]) = toNat bytes * 256 + byte.toNat := by
  simp [toNat]

theorem toNat_bigEndian {width number : Nat} (fits : number < Nat.pow 256 width) :
    toNat (bigEndian width number) = number := by
  induction width generalizing number with
  | zero =>
    have one : Nat.pow 256 0 = 1 := rfl
    rw [show number = 0 by omega]
    rfl
  | succ width ih =>
    have quotient : number / 256 < Nat.pow 256 width := by
      have step : Nat.pow 256 (width + 1) = Nat.pow 256 width * 256 := rfl
      rw [step] at fits
      exact Nat.div_lt_of_lt_mul (by omega)
    rw [bigEndian, toNat_append_singleton, ih quotient]
    simp only [UInt8.toNat_ofNat']
    omega

/-- The two's complement reading of a number of the given width in bytes. -/
def toSigned (width number : Nat) : Int :=
  if number < Nat.pow 256 width / 2 then number else (number : Int) - Nat.pow 256 width

end Bytes

end FramedTasks
