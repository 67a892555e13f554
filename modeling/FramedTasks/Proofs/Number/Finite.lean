import FramedTasks.Number.Binary64

/-! # Finite numbers

A number is infinite or no number at all exactly if the bits of its exponent are all set. Rounding a
quotient gives such a number only far beyond the range of 32 bits, so widening a pattern of 32 bits
neither makes a number infinite nor hides that it was (`isFinite_ofBinary32`).
-/

namespace FramedTasks.Binary64

theorem roundQuotient_le (num den : Nat) : roundQuotient num den ≤ num / den + 1 := by
  simp only [roundQuotient]
  split
  · omega
  · split <;> omega

theorem floorLog2_bounds (num den : Nat) :
    (num.log2 : Int) - den.log2 - 1 ≤ floorLog2 num den ∧
      floorLog2 num den ≤ (num.log2 : Int) - den.log2 := by
  simp only [floorLog2]
  split <;> omega

/-- A quotient that is scaled so far that its integer part has the bits of a significand. -/
theorem roundQuotient_scaled_le {num den : Nat} (positive : den ≠ 0) {scale : Int}
    (coarse : floorLog2 num den - 52 ≤ scale) :
    roundQuotient (num * Nat.pow 2 (-scale).toNat) (den * Nat.pow 2 scale.toNat) ≤
      0x40000000000000 := by
  obtain ⟨least, -⟩ := floorLog2_bounds num den
  have exponents : num.log2 + 1 + (-scale).toNat ≤ den.log2 + scale.toNat + 54 := by omega
  have scaled : num * 2 ^ (-scale).toNat < 2 ^ 54 * (den * 2 ^ scale.toNat) := by
    calc num * 2 ^ (-scale).toNat
        < 2 ^ (num.log2 + 1) * 2 ^ (-scale).toNat :=
          Nat.mul_lt_mul_of_pos_right Nat.lt_log2_self (Nat.two_pow_pos _)
      _ ≤ 2 ^ (den.log2 + scale.toNat + 54) := by
          rw [← Nat.pow_add]
          exact Nat.pow_le_pow_right (Nat.succ_pos 1) exponents
      _ = 2 ^ 54 * (2 ^ den.log2 * 2 ^ scale.toNat) := by
          rw [Nat.pow_add, Nat.pow_add, Nat.mul_comm]
      _ ≤ 2 ^ 54 * (den * 2 ^ scale.toNat) :=
          Nat.mul_le_mul_left _ (Nat.mul_le_mul_right _ (Nat.log2_self_le positive))
  rw [Nat.mul_comm (2 ^ 54)] at scaled
  have quotient := Nat.div_lt_of_lt_mul scaled
  exact Nat.le_trans (roundQuotient_le ..) quotient

theorem isFinite_of_lt {pattern : Nat} (small : pattern < infinity.bits.toNat) :
    (Binary64.mk (UInt64.ofNat pattern)).isFinite = true := by
  have bits : (UInt64.ofNat pattern).toNat = pattern := by
    rw [UInt64.toNat_ofNat']
    exact Nat.mod_eq_of_lt (Nat.lt_trans small (by decide))
  have small : pattern < 0x7FF0000000000000 := small
  rw [isFinite, exponentField, bits, fractionCount, bne_iff_ne]
  omega

theorem isFinite_ofRatio {num den : Nat} (positive : den ≠ 0) (near : num.log2 ≤ den.log2 + 900) :
    (ofRatio num den).isFinite = true := by
  rw [ofRatio]
  split
  · rfl
  · obtain ⟨-, most⟩ := floorLog2_bounds num den
    have fine := roundQuotient_scaled_le positive (Int.le_max_left (floorLog2 num den - 52) (-1074))
    have small : max (floorLog2 num den - 52) (-1074) ≤ 848 := by omega
    generalize max (floorLog2 num den - 52) (-1074) = scale at fine small
    have within : roundQuotient (num * Nat.pow 2 (-scale).toNat) (den * Nat.pow 2 scale.toNat) +
        (scale + 1074).toNat * fractionCount < infinity.bits.toNat := by
      have exponent : (scale + 1074).toNat ≤ 1922 := by omega
      calc _ ≤ 0x40000000000000 + 1922 * fractionCount :=
            Nat.add_le_add fine (Nat.mul_le_mul_right _ exponent)
        _ < infinity.bits.toNat := by decide
    simp only [if_pos within]
    exact isFinite_of_lt within

theorem isFinite_neg (x : Binary64) : x.neg.isFinite = x.isFinite := by
  have flipped : x.neg.bits.toNat / 2 ^ 52 % 2 ^ 11 = x.bits.toNat / 2 ^ 52 % 2 ^ 11 := by
    rw [neg, UInt64.toNat_xor, Nat.xor_div_two_pow, Nat.xor_mod_two_pow]
    exact Nat.xor_zero _
  rw [isFinite, isFinite, exponentField, exponentField]
  exact congrArg (· != 2047) flipped

theorem log2_le_of_lt {number exponent : Nat} (small : number < Nat.pow 2 exponent) :
    number.log2 ≤ exponent := by
  by_cases zero : number = 0
  · subst zero
    exact Nat.zero_le exponent
  · exact Nat.le_of_lt ((Nat.log2_lt zero).mpr small)

/-- A pattern of 32 bits is a finite number unless all bits of its exponent are set. -/
theorem isFinite_ofBinary32 (pattern : UInt32) :
    (ofBinary32 pattern).isFinite = true ↔ pattern.toNat / 0x800000 % 256 ≠ 255 := by
  have signed (magnitude : Binary64) (negative : Prop) [Decidable negative] :
      (if negative then magnitude.neg else magnitude).isFinite = magnitude.isFinite := by
    split
    · exact isFinite_neg magnitude
    · rfl
  simp only [ofBinary32, signed]
  have small : pattern.toNat % 0x800000 < 0x800000 := Nat.mod_lt _ (by decide)
  have exponent : pattern.toNat / 0x800000 % 256 < 256 := Nat.mod_lt _ (by decide)
  generalize pattern.toNat % 0x800000 = fraction at small
  generalize pattern.toNat / 0x800000 % 256 = field at exponent
  by_cases set : field = 255
  · have bits : (infinity.bits + UInt64.ofNat (fraction * 0x20000000)).toNat =
        0x7FF0000000000000 + fraction * 0x20000000 := by
      rw [UInt64.toNat_add, UInt64.toNat_ofNat']
      have infinite : infinity.bits.toNat = 0x7FF0000000000000 := rfl
      omega
    rw [if_pos set, isFinite, exponentField, bits, fractionCount, bne_iff_ne]
    omega
  · rw [if_neg set]
    refine iff_of_true ?_ set
    have denominator (exponent : Nat) : (Nat.pow 2 exponent).log2 = exponent := Nat.log2_two_pow
    split
    · have few := log2_le_of_lt (show fraction < 2 ^ 23 from small)
      refine isFinite_ofRatio (by decide) ?_
      rw [denominator]
      omega
    · have product : (0x800000 + fraction) * 2 ^ field < 2 ^ (24 + field) := by
        rw [Nat.pow_add]
        exact Nat.mul_lt_mul_of_pos_right (by omega) (Nat.two_pow_pos _)
      refine isFinite_ofRatio (by decide) ?_
      rw [denominator]
      exact Nat.le_trans (log2_le_of_lt product) (by omega)

end FramedTasks.Binary64
