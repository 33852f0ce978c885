/-
# Rounding without overflow

A quotient below a power of two is rounded to a number of at most about that power; so rounding it gives
a finite number unless the power is out of range, and so does dividing two numbers unless the first is
far larger than the second.

* `lt_of_floorLog_lt` : what the leading power of two says of a quotient;
* `round_magnitude_le` : the magnitude of a rounded quotient;
* `isFinite_div` : quotients that are finite.
-/
import OrderDesk.Double.Basic
import Mathlib.Algebra.Group.Nat.Defs

namespace OrderDesk.Double

/-! ## Significands -/

theorem signBit_eq : signBit = 2 ^ 63 := rfl

theorem hiddenBit_eq : hiddenBit = 2 ^ 52 := rfl

theorem significand_pos {x : Double} (h : x.isZero = false) : 0 < x.significand := by
  have hmagnitude : x.magnitude ≠ 0 := of_decide_eq_false h
  rw [significand, hiddenBit_eq]
  split <;> omega

theorem significand_lt (x : Double) : x.significand < 2 ^ 53 := by
  rw [significand, hiddenBit_eq]
  split <;> omega

/-! ## Quotients -/

theorem floorLog_le (n d : Nat) : floorLog n d ≤ n.log2 - d.log2 := by
  simp only [floorLog]
  split <;> omega

/-- A quotient is below all powers of two after its leading one. -/
theorem lt_of_floorLog_lt {n d a b : Nat} (hd : 0 < d) (h : floorLog n d < a - b) :
    n * 2 ^ b < d * 2 ^ a := by
  simp only [floorLog, Nat.shiftLeft_eq] at h
  generalize hk : (n.log2 : Int) - d.log2 = k at h
  split at h
  · -- the quotient is below the power that was tried
    rename_i hlt
    have hpow : 0 < 2 ^ (-k).toNat := Nat.two_pow_pos _
    refine Nat.lt_of_mul_lt_mul_right (a := 2 ^ (-k).toNat) ?_
    calc n * 2 ^ b * 2 ^ (-k).toNat = n * 2 ^ (-k).toNat * 2 ^ b := Nat.mul_right_comm ..
      _ < d * 2 ^ k.toNat * 2 ^ b := Nat.mul_lt_mul_of_pos_right hlt (Nat.two_pow_pos b)
      _ = d * 2 ^ (k.toNat + b) := by rw [Nat.mul_assoc, ← Nat.pow_add]
      _ ≤ d * 2 ^ (a + (-k).toNat) :=
          Nat.mul_le_mul_left d (Nat.pow_le_pow_right (by decide) (by omega))
      _ = d * 2 ^ a * 2 ^ (-k).toNat := by rw [Nat.mul_assoc, ← Nat.pow_add]
  · calc n * 2 ^ b < 2 ^ (n.log2 + 1) * 2 ^ b :=
          Nat.mul_lt_mul_of_pos_right Nat.lt_log2_self (Nat.two_pow_pos b)
      _ = 2 ^ (n.log2 + 1 + b) := (Nat.pow_add ..).symm
      _ ≤ 2 ^ (d.log2 + a) := Nat.pow_le_pow_right (by decide) (by omega)
      _ = 2 ^ d.log2 * 2 ^ a := Nat.pow_add ..
      _ ≤ d * 2 ^ a := Nat.mul_le_mul_right _ (Nat.log2_self_le (Nat.pos_iff_ne_zero.1 hd))

theorem roundQuotient_le {n d m : Nat} (h : n < d * m) : roundQuotient n d ≤ m := by
  have hq : n / d < m := Nat.div_lt_of_lt_mul h
  simp only [roundQuotient]
  split
  · omega
  · split <;> omega

theorem log2_sub_log2_le {n d k : Nat} (hn : n ≠ 0) (h : n < d * 2 ^ k) :
    (n.log2 : Int) - d.log2 ≤ k := by
  have hlt : 2 ^ n.log2 < 2 ^ (d.log2 + 1 + k) := by
    calc 2 ^ n.log2 ≤ n := Nat.log2_self_le hn
      _ < d * 2 ^ k := h
      _ ≤ 2 ^ (d.log2 + 1) * 2 ^ k := Nat.mul_le_mul_right _ (Nat.le_of_lt Nat.lt_log2_self)
      _ = 2 ^ (d.log2 + 1 + k) := (Nat.pow_add ..).symm
  have := (Nat.pow_lt_pow_iff_right (by decide)).1 hlt
  omega

/-! ## Rounded quotients -/

theorem magnitude_ofMagnitude_le (negative : Bool) (m : Nat) : (ofMagnitude negative m).magnitude ≤ m := by
  have hsign : (if negative then 2 ^ 63 else 0) = 0 ∨ (if negative then 2 ^ 63 else 0) = 2 ^ 63 := by
    split <;> simp
  simp only [magnitude, ofMagnitude, UInt64.toNat_ofNat', signBit_eq]
  omega

/-- The magnitude of a number nearest to a quotient below a power of two. -/
theorem round_magnitude_le {n d k : Nat} (hd : 0 < d) (h : n < d * 2 ^ k) (negative : Bool) :
    (round negative n d).magnitude ≤ (k + 1024) * 2 ^ 52 := by
  simp only [round, Nat.shiftLeft_eq, hiddenBit_eq]
  split
  · exact Nat.le_trans (magnitude_ofMagnitude_le negative 0) (Nat.zero_le _)
  · rename_i hn
    have hlog : floorLog n d ≤ k := Int.le_trans (floorLog_le n d) (log2_sub_log2_le hn h)
    generalize hq : max (floorLog n d - 52) (-1074) = q
    -- the significand has 53 bits, or is the power of two after them
    have hscaled : n * 2 ^ (-q).toNat < d * 2 ^ q.toNat * 2 ^ 53 := by
      rw [Nat.mul_assoc, ← Nat.pow_add]
      exact lt_of_floorLog_lt hd (by omega)
    have hm := roundQuotient_le hscaled
    refine Nat.le_trans (magnitude_ofMagnitude_le negative _) ?_
    have hexponent : (q + 1074).toNat ≤ k + 1022 := by omega
    omega

theorem isFinite_round {n d k : Nat} (hd : 0 < d) (h : n < d * 2 ^ k) (hk : k < 1023)
    (negative : Bool) : (round negative n d).isFinite = true := by
  have := round_magnitude_le hd h negative
  refine decide_eq_true ?_
  rw [hiddenBit_eq]
  omega

/-- Dividing by a number that is not far smaller gives a finite number. -/
theorem isFinite_div {x y : Double} (hy : y.isZero = false) (h : x.scale < y.scale + 970) :
    (x.div y).isFinite = true := by
  have hpos := significand_pos hy
  have hlt : x.significand * 2 ^ x.scale < y.significand * 2 ^ y.scale * 2 ^ 1022 := by
    calc x.significand * 2 ^ x.scale < 2 ^ 53 * 2 ^ x.scale :=
          Nat.mul_lt_mul_of_pos_right (significand_lt x) (Nat.two_pow_pos _)
      _ = 2 ^ (53 + x.scale) := (Nat.pow_add ..).symm
      _ ≤ 2 ^ (y.scale + 1022) := Nat.pow_le_pow_right (by decide) (by omega)
      _ ≤ y.significand * 2 ^ (y.scale + 1022) := Nat.le_mul_of_pos_left _ hpos
      _ = y.significand * 2 ^ y.scale * 2 ^ 1022 := by rw [Nat.mul_assoc, ← Nat.pow_add]
  rw [div, Nat.shiftLeft_eq, Nat.shiftLeft_eq]
  exact isFinite_round (Nat.mul_pos hpos (Nat.two_pow_pos _)) hlt (by decide) _

end OrderDesk.Double
