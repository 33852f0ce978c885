/-
# The digits of a floating-point number

The shortest decimal of a number other than zero has a positive number of digits, whichever grid they
were found on; so its digits begin with one that is not zero.

* `Interval.pos_of_contains` : a decimal in the interval of such a number is positive;
* `search_digits_pos` : so is what the search finds, and what it takes when it finds none;
* `exists_stripped` : what the digits without the zeros at the end look like.
-/
import OrderDesk.Double.Shortest
import OrderDesk.Proofs.Double.Rounding
import OrderDesk.Proofs.Text.Digits

namespace OrderDesk.Double

/-! ## Intervals above zero -/

/-- An interval of positive numbers around a number. -/
structure Interval.Positive (i : Interval) : Prop where
  low : 0 < i.low
  value : 0 < i.value
  denominator : 0 < i.denominator

theorem positive_interval {x : Double} (h : x.isZero = false) : x.interval.Positive := by
  have hm := significand_pos h
  have hunit : 0 < 2 ^ x.scale := Nat.pow_pos (by decide)
  simp only [interval, Nat.shiftLeft_eq]
  refine ⟨?_, ?_, ?_⟩
  · refine Nat.mul_pos ?_ hunit
    split <;> omega
  · exact Nat.mul_pos (by omega) hunit
  · generalize 1074 = places
    exact Nat.mul_pos (by decide) (Nat.two_pow_pos places)

theorem Interval.pos_of_contains {i : Interval} (hi : i.Positive) {d : Nat} {e : Int}
    (h : i.contains d e = true) : 0 < d := by
  have hlow : 0 < i.low * 10 ^ (-e).toNat := Nat.mul_pos hi.low (Nat.pow_pos (by decide))
  apply Nat.pos_of_ne_zero
  rintro rfl
  simp only [contains, Digits.powTen_eq, Nat.zero_mul] at h
  split at h
  · have := (of_decide_eq_true h).1
    omega
  · have := (of_decide_eq_true h).1
    omega

theorem onGrid?_pos {i : Interval} (hi : i.Positive) {e : Int} {d : Nat} (h : onGrid? i e = some d) :
    0 < d := by
  simp only [onGrid?] at h
  split at h
  · -- one of the two neighbours is taken, and the lower one is in the interval
    rename_i hbelow _
    have hpos := Interval.pos_of_contains hi hbelow
    obtain rfl := Option.some.inj h
    split
    · exact hpos
    · split <;> omega
  · rename_i hbelow _
    obtain rfl := Option.some.inj h
    exact Interval.pos_of_contains hi hbelow
  · obtain rfl := Option.some.inj h
    exact Nat.succ_pos _
  · cases h

/-! ## The search -/

/-- The leading power of ten is at most the quotient. -/
theorem floorLogTen_le {n d : Nat} (hn : 0 < n) (hd : 0 < d) :
    d * 10 ^ (floorLogTen n d).toNat ≤ n * 10 ^ (-floorLogTen n d).toNat := by
  unfold floorLogTen
  split
  · -- the quotient has as many digits as the power of ten has zeros, and one more
    rename_i hle
    have hpos : 0 < (Nat.toDigits 10 (n / d)).length := Nat.length_toDigits_pos
    obtain ⟨k, hk⟩ : ∃ k, (Nat.toDigits 10 (n / d)).length = k + 1 :=
      ⟨_, (Nat.sub_add_cancel hpos).symm⟩
    have hlead : 10 ^ k ≤ n / d := by
      cases k with
      | zero => exact Nat.div_pos hle hd
      | succ k =>
          refine Nat.le_of_not_lt fun hlt => ?_
          have := (Nat.length_toDigits_le_iff (by decide) (Nat.succ_pos k)).2 hlt
          omega
    rw [hk, show ((k + 1 : Nat) : Int) - 1 = k by omega, Int.toNat_natCast,
      show (-(k : Int)).toNat = 0 by omega, Nat.pow_zero, Nat.mul_one, Nat.mul_comm]
    exact Nat.le_trans (Nat.mul_le_mul_right d hlead) (Nat.div_mul_le_self n d)
  · rename_i hlt
    have hsmall : (d - 1) / n < 10 ^ (Nat.toDigits 10 ((d - 1) / n)).length :=
      (Nat.length_toDigits_le_iff (by decide) Nat.length_toDigits_pos).1 (Nat.le_refl _)
    have hbound := (Nat.div_lt_iff_lt_mul hn).1 hsmall
    rw [Int.neg_neg, Int.toNat_natCast, show (-_ : Int).toNat = 0 by omega, Nat.pow_zero,
      Nat.mul_one, Nat.mul_comm]
    omega

/-- What is found on a grid is positive, and so is what is taken on the last one. -/
theorem search_digits_pos {i : Interval} (hi : i.Positive) (left : Nat) :
    0 < (search i (floorLogTen i.value i.denominator) left).digits := by
  induction left with
  | zero =>
      have hle := floorLogTen_le hi.value hi.denominator
      have hden := hi.denominator
      refine Nat.div_pos ?_ (Nat.mul_pos hden (Nat.pow_pos (by decide)))
      generalize floorLogTen i.value i.denominator = top at hle ⊢
      -- the last grid is sixteen places finer than the leading digit
      calc i.denominator * 10 ^ (top - 16).toNat
          ≤ i.denominator * 10 ^ top.toNat :=
            Nat.mul_le_mul_left _ (Nat.pow_le_pow_right (by decide) (by omega))
        _ ≤ i.value * 10 ^ (-top).toNat := hle
        _ ≤ i.value * 10 ^ (16 - top).toNat :=
            Nat.mul_le_mul_left _ (Nat.pow_le_pow_right (by decide) (by omega))
  | succ left ih =>
      simp only [search]
      split
      · rename_i d hd
        exact onGrid?_pos hi hd
      · exact ih

theorem shortest_digits_pos {x : Double} (h : x.isZero = false) : 0 < x.shortest.digits :=
  search_digits_pos (positive_interval h) 17

/-! ## The digits of the text -/

/-- The digits that are left without the zeros at the end begin with one that is not zero. -/
theorem exists_stripped {n : Nat} (hn : 0 < n) :
    ∃ d ds, ((Nat.toDigits 10 n).reverse.dropWhile (· = '0')).reverse = d :: ds ∧ d ≠ '0' ∧
      ∀ c ∈ d :: ds, c.isDigit = true := by
  obtain ⟨d, rest, hdigits, hd⟩ := Digits.exists_toDigits_eq_cons hn
  have hfront : ((Nat.toDigits 10 n).reverse.dropWhile (· = '0')).reverse <+: Nat.toDigits 10 n := by
    rw [← List.reverse_suffix, List.reverse_reverse]
    exact List.dropWhile_suffix _
  have hne : ((Nat.toDigits 10 n).reverse.dropWhile (· = '0')).reverse ≠ [] := by
    intro h
    have hall : (Nat.toDigits 10 n).reverse.all (· = '0') = true := by
      rw [← List.takeWhile_append_dropWhile (p := (· = '0')) (l := (Nat.toDigits 10 n).reverse),
        List.reverse_eq_nil_iff.1 h, List.append_nil]
      exact List.all_takeWhile
    have hzero := List.all_eq_true.1 hall d (by simp [hdigits])
    exact hd (of_decide_eq_true hzero)
  obtain ⟨e, ds, hstripped⟩ := List.exists_cons_of_ne_nil hne
  rw [hstripped] at hfront ⊢
  have hhead : e = d := by
    rw [hdigits, List.cons_prefix_cons] at hfront
    exact hfront.1
  refine ⟨e, ds, rfl, hhead ▸ hd, fun c hc => ?_⟩
  exact Digits.isDigit_of_mem_toDigits (hfront.subset hc)

end OrderDesk.Double
