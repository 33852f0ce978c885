/-
# Runs of digits

What the digits of a number look like, and that a run of them denotes the number again: the decimal
digits without padding, which begin with a zero for zero only, and runs padded to a fixed number of
places.
-/
import OrderDesk.Text.Digits
import Mathlib.Algebra.Group.Nat.Defs

namespace OrderDesk.Digits

/-! ## Decimal digits without padding -/

theorem isDigit_of_mem_toDigits {n : Nat} {c : Char} (h : c ∈ Nat.toDigits 10 n) : c.isDigit = true :=
  Nat.isDigit_of_mem_toDigits (by decide) (by decide) h

/-- The digits of a positive number begin with one that is not zero. -/
theorem exists_toDigits_eq_cons {n : Nat} (h : 0 < n) :
    ∃ c cs, Nat.toDigits 10 n = c :: cs ∧ c ≠ '0' := by
  induction n using Nat.strongRecOn with
  | ind n ih =>
      by_cases hn : n < 10
      · refine ⟨n.digitChar, [], Nat.toDigits_of_lt_base hn, ?_⟩
        have hdigits : ∀ k : Fin 10, 0 < k.val → k.val.digitChar ≠ '0' := by decide
        exact hdigits ⟨n, hn⟩ h
      · obtain ⟨c, cs, hc, hzero⟩ := ih (n / 10) (by omega) (by omega)
        refine ⟨c, cs ++ [(n % 10).digitChar], ?_, hzero⟩
        rw [Nat.toDigits_of_base_le (by decide) (by omega), hc, List.cons_append]

/-! ## Padded runs -/

theorem powTen_eq (zeros : Nat) : powTen zeros = 10 ^ zeros := rfl

theorem exists_of_mem_padded {base width n : Nat} {c : Char} (hbase : 0 < base)
    (h : c ∈ padded base width n) : ∃ k, k < base ∧ c = k.digitChar := by
  induction width generalizing n with
  | zero => simp [padded] at h
  | succ width ih =>
      rw [padded, List.mem_append, List.mem_singleton] at h
      rcases h with h | rfl
      · exact ih h
      · exact ⟨n % base, Nat.mod_lt n hbase, rfl⟩

theorem isDigit_of_mem_padded {width n : Nat} {c : Char} (h : c ∈ padded 10 width n) :
    c.isDigit = true := by
  obtain ⟨k, hk, rfl⟩ := exists_of_mem_padded (by decide) h
  rw [Nat.isDigit_digitChar]
  exact decide_eq_true hk

/-- A padded run of decimal digits denotes its number, as far as there is room for it. -/
theorem ofDigitChars_padded (width n : Nat) :
    Nat.ofDigitChars 10 (padded 10 width n) 0 = n % 10 ^ width := by
  induction width generalizing n with
  | zero => simp [padded, Nat.mod_one]
  | succ width ih =>
      have hdigit : ∀ k : Fin 10, k.val.digitChar.toNat - '0'.toNat = k.val := by decide
      have hlast : (n % 10).digitChar.toNat - '0'.toNat = n % 10 :=
        hdigit ⟨n % 10, Nat.mod_lt n (by decide)⟩
      rw [padded, Nat.ofDigitChars_append, ih, Nat.ofDigitChars_cons, Nat.ofDigitChars_nil, hlast,
        Nat.pow_succ', Nat.mod_mul]
      omega

theorem isHex_of_mem_padded {width n : Nat} {c : Char} (h : c ∈ padded 16 width n) :
    isHex c = true := by
  have hdigit : ∀ k : Fin 16, isHex k.val.digitChar = true := by decide
  obtain ⟨k, hk, rfl⟩ := exists_of_mem_padded (by decide) h
  exact hdigit ⟨k, hk⟩

/-- A padded run of hexadecimal digits denotes its number, as far as there is room for it. -/
theorem hexNumber_padded (width n : Nat) : hexNumber (padded 16 width n) = n % 16 ^ width := by
  induction width generalizing n with
  | zero => simp [padded, Nat.mod_one]
  | succ width ih =>
      have hdigit : ∀ k : Fin 16, (hexValue? k.val.digitChar).getD 0 = k.val := by decide
      have hlast : (hexValue? (n % 16).digitChar).getD 0 = n % 16 :=
        hdigit ⟨n % 16, Nat.mod_lt n (by decide)⟩
      rw [padded, hexNumber_concat, ih, hlast, Nat.pow_succ', Nat.mod_mul]
      omega

end OrderDesk.Digits
