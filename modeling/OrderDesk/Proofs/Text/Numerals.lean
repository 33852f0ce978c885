/-
# Decimal numerals

What a run of decimal digits denotes, without regard to how it is written or read: a digit denotes
itself, and one more digit counts on from ten times what stands before it. Zeros in front make no
difference, and there is no end to the length of a run.

* `Digits.Denotes` : runs of digits and the numbers that they denote;
* `Digits.decimal?_eq_some_iff` : these are the runs that are read, as these numbers;
* `Digits.denotes_toDigits` , `Digits.denotes_padded` : what is written for a number denotes it.
-/
import OrderDesk.Proofs.Text.Digits
import Mathlib.Data.List.Induction

namespace OrderDesk.Digits

/-- A run of decimal digits denotes a number. -/
inductive Denotes : List Char → Nat → Prop
  | digit {d : Nat} : d < 10 → Denotes [d.digitChar] d
  | more {cs : List Char} {n d : Nat} :
      Denotes cs n → d < 10 → Denotes (cs ++ [d.digitChar]) (10 * n + d)

variable {cs : List Char} {n : Nat}

/-- The decimal digits are those of the numbers below ten. -/
theorem exists_digitChar {c : Char} (h : c.isDigit = true) : ∃ d, d < 10 ∧ c = d.digitChar := by
  have hrange : 48 ≤ c.toNat ∧ c.toNat ≤ 57 := Char.isDigit_iff_toNat.1 h
  have hd : c.toNat - 48 < 10 := by omega
  refine ⟨c.toNat - 48, hd, Char.toNat_inj.1 ?_⟩
  rw [Nat.toNat_digitChar_of_lt_ten hd]
  omega

/-- One more digit after a run counts on from ten times its number. -/
theorem ofDigitChars_concat {d : Nat} (h : d < 10) (cs : List Char) :
    Nat.ofDigitChars 10 (cs ++ [d.digitChar]) 0 = 10 * Nat.ofDigitChars 10 cs 0 + d := by
  have hzero : '0'.toNat = 48 := rfl
  rw [Nat.ofDigitChars_append, Nat.ofDigitChars_cons, Nat.ofDigitChars_nil,
    Nat.toNat_digitChar_of_lt_ten h, hzero, Nat.add_sub_cancel_left]

theorem Denotes.isDigit (h : Denotes cs n) : cs ≠ [] ∧ ∀ c ∈ cs, c.isDigit = true := by
  have hdigit : ∀ d, d < 10 → d.digitChar.isDigit = true := by
    intro d hd
    rw [Nat.isDigit_digitChar, decide_eq_true hd]
  induction h with
  | digit hd => exact ⟨List.cons_ne_nil _ _, by simpa using hdigit _ hd⟩
  | more _ hd ih =>
      refine ⟨by simp, fun c hc => ?_⟩
      rw [List.mem_append, List.mem_singleton] at hc
      rcases hc with hc | rfl
      · exact ih.2 c hc
      · exact hdigit _ hd

theorem Denotes.ofDigitChars (h : Denotes cs n) : Nat.ofDigitChars 10 cs 0 = n := by
  induction h with
  | digit hd => exact (ofDigitChars_concat hd []).trans (Nat.zero_add _)
  | more _ hd ih => rw [ofDigitChars_concat hd, ih]

/-- Every run of digits denotes something. -/
theorem denotes_ofDigitChars (hne : cs ≠ []) (h : ∀ c ∈ cs, c.isDigit = true) :
    Denotes cs (Nat.ofDigitChars 10 cs 0) := by
  induction cs using List.reverseRecOn with
  | nil => exact absurd rfl hne
  | append_singleton cs c ih =>
      obtain ⟨d, hd, rfl⟩ := exists_digitChar (h c (by simp))
      have hcs : ∀ c ∈ cs, c.isDigit = true := fun c hc => h c (List.mem_append_left _ hc)
      rw [ofDigitChars_concat hd]
      by_cases hnil : cs = []
      · subst hnil
        simpa using Denotes.digit hd
      · exact .more (ih hnil hcs) hd

/-- The texts that are read as numbers are the runs of digits, whatever their length. -/
theorem decimal?_eq_some_iff : decimal? cs = some n ↔ Denotes cs n := by
  unfold decimal?
  constructor
  · intro h
    split at h
    · rename_i hdigits
      cases h
      exact denotes_ofDigitChars hdigits.1 (List.all_eq_true.1 hdigits.2)
    · cases h
  · intro h
    rw [if_pos ⟨h.isDigit.1, List.all_eq_true.2 h.isDigit.2⟩, h.ofDigitChars]

/-! ## Written numbers -/

theorem denotes_toDigits (n : Nat) : Denotes (Nat.toDigits 10 n) n :=
  decimal?_eq_some_iff.1 (decimal?_toDigits n)

/-- A padded run denotes its number if there is room for it. -/
theorem denotes_padded {width : Nat} (hwidth : 0 < width) (h : n < 10 ^ width) :
    Denotes (padded 10 width n) n := by
  have hne : padded 10 width n ≠ [] := by
    rw [← List.length_pos_iff, length_padded]
    exact hwidth
  have hdenotes := denotes_ofDigitChars hne fun c hc => isDigit_of_mem_padded hc
  rwa [ofDigitChars_padded, Nat.mod_eq_of_lt h] at hdenotes

/-- Only the digits of zero begin with a zero. -/
theorem toDigits_eq_of_head?_eq_zero (h : (Nat.toDigits 10 n).head? = some '0') :
    Nat.toDigits 10 n = ['0'] := by
  rcases Nat.eq_zero_or_pos n with rfl | hpos
  · rfl
  · obtain ⟨c, cs, hcons, hc⟩ := exists_toDigits_eq_cons hpos
    rw [hcons] at h
    exact absurd (Option.some.inj h) hc

end OrderDesk.Digits
