/-
# Places of a number

A number of bounded size has a fixed number of places in a base, whatever stands for the values at them:
characters for hexadecimal digits, or bytes. Two numbers are compared as their places are, the most
significant first, and a base has the same places as its square, two for one.

* `Digits.places` : the places, and `Digits.padded_eq_map_places` : digits as the places that they show;
* `Digits.compare_div_mod` : one place more decides last;
* `Digits.compare_places` , `Digits.compare_padded` : the order of numbers is that of their places;
* `Digits.flatMap_places` : the places in a base and in its square.
-/
import OrderDesk.Proofs.Text.Comparison
import OrderDesk.Proofs.Text.Digits

namespace OrderDesk.Digits

variable {base width m n : Nat}

/-- The last `width` places of a number in a base, most significant first. -/
def places (base : Nat) : Nat → Nat → List Nat
  | 0, _ => []
  | width + 1, n => places base width (n / base) ++ [n % base]

@[simp] theorem length_places (base width n : Nat) : (places base width n).length = width := by
  induction width generalizing n with
  | zero => rfl
  | succ width ih => rw [places, List.length_append, ih, List.length_singleton]

theorem lt_of_mem_places (hbase : 0 < base) {d : Nat} (h : d ∈ places base width n) : d < base := by
  induction width generalizing n with
  | zero => cases h
  | succ width ih =>
      rw [places, List.mem_append, List.mem_singleton] at h
      rcases h with h | rfl
      · exact ih h
      · exact Nat.mod_lt n hbase

theorem padded_eq_map_places (base width n : Nat) :
    padded base width n = (places base width n).map Nat.digitChar := by
  induction width generalizing n with
  | zero => rfl
  | succ width ih => rw [padded, places, List.map_append, List.map_singleton, ih]

/-! ## The order of numbers -/

/-- The last place decides if the rest of the numbers is the same. -/
theorem compare_div_mod (base m n : Nat) :
    compare m n = (compare (m / base) (n / base)).then (compare (m % base) (n % base)) := by
  have hm := Nat.div_add_mod m base
  have hn := Nat.div_add_mod n base
  cases h : compare (m / base) (n / base) with
  | lt => exact Nat.compare_eq_lt.2 (Nat.lt_of_div_lt_div (Nat.compare_eq_lt.1 h))
  | gt => exact Nat.compare_eq_gt.2 (Nat.lt_of_div_lt_div (Nat.compare_eq_gt.1 h))
  | eq =>
      rw [Nat.compare_eq_eq] at h
      rw [h] at hm
      exact compare_of_lt_iff (by omega) (by omega)

/-- Numbers are compared as their places are, if they have room in them. -/
theorem compare_places (hm : m < base ^ width) (hn : n < base ^ width) :
    compare (places base width m) (places base width n) = compare m n := by
  induction width generalizing m n with
  | zero =>
      rw [Nat.pow_zero, Nat.lt_one_iff] at hm hn
      rw [hm, hn]
      rfl
  | succ width ih =>
      -- the places in front are those of the quotients, which have room in one place less
      rw [Nat.pow_succ'] at hm hn
      have hlength : (places base width (m / base)).length = (places base width (n / base)).length := by
        rw [length_places, length_places]
      have hlast : compare [m % base] [n % base] = compare (m % base) (n % base) := by
        rw [List.compare_cons_cons, List.compare_nil_nil, Ordering.then_eq]
      rw [places, places, compare_append hlength, ih (Nat.div_lt_of_lt_mul hm) (Nat.div_lt_of_lt_mul hn),
        hlast, ← compare_div_mod]

/-- Hexadecimal digits in lower case have the order of their values: letters stand behind the decimal
digits. -/
theorem compare_digitChar (hm : m < 16) (hn : n < 16) :
    compare m.digitChar n.digitChar = compare m n := by
  have hdigits : ∀ a b : Fin 16, compare a.val.digitChar b.val.digitChar = compare a.val b.val := by
    decide
  exact hdigits ⟨m, hm⟩ ⟨n, hn⟩

/-- Bytes have the order of their values. -/
theorem compare_ofNat (hm : m < 256) (hn : n < 256) :
    compare (UInt8.ofNat m) (UInt8.ofNat n) = compare m n := by
  have hlt : ∀ {a b : Nat}, a < 256 → b < 256 → (UInt8.ofNat a < UInt8.ofNat b ↔ a < b) := by
    intro a b ha hb
    rw [UInt8.lt_iff_toNat_lt, UInt8.toNat_ofNat_of_lt' ha, UInt8.toNat_ofNat_of_lt' hb]
  exact compare_of_lt_iff (hlt hm hn) (hlt hn hm)

/-- Padded runs of digits are compared as their numbers are. -/
theorem compare_padded (hm : m < 16 ^ width) (hn : n < 16 ^ width) :
    compare (padded 16 width m) (padded 16 width n) = compare m n := by
  rw [padded_eq_map_places, padded_eq_map_places, ← compare_places hm hn]
  exact compare_map fun a ha b hb =>
    compare_digitChar (lt_of_mem_places (by decide) ha) (lt_of_mem_places (by decide) hb)

/-! ## Two places for one -/

/-- Every place in the square of a base stands for two places. -/
theorem flatMap_places (base width n : Nat) :
    (places (base * base) width n).flatMap (places base 2) = places base (2 * width) n := by
  induction width generalizing n with
  | zero => rfl
  | succ width ih =>
      have hpair : places base 2 (n % (base * base)) = [n / base % base, n % base] := by
        simp only [places, List.nil_append, List.singleton_append, Nat.mod_mul_left_div_self,
          Nat.mod_mul_left_mod, Nat.mod_mod]
      rw [places, List.flatMap_append, ih, List.flatMap_singleton, hpair, Nat.mul_succ, places, places,
        Nat.div_div_eq_div_mul, List.append_assoc, List.singleton_append]

end OrderDesk.Digits
