/-
# Sums of amounts

A sum of amounts is taken in two ways: one stops at the first sum on the way that does not fit, the
other stays at the nearer end of the range and goes on from there. As long as nothing has to be brought
into range, both are the exact sum. Amounts that are not negative move a sum in one direction only, so
that what happens on the way shows at the end: the first way stops exactly if the exact sum is too
large, and the second ends at the largest amount in that case. The order of such amounts does not
matter.

* `Money.exactSum` : the sum as a whole number of cents;
* `Money.sum` , `Money.runningSum` : the sum kept in range, by addition and in place;
* `Money.exact_of_sum?` : without an overflow on the way, all of them agree;
* `Money.sum?_of_nonneg` , `Money.sum_of_nonneg` : both ways in terms of the exact sum;
* `Money.ofUnits?_eq_none_iff` : the numbers of units that are too large or too small;
* `money_sums` : the whole.
-/
import OrderDesk.Proofs.Desk.Prices
import Mathlib.Algebra.BigOperators.Group.List.Basic

namespace OrderDesk

namespace Money

/-! ## Ways to a sum -/

/-- The sum of amounts as a whole number of cents. -/
def exactSum (amounts : List Money) : Int :=
  (amounts.map cents).sum

/-- The sum of amounts from nothing, brought into range at every step. -/
def sum (amounts : List Money) : Money :=
  amounts.foldl (· + ·) zero

/-- The total that starts with nothing and is increased by one amount after the other. -/
def runningSum (amounts : List Money) : Money :=
  ((amounts.forM increase).run zero).2

theorem exactSum_cons (a : Money) (rest : List Money) :
    exactSum (a :: rest) = a.cents + exactSum rest := by
  rw [exactSum, List.map_cons, List.sum_cons, exactSum]

/-- The exact sum is the same in every order. -/
theorem exactSum_perm {amounts others : List Money} (h : amounts.Perm others) :
    exactSum amounts = exactSum others :=
  (h.map cents).sum_eq

/-- An addition is the exact sum brought into range. -/
theorem add_eq_clamp (a b : Money) : a + b = clamp (a.cents + b.cents) := rfl

/-- A total that is increased is a sum. -/
theorem run_forM_increase (amounts : List Money) (start : Money) :
    ((amounts.forM increase).run start).2 = amounts.foldl (· + ·) start := by
  induction amounts generalizing start with
  | nil => rfl
  | cons a rest ih => exact ih (start + a)

theorem runningSum_eq_sum (amounts : List Money) : runningSum amounts = sum amounts :=
  run_forM_increase amounts zero

/-! ## Without an overflow on the way -/

/-- A sum that fits is the sum brought into range. -/
theorem add_of_add? {a b total : Money} (h : add? a b = some total) : a + b = total := by
  rw [add_eq_clamp, ← ofCents?_eq_some_iff.1 h, clamp_cents]

theorem exact_of_foldlM_add? {amounts : List Money} {start total : Money}
    (h : amounts.foldlM add? start = some total) :
    amounts.foldl (· + ·) start = total ∧ total.cents = start.cents + exactSum amounts := by
  induction amounts generalizing start with
  | nil =>
      cases h
      exact ⟨rfl, (Int.add_zero _).symm⟩
  | cons a rest ih =>
      obtain ⟨next, hnext, hrest⟩ := Option.bind_eq_some_iff.1 h
      obtain ⟨hfold, hcents⟩ := ih hrest
      have hstep : next.cents = start.cents + a.cents := ofCents?_eq_some_iff.1 hnext
      rw [List.foldl_cons, add_of_add? hnext]
      refine ⟨hfold, ?_⟩
      rw [hcents, hstep, exactSum_cons, Int.add_assoc]

/-- If no sum on the way is out of range, nothing is brought into it, and the result is exact. -/
theorem exact_of_sum? {amounts : List Money} {total : Money}
    (h : Pricing.sum? amounts = some total) :
    sum amounts = total ∧ total.cents = exactSum amounts := by
  obtain ⟨hfold, hcents⟩ := exact_of_foldlM_add? h
  refine ⟨hfold, ?_⟩
  rw [hcents, zero, Int.zero_add]

/-! ## Amounts that are not negative -/

/-- Amounts that are not negative are brought into range once, at the end: a sum on the way that is too
large stays too large. -/
theorem foldl_add_eq_clamp {amounts : List Money} (h : ∀ a ∈ amounts, 0 ≤ a.cents) (start : Money) :
    amounts.foldl (· + ·) start = clamp (start.cents + exactSum amounts) := by
  induction amounts generalizing start with
  | nil => simp [exactSum]
  | cons a rest ih =>
      have ha := h a List.mem_cons_self
      have hrest : ∀ b ∈ rest, 0 ≤ b.cents := fun b hb => h b (List.mem_cons_of_mem a hb)
      have hmore : 0 ≤ exactSum rest := sum_cents_nonneg hrest
      have hlower := start.le_cents
      rw [List.foldl_cons, ih hrest, exactSum_cons]
      apply Money.ext
      simp only [add_eq_clamp, cents_clamp]
      omega

section Nonneg

variable {amounts : List Money} (h : ∀ a ∈ amounts, 0 ≤ a.cents)
include h

/-- The checked sum is the exact one as far as it fits. -/
theorem sum?_of_nonneg : Pricing.sum? amounts = ofCents? (exactSum amounts) := by
  rw [Pricing.sum?, foldlM_add?_eq h, zero, Int.zero_add, exactSum]

/-- There is a checked sum exactly if the exact one is at most the largest amount. -/
theorem isSome_sum?_iff : (Pricing.sum? amounts).isSome ↔ exactSum amounts ≤ 2 ^ 63 - 1 := by
  have hsum : 0 ≤ exactSum amounts := sum_cents_nonneg h
  rw [sum?_of_nonneg h, ← Option.ne_none_iff_isSome, ne_eq, ofCents?_eq_none_iff]
  omega

/-- The sum kept in range is the exact one or the largest amount, whichever is less. -/
theorem sum_of_nonneg : (sum amounts).cents = min (exactSum amounts) (2 ^ 63 - 1) := by
  have hsum : 0 ≤ exactSum amounts := sum_cents_nonneg h
  rw [sum, foldl_add_eq_clamp h]
  simp only [cents_clamp, zero]
  omega

/-- In another order the sums are the same. -/
theorem sums_perm {others : List Money} (hperm : amounts.Perm others) :
    Pricing.sum? others = Pricing.sum? amounts ∧ sum others = sum amounts := by
  have hothers : ∀ a ∈ others, 0 ≤ a.cents := fun a ha => h a (hperm.mem_iff.2 ha)
  refine ⟨?_, ?_⟩
  · rw [sum?_of_nonneg h, sum?_of_nonneg hothers, exactSum_perm hperm]
  · apply Money.ext
    rw [sum_of_nonneg h, sum_of_nonneg hothers, exactSum_perm hperm]

end Nonneg

/-- A negative amount makes the order matter: what was cut off before it is lost. -/
example : sum [clamp (2 ^ 63), clamp 1, clamp (-1)] ≠ sum [clamp (2 ^ 63), clamp (-1), clamp 1] := by
  decide

/-! ## Whole units -/

/-- The units that make no amount are those beyond either end of the range. -/
theorem ofUnits?_eq_none_iff {units : Int} :
    ofUnits? units = none ↔ units * 100 < -2 ^ 63 ∨ 2 ^ 63 ≤ units * 100 :=
  ofCents?_eq_none_iff

theorem ofUnits_of_ofUnits? {units : Int} {amount : Money} (h : ofUnits? units = some amount) :
    ofUnits units = amount := by
  rw [ofUnits, ← ofCents?_eq_some_iff.1 h, clamp_cents]

/-- Units that make no amount are taken for the end of the range on their side of zero. -/
theorem ofUnits_of_none {units : Int} (h : ofUnits? units = none) :
    (0 < units ∧ (ofUnits units).cents = 2 ^ 63 - 1) ∨
      (units < 0 ∧ (ofUnits units).cents = -2 ^ 63) := by
  rw [ofUnits?_eq_none_iff] at h
  simp only [ofUnits, cents_clamp]
  omega

end Money

/-- Sums of amounts. If no sum on the way from zero overflows, then the sum kept in range, by addition or
in place, is the checked one, and both are the exact sum. For amounts that are not negative, there is a
checked sum exactly if the exact one is at most the largest amount, the sum kept in range is the smaller
of these two, and no order of the amounts makes a difference. A number of whole units makes the checked
amount if there is one, and the end of the range on the side of its sign otherwise. -/
theorem money_sums :
    (∀ (amounts : List Money) (total : Money), Pricing.sum? amounts = some total →
      Money.sum amounts = total ∧ Money.runningSum amounts = total ∧
        total.cents = Money.exactSum amounts) ∧
    (∀ amounts : List Money, (∀ a ∈ amounts, 0 ≤ a.cents) →
      ((Pricing.sum? amounts).isSome ↔ Money.exactSum amounts ≤ 2 ^ 63 - 1) ∧
      (Money.sum amounts).cents = min (Money.exactSum amounts) (2 ^ 63 - 1) ∧
      (Money.runningSum amounts).cents = min (Money.exactSum amounts) (2 ^ 63 - 1) ∧
      ∀ others, amounts.Perm others →
        Pricing.sum? others = Pricing.sum? amounts ∧ Money.sum others = Money.sum amounts ∧
          Money.runningSum others = Money.runningSum amounts) ∧
    ∀ units : Int,
      (∀ amount, Money.ofUnits? units = some amount → Money.ofUnits units = amount) ∧
      (Money.ofUnits? units = none →
        (0 < units ∧ (Money.ofUnits units).cents = 2 ^ 63 - 1) ∨
          (units < 0 ∧ (Money.ofUnits units).cents = -2 ^ 63)) := by
  simp only [Money.runningSum_eq_sum]
  refine ⟨fun amounts total h => ?_, fun amounts h => ?_, fun units => ?_⟩
  · obtain ⟨hsum, hexact⟩ := Money.exact_of_sum? h
    exact ⟨hsum, hsum, hexact⟩
  · refine ⟨Money.isSome_sum?_iff h, Money.sum_of_nonneg h, Money.sum_of_nonneg h, ?_⟩
    intro others hperm
    obtain ⟨hchecked, hsum⟩ := Money.sums_perm h hperm
    exact ⟨hchecked, hsum, hsum⟩
  · exact ⟨fun amount => Money.ofUnits_of_ofUnits?, Money.ofUnits_of_none⟩

/-- A sum that touches the end of the range and turns back, one that goes beyond it by a cent in either
order, and the first number of units below the range. -/
theorem money_sums_edge :
    let most := Money.clamp (2 ^ 63)
    let cent := Money.clamp 1
    let back := Money.clamp (-1)
    let units := -92233720368547759
    (Pricing.sum? [most, back, cent] = some most ∧ Money.runningSum [most, back, cent] = most) ∧
      (Pricing.sum? [most, cent] = none ∧ (Money.sum [most, cent]).cents = 2 ^ 63 - 1 ∧
        Money.sum [cent, most] = Money.sum [most, cent]) ∧
      (Money.ofUnits? units = none ∧ (Money.ofUnits units).cents = -2 ^ 63) := by
  intro most cent back units
  obtain ⟨hexact, hnonneg, hunits⟩ := money_sums
  have hsum : Pricing.sum? [most, back, cent] = some most := by decide
  obtain ⟨hsome, hcents, -, hperm⟩ := hnonneg [most, cent] (by decide)
  have hover : ¬(Pricing.sum? [most, cent]).isSome := fun h => absurd (hsome.1 h) (by decide)
  have hnone : Money.ofUnits? units = none := by decide
  refine ⟨⟨hsum, (hexact _ _ hsum).2.1⟩, ⟨by simpa using hover, ?_, ?_⟩, hnone, ?_⟩
  · rw [hcents]
    decide
  · exact (hperm [cent, most] (.swap cent most [])).2.1
  · exact ((hunits units).2 hnone).resolve_left (fun h => absurd h.1 (by decide)) |>.2

end OrderDesk
