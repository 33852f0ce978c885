/-
# Totals of prices

What an answer of the inventory says about a request, in the words of lists and of exact sums. The price
of a part is the last one that is answered for it, a total is the exact sum over every occurrence in the
request as long as it is in the range of amounts, and what is missing is told once, in the order of the
request.

* `FirstOccurrences` : the members of a list of some kind, each once, in the order of the list;
* `Money.foldlM_add?_eq` : summing up amounts that are not negative never stops without need;
* `Pricing.lastPrice` : the price that an answer gives for a part;
* `Pricing.isNegative_total` : prices that are not negative have no negative total;
* `Pricing.total_of_known` : the total of parts that all have a price;
* `Pricing.total_eq_partsNotFound_iff` : which parts are reported as missing.
-/
import OrderDesk.Desk.Pricing
import Mathlib.Algebra.BigOperators.Group.List.Basic
import Mathlib.Algebra.Ring.Int.Defs
import Mathlib.Data.List.Induction

namespace OrderDesk

/-! ## First occurrences -/

/-- A list of the members of another list that are of some kind: each once, in the order of their first
occurrence there. -/
structure FirstOccurrences {α : Type} [DecidableEq α] (l : List α) (p : α → Prop) (once : List α) :
    Prop where
  mem_iff : ∀ a, a ∈ once ↔ a ∈ l ∧ p a
  sorted : once.Pairwise fun a b => l.idxOf a < l.idxOf b

namespace FirstOccurrences

variable {α : Type} [DecidableEq α]

/-- Without its repetitions, a list is the list of the first occurrences of all its members. -/
theorem eraseDups (l : List α) : FirstOccurrences l (fun _ => True) l.eraseDups := by
  refine ⟨by simp, ?_⟩
  -- the list grows at its end, where a new member comes after all others
  induction l using List.reverseRecOn with
  | nil => simp
  | append_singleton l a ih =>
      have hold : ∀ b, b ∈ l → (l ++ [a]).idxOf b = l.idxOf b := by
        intro b hb
        rw [List.idxOf_append, if_pos hb]
      rw [List.eraseDups_append, List.pairwise_append]
      refine ⟨?_, ?_, ?_⟩
      · refine ih.imp_of_mem fun hb hc hlt => ?_
        rwa [hold _ (List.mem_eraseDups.1 hb), hold _ (List.mem_eraseDups.1 hc)]
      · by_cases ha : a ∈ l <;> simp [List.removeAll, List.eraseDups_cons, ha]
      · intro b hb c hc
        obtain ⟨hca, hcl⟩ : c = a ∧ c ∉ l := by
          simpa [List.removeAll] using hc
        rw [hold b (List.mem_eraseDups.1 hb), List.idxOf_append, if_neg hcl]
        exact Nat.lt_add_left _ (List.idxOf_lt_length_iff.2 (List.mem_eraseDups.1 hb))

/-- Of first occurrences, those of a further kind are first occurrences. -/
theorem filter {l once : List α} {p : α → Prop} (h : FirstOccurrences l p once) (q : α → Bool) :
    FirstOccurrences l (fun a => p a ∧ q a = true) (once.filter q) where
  mem_iff a := by rw [List.mem_filter, h.mem_iff, and_assoc]
  sorted := h.sorted.filter q

/-- Kinds with the same members of a list have the same first occurrences. -/
theorem congr {l once : List α} {p q : α → Prop} (h : FirstOccurrences l p once)
    (hpq : ∀ a, p a ↔ q a) : FirstOccurrences l q once where
  mem_iff a := by rw [h.mem_iff, hpq]
  sorted := h.sorted

end FirstOccurrences

/-! ## Exact sums -/

namespace Money

theorem isNegative_eq_false_iff {m : Money} : m.isNegative = false ↔ 0 ≤ m.cents := by
  simp [isNegative]

theorem isNegative_iff {m : Money} : m.isNegative = true ↔ m.cents < 0 := by
  simp [isNegative]

/-- An amount that fits is given exactly for the numbers in the range. -/
theorem ofCents?_eq_none_iff {cents : Int} :
    ofCents? cents = none ↔ cents < -2 ^ 63 ∨ 2 ^ 63 ≤ cents := by
  simp only [ofCents?, Int64.toInt_minValue, Int64.toInt_maxValue]
  split <;> simp <;> omega

/-- Amounts that are not negative have a sum that is not. -/
theorem sum_cents_nonneg {amounts : List Money} (h : ∀ a ∈ amounts, 0 ≤ a.cents) :
    0 ≤ (amounts.map cents).sum := by
  induction amounts with
  | nil => simp
  | cons a rest ih =>
      have ha := h a List.mem_cons_self
      have hrest := ih fun b hb => h b (List.mem_cons_of_mem a hb)
      rw [List.map_cons, List.sum_cons]
      omega

/-- Summing up amounts that are not negative stops only if the exact sum does not fit: what is too much
on the way is too much at the end. -/
theorem foldlM_add?_eq {amounts : List Money} (h : ∀ a ∈ amounts, 0 ≤ a.cents) (start : Money) :
    amounts.foldlM add? start = ofCents? (start.cents + (amounts.map cents).sum) := by
  induction amounts generalizing start with
  | nil => simp
  | cons a rest ih =>
      have ha := h a List.mem_cons_self
      have hrest : ∀ b ∈ rest, 0 ≤ b.cents := fun b hb => h b (List.mem_cons_of_mem a hb)
      rw [List.foldlM_cons, List.map_cons, List.sum_cons, ← Int.add_assoc]
      cases hsum : add? start a with
      | some sum =>
          have hcents : sum.cents = start.cents + a.cents := ofCents?_eq_some_iff.1 hsum
          rw [← hcents]
          exact ih hrest sum
      | none =>
          have hlower := start.le_cents
          have hmore := sum_cents_nonneg hrest
          have hover : 2 ^ 63 ≤ start.cents + a.cents := by
            rcases ofCents?_eq_none_iff.1 hsum with hunder | hover
            · omega
            · exact hover
          exact (ofCents?_eq_none_iff.2 (Or.inr (by omega))).symm

end Money

/-! ## Prices and totals -/

namespace Pricing

/-- Whether an answer has a price for a part. -/
def Answered (snapshots : List PartSnapshot) (id : PartId) : Prop :=
  ∃ p ∈ snapshots, p.id = id

instance (snapshots : List PartSnapshot) (id : PartId) : Decidable (Answered snapshots id) :=
  inferInstanceAs (Decidable (∃ p ∈ snapshots, p.id = id))

/-- The cents of the price that is answered for a part: of the last one, if there are several. -/
def lastPrice (snapshots : List PartSnapshot) (id : PartId) : Int :=
  (((snapshots.filter (·.id = id)).getLast?).map (·.price.cents)).getD 0

theorem price?_eq_none_iff {snapshots : List PartSnapshot} {id : PartId} :
    price? snapshots id = none ↔ ¬Answered snapshots id := by
  simp [price?, Answered, List.find?_eq_none]

/-- A price is one of those answered. -/
theorem exists_of_price? {snapshots : List PartSnapshot} {id : PartId} {price : Money}
    (h : price? snapshots id = some price) : ∃ p ∈ snapshots, p.price = price := by
  obtain ⟨p, hp, rfl⟩ := Option.map_eq_some_iff.1 h
  exact ⟨p, List.mem_reverse.1 (List.mem_of_find?_eq_some hp), rfl⟩

/-- Among prices that are not negative, those of a request are not. -/
theorem filterMap_price?_nonneg {snapshots : List PartSnapshot}
    (h : ∀ p ∈ snapshots, 0 ≤ p.price.cents) (parts : List PartId) :
    ∀ amount ∈ parts.filterMap (price? snapshots), 0 ≤ amount.cents := by
  intro amount hamount
  obtain ⟨id, -, hid⟩ := List.mem_filterMap.1 hamount
  obtain ⟨p, hp, rfl⟩ := exists_of_price? hid
  exact h p hp

/-- The price of a part is the last one that is answered for it. -/
theorem cents_of_price? {snapshots : List PartSnapshot} {id : PartId} {price : Money}
    (h : price? snapshots id = some price) : price.cents = lastPrice snapshots id := by
  obtain ⟨p, hp, rfl⟩ := Option.map_eq_some_iff.1 h
  rw [lastPrice, List.getLast?_filter, hp]
  rfl

/-- Parts that all have a price are summed up with every occurrence. -/
theorem map_cents_filterMap_price? {snapshots : List PartSnapshot} {parts : List PartId}
    (h : ∀ id ∈ parts, Answered snapshots id) :
    (parts.filterMap (price? snapshots)).map Money.cents = parts.map (lastPrice snapshots) := by
  induction parts with
  | nil => rfl
  | cons id rest ih =>
      obtain ⟨price, hprice⟩ : ∃ price, price? snapshots id = some price := by
        rw [← Option.ne_none_iff_exists', ne_eq, price?_eq_none_iff, not_not]
        exact h id List.mem_cons_self
      rw [List.filterMap_cons_some hprice, List.map_cons, List.map_cons, cents_of_price? hprice,
        ih fun other hother => h other (List.mem_cons_of_mem id hother)]

/-- What is missing are the requested parts without a price, each once, in the order of the request. -/
theorem firstOccurrences_missing (snapshots : List PartSnapshot) (parts : List PartId) :
    FirstOccurrences parts (¬Answered snapshots ·) (missing snapshots parts) := by
  refine ((FirstOccurrences.eraseDups parts).filter _).congr fun id => ?_
  rw [true_and, Option.isNone_iff_eq_none, price?_eq_none_iff]

/-- Nothing is missing if every requested part has a price. -/
theorem missing_eq_nil_iff {snapshots : List PartSnapshot} {parts : List PartId} :
    missing snapshots parts = [] ↔ ∀ id ∈ parts, Answered snapshots id := by
  rw [List.eq_nil_iff_forall_not_mem]
  simp only [(firstOccurrences_missing snapshots parts).mem_iff, not_and, not_not]

/-- What can be wrong with prices: one is negative, some are missing, or their total is out of range. -/
theorem of_total_eq_error {snapshots : List PartSnapshot} {parts : List PartId} {e : OrderError}
    (h : total snapshots parts = .error e) :
    (∃ bad ∈ snapshots, bad.price.isNegative = true ∧ e = .inventoryUnavailable
        ("part " ++ bad.id.text ++ " has negative price " ++ bad.price.text)) ∨
      e = .partsNotFound (missing snapshots parts) ∨ e = .totalTooLarge := by
  unfold total at h
  split at h
  · rename_i bad hbad
    cases h
    exact Or.inl ⟨bad, List.mem_of_find?_eq_some hbad, by simpa using List.find?_some hbad, rfl⟩
  · split at h
    · cases h
      exact Or.inr (Or.inl rfl)
    · split at h
      · cases h
      · cases h
        exact Or.inr (Or.inr rfl)

/-- A total is never negative. -/
theorem isNegative_total {snapshots : List PartSnapshot} {parts : List PartId} {amount : Money}
    (h : total snapshots parts = .ok amount) : amount.isNegative = false := by
  unfold total at h
  split at h
  · cases h
  · rename_i hnone
    split at h
    · cases h
    · split at h
      · rename_i sum hsum
        cases h
        have hprices : ∀ p ∈ snapshots, 0 ≤ p.price.cents := fun p hp =>
          Money.isNegative_eq_false_iff.1 (by simpa using List.find?_eq_none.1 hnone p hp)
        have hamounts := filterMap_price?_nonneg hprices parts
        rw [sum?, Money.foldlM_add?_eq hamounts] at hsum
        rw [Money.isNegative_eq_false_iff, Money.ofCents?_eq_some_iff.1 hsum]
        exact Int.add_nonneg (Int.le_refl 0) (Money.sum_cents_nonneg hamounts)
      · cases h

/-- The first negative price decides, whatever else is wrong. -/
theorem total_of_negative {before after : List PartSnapshot} {bad : PartSnapshot}
    (hbefore : ∀ p ∈ before, 0 ≤ p.price.cents) (hbad : bad.price.cents < 0) (parts : List PartId) :
    total (before ++ bad :: after) parts = .error (.inventoryUnavailable
      ("part " ++ bad.id.text ++ " has negative price " ++ bad.price.text)) := by
  have hfind : (before ++ bad :: after).find? (·.price.isNegative) = some bad := by
    rw [List.find?_eq_some_iff_append]
    refine ⟨Money.isNegative_iff.2 hbad, before, after, rfl, fun p hp => ?_⟩
    rw [Money.isNegative_eq_false_iff.2 (hbefore p hp)]
    rfl
  simp only [total, hfind]

section Priced

variable {snapshots : List PartSnapshot} (hprices : ∀ p ∈ snapshots, 0 ≤ p.price.cents)
  (parts : List PartId)
include hprices

theorem find?_isNegative_eq_none : snapshots.find? (·.price.isNegative) = none := by
  rw [List.find?_eq_none]
  intro p hp
  simp [Money.isNegative_eq_false_iff.2 (hprices p hp)]

/-- Without a negative price, missing parts are reported whatever the others cost. -/
theorem total_of_missing (hmissing : missing snapshots parts ≠ []) :
    total snapshots parts = .error (.partsNotFound (missing snapshots parts)) := by
  simp only [total, find?_isNegative_eq_none hprices, if_pos hmissing]

/-- Prices that are not negative have no negative sum. -/
theorem sum_lastPrice_nonneg (hknown : ∀ id ∈ parts, Answered snapshots id) :
    0 ≤ (parts.map (lastPrice snapshots)).sum := by
  rw [← map_cents_filterMap_price? hknown]
  exact Money.sum_cents_nonneg (filterMap_price?_nonneg hprices parts)

/-- The total of parts that all have a price is the exact sum of these, if that is an amount. -/
theorem total_of_known (hknown : ∀ id ∈ parts, Answered snapshots id) :
    total snapshots parts =
      (Money.ofCents? (parts.map (lastPrice snapshots)).sum).elim (.error .totalTooLarge) .ok := by
  have hsum : sum? (parts.filterMap (price? snapshots)) =
      Money.ofCents? (parts.map (lastPrice snapshots)).sum := by
    rw [sum?, Money.foldlM_add?_eq (filterMap_price?_nonneg hprices parts),
      map_cents_filterMap_price? hknown]
    simp [Money.zero]
  have hmissing : ¬missing snapshots parts ≠ [] := not_not.2 (missing_eq_nil_iff.2 hknown)
  simp only [total, find?_isNegative_eq_none hprices, if_neg hmissing, hsum]
  cases Money.ofCents? (parts.map (lastPrice snapshots)).sum with
  | some amount => rfl
  | none => rfl

/-- Parts are reported as missing exactly if there are any. -/
theorem total_eq_partsNotFound_iff (reported : List PartId) :
    total snapshots parts = .error (.partsNotFound reported) ↔
      reported = missing snapshots parts ∧ ∃ id ∈ parts, ¬Answered snapshots id := by
  by_cases hknown : ∀ id ∈ parts, Answered snapshots id
  · rw [total_of_known hprices parts hknown]
    refine ⟨fun h => ?_, fun ⟨_, id, hid, hno⟩ => absurd (hknown id hid) hno⟩
    cases hfits : Money.ofCents? (parts.map (lastPrice snapshots)).sum <;> rw [hfits] at h <;> cases h
  · have hmissing : missing snapshots parts ≠ [] := fun h => hknown (missing_eq_nil_iff.1 h)
    rw [total_of_missing hprices parts hmissing, Except.error.injEq, OrderError.partsNotFound.injEq]
    refine ⟨fun h => ⟨h.symm, ?_⟩, fun h => h.1.symm⟩
    simpa using hknown

end Priced

end Pricing

end OrderDesk
