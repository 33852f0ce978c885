/-
# Comparisons and sorting

Two lists are compared item by item, and the first pair of different items decides. So runs of one length
at the front of two lists decide before anything that follows them, and another spelling of the items that
keeps their order keeps the order of the lists. What a list is sorted into depends on the order only, if
items that compare as equal are the same: any two ways of sorting it give one list.

* `compare_append` , `compare_map` : lists in two parts, and lists of other items;
* `compare_of_lt_iff` : an outcome is known from what is smaller;
* `Sorts` : the lists that a list may be sorted into;
* `Sorts.unique` , `Sorts.map` : there is only one, and what keeps the order keeps it.
-/
import Mathlib.Data.List.Basic

namespace OrderDesk

variable {α β : Type}

/-! ## Lists -/

section Lists

variable [Ord α] [Ord β]

/-- Runs of one length at the front decide first. -/
theorem compare_append {xs ys : List α} (h : xs.length = ys.length) (vs ws : List α) :
    compare (xs ++ vs) (ys ++ ws) = (compare xs ys).then (compare vs ws) := by
  induction xs generalizing ys with
  | nil =>
      obtain rfl := List.length_eq_zero_iff.1 h.symm
      rfl
  | cons x xs ih =>
      cases ys with
      | nil => cases h
      | cons y ys =>
          rw [List.cons_append, List.cons_append, List.compare_cons_cons, ih (Nat.succ.inj h),
            List.compare_cons_cons, Ordering.then_assoc]

/-- What keeps the order of the items keeps that of the lists. -/
theorem compare_map {f : α → β} {xs ys : List α}
    (h : ∀ a ∈ xs, ∀ b ∈ ys, compare (f a) (f b) = compare a b) :
    compare (xs.map f) (ys.map f) = compare xs ys := by
  induction xs generalizing ys with
  | nil => cases ys <;> rfl
  | cons x xs ih =>
      cases ys with
      | nil => rfl
      | cons y ys =>
          have hrest := ih fun a ha b hb => h a (List.mem_cons_of_mem _ ha) b (List.mem_cons_of_mem _ hb)
          rw [List.map_cons, List.map_cons, List.compare_cons_cons, h x List.mem_cons_self y
            List.mem_cons_self, hrest, List.compare_cons_cons]

end Lists

/-! ## Smaller items -/

section Smaller

variable [Ord α] [LT α] [Std.LawfulLTOrd α] [Ord β] [LT β] [Std.LawfulLTOrd β]

/-- Comparing lists tells which one is smaller if comparing items does. -/
instance lawfulLTOrdList [Std.LawfulEqOrd α] : Std.LawfulLTOrd (List α) where
  eq_lt_iff_lt {xs ys} := by
    induction xs generalizing ys with
    | nil =>
        cases ys with
        | nil => simp
        | cons y ys => simp
    | cons x xs ih =>
        cases ys with
        | nil => simp
        | cons y ys =>
            have hitem : compare x y = .lt ↔ x < y := Std.LawfulLTCmp.eq_lt_iff_lt
            rw [List.compare_cons_cons, Ordering.then_eq_lt, List.cons_lt_cons_iff, ih, hitem,
              Std.LawfulEqOrd.compare_eq_iff_eq]

/-- The outcome is known from which of the two is smaller. -/
theorem compare_of_lt_iff {a b : α} {c d : β} (hlt : a < b ↔ c < d) (hgt : b < a ↔ d < c) :
    compare a b = compare c d := by
  have hless : compare a b = .lt ↔ compare c d = .lt :=
    calc
      compare a b = .lt ↔ a < b := Std.LawfulLTCmp.eq_lt_iff_lt
      _ ↔ c < d := hlt
      _ ↔ compare c d = .lt := Std.LawfulLTCmp.eq_lt_iff_lt.symm
  have hgreater : compare a b = .gt ↔ compare c d = .gt :=
    calc
      compare a b = .gt ↔ compare b a = .lt := Std.OrientedCmp.gt_iff_lt
      _ ↔ b < a := Std.LawfulLTCmp.eq_lt_iff_lt
      _ ↔ d < c := hgt
      _ ↔ compare d c = .lt := Std.LawfulLTCmp.eq_lt_iff_lt.symm
      _ ↔ compare c d = .gt := Std.OrientedCmp.gt_iff_lt.symm
  cases hab : compare a b <;> cases hcd : compare c d <;> simp_all

end Smaller

/-! ## Sorting -/

/-- A list that another one may be sorted into: it has the same items, each as many times, and none stands
behind a greater one. -/
structure Sorts (cmp : α → α → Ordering) (items sorted : List α) : Prop where
  perm : sorted.Perm items
  ordered : sorted.Pairwise fun a b => (cmp a b).isLE

section Sorting

variable {cmp : α → α → Ordering} {items sorted : List α}

/-- Sorting gives one list, however it is done. -/
theorem Sorts.unique [Std.OrientedCmp cmp] [Std.LawfulEqCmp cmp] {others : List α}
    (h : Sorts cmp items sorted) (h' : Sorts cmp items others) : sorted = others := by
  refine List.Perm.eq_of_pairwise (fun a b _ _ hab hba => ?_) h.ordered h'.ordered
    (h.perm.trans h'.perm.symm)
  exact Std.LawfulEqCmp.eq_of_compare (Std.OrientedCmp.isLE_antisymm hab hba)

/-- What keeps the order of items takes what they are sorted into along. -/
theorem Sorts.map {order : β → β → Ordering} {f : α → β} (hf : ∀ a b, order (f a) (f b) = cmp a b)
    (h : Sorts cmp items sorted) : Sorts order (items.map f) (sorted.map f) := by
  refine ⟨h.perm.map f, List.pairwise_map.2 (h.ordered.imp fun {a b} hab => ?_)⟩
  rw [hf a b]
  exact hab

theorem sorts_mergeSort [Std.TransCmp cmp] (items : List α) :
    Sorts cmp items (items.mergeSort fun a b => (cmp a b).isLE) := by
  have htrans : ∀ a b c, (cmp a b).isLE = true → (cmp b c).isLE = true → (cmp a c).isLE = true :=
    fun a b c => Std.TransCmp.isLE_trans
  have htotal : ∀ a b, ((cmp a b).isLE || (cmp b a).isLE) = true := by
    intro a b
    have hswap : cmp b a = (cmp a b).swap := Std.OrientedCmp.eq_swap
    rw [hswap]
    cases cmp a b <;> rfl
  exact ⟨List.mergeSort_perm _ _, List.pairwise_mergeSort htrans htotal _⟩

end Sorting

end OrderDesk
