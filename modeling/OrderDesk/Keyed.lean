/-
# Lists with keys

Lists that hold at most one entry for a key, in the order in which the keys came in. A put takes the
place of the entry of its key, or comes last.

* `Keyed.find?_eq_some_iff` : what is found under a key, if the keys are distinct;
* `Keyed.find?_put` : a put is seen under its own key and nowhere else;
* `Keyed.nodup_put` : a put keeps the keys distinct;
* `Keyed.countP_put` : a put adds its own entry to a count, and takes the entry of its key out of it.
-/

namespace OrderDesk.Keyed

variable {α κ : Type} [DecidableEq κ] (key : α → κ)

/-- The entry of a key. -/
def find? (k : κ) (l : List α) : Option α :=
  l.find? fun a => key a = k

/-- The list with an entry in the place of the one of its key, or at the end. -/
def put (a : α) : List α → List α
  | [] => [a]
  | b :: rest => if key b = key a then a :: rest else b :: put a rest

/-- The entry found under a key has that key. -/
theorem key_of_find? {k : κ} {l : List α} {a : α} (h : find? key k l = some a) : key a = k := by
  simpa using List.find?_some h

/-- If the keys are distinct, an entry of the list is found under its key. -/
theorem find?_eq_some_iff {k : κ} {l : List α} {a : α} (h : (l.map key).Nodup) :
    find? key k l = some a ↔ a ∈ l ∧ key a = k := by
  refine ⟨fun ha => ⟨List.mem_of_find?_eq_some ha, key_of_find? key ha⟩, ?_⟩
  rintro ⟨ha, rfl⟩
  induction l with
  | nil => cases ha
  | cons b rest ih =>
      rw [List.map_cons, List.nodup_cons] at h
      rcases List.mem_cons.1 ha with rfl | ha
      · simp [find?]
      · have hne : key b ≠ key a := fun heq => h.1 (heq ▸ List.mem_map_of_mem ha)
        rw [find?, List.find?_cons_of_neg (by simpa using hne)]
        exact ih h.2 ha

/-- A put is seen under its own key and nowhere else. -/
theorem find?_put (a : α) (k : κ) (l : List α) :
    find? key k (put key a l) = if key a = k then some a else find? key k l := by
  induction l with
  | nil => by_cases h : key a = k <;> simp [find?, put, h]
  | cons b rest ih =>
      unfold put
      split
      · rename_i heq
        by_cases h : key a = k <;> simp [find?, heq, h]
      · rename_i hne
        by_cases hb : key b = k
        · have ha : ¬key a = k := fun h => hne (hb.trans h.symm)
          simp [find?, hb, ha]
        · simpa [find?, hb] using ih

/-- A put brings in at most its own entry. -/
theorem mem_put {a b : α} {l : List α} (h : b ∈ put key a l) : b = a ∨ b ∈ l := by
  induction l with
  | nil => simpa [put] using h
  | cons c rest ih =>
      unfold put at h
      split at h
      · rcases List.mem_cons.1 h with h | h
        · exact Or.inl h
        · exact Or.inr (List.mem_cons_of_mem _ h)
      · rcases List.mem_cons.1 h with h | h
        · exact Or.inr (h ▸ List.mem_cons_self)
        · exact (ih h).imp_right (List.mem_cons_of_mem _)

/-- A put adds its own entry to a count, and takes the entry that was found under its key out of it. -/
theorem countP_put (a : α) (l : List α) (p : α → Bool) :
    (put key a l).countP p + (find? key (key a) l).toList.countP p =
      l.countP p + if p a then 1 else 0 := by
  induction l with
  | nil => simp [find?, put, List.countP_cons]
  | cons b rest ih =>
      unfold put
      by_cases hb : key b = key a
      · rw [if_pos hb]
        simp only [find?, List.find?_cons, hb, decide_true, Option.toList_some, List.countP_cons,
          List.countP_nil]
        omega
      · have hrest : find? key (key a) (b :: rest) = find? key (key a) rest := by
          simp [find?, hb]
        rw [if_neg hb, hrest, List.countP_cons, List.countP_cons]
        omega

/-- A put keeps the keys distinct. -/
theorem nodup_put {a : α} {l : List α} (h : (l.map key).Nodup) : ((put key a l).map key).Nodup := by
  induction l with
  | nil => simp [put]
  | cons b rest ih =>
      rw [List.map_cons, List.nodup_cons] at h
      unfold put
      split
      · rename_i heq
        rw [List.map_cons, List.nodup_cons, ← heq]
        exact h
      · rename_i hne
        rw [List.map_cons, List.nodup_cons]
        refine ⟨fun hmem => ?_, ih h.2⟩
        obtain ⟨c, hc, hkey⟩ := List.mem_map.1 hmem
        rcases mem_put key hc with hc | hc
        · exact hne (hc ▸ hkey.symm)
        · exact h.1 (hkey ▸ List.mem_map_of_mem hc)

end OrderDesk.Keyed
