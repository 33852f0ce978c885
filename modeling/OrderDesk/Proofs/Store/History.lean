/-
# Histories of the order store

What becomes of the store when clients read and write it in any order, with orders of any content and
with any expected versions. A history is a list of actions; its journal is the list of the records that
accepted writes left in the store.

* `Store.act_fst` : an action leaves the store alone or puts in one record;
* `Store.age_after` : the version of a record grows by one for every accepted write of it, and by
  nothing else, as long as no version reaches the end of its range;
* `Store.get?_after` : a record that no accepted write is about stays as it is;
* `Store.Held.set` : a copy that was read is either the stored record still, or older than it.
-/
import OrderDesk.Store
import Mathlib.Algebra.Group.Nat.Defs

namespace OrderDesk

/-! ## Versions as numbers -/

namespace Version

/-- Versions are ordered as their numbers are. -/
theorem lt_iff_toNat_lt {a b : Version} : a < b ↔ a.number.toNat < b.number.toNat :=
  UInt64.lt_iff_toNat_lt

end Version

/-! ## Actions and replies -/

/-- What a client may ask of the store. -/
inductive StoreAction
  | get (id : OrderId)
  | put (order : Order) (expected : Option Version)
  | insertNew (order : Order)
  | update (order : Order)

/-- What the store answers. -/
inductive StoreReply
  | read (result : Except StoreError Order)
  | written (result : Except StoreError Version)

/-- The order that an action is to write, with the version that it expects. -/
def StoreAction.write? : StoreAction → Option (Order × Option Version)
  | get _ => none
  | put o expected => some (o, expected)
  | insertNew o => some (o, some .initial)
  | update o => some (o, some o.version)

namespace Store

/-- The store after a write, and what its writer is told. -/
def settle (s : Store) : Except StoreError (Store × Version) → Store × StoreReply
  | .ok (t, v) => (t, .written (.ok v))
  | .error e => (s, .written (.error e))

/-- The store after an action, and the reply. -/
def act (s : Store) : StoreAction → Store × StoreReply
  | .get id => (s, .read (s.get id))
  | .put o expected => s.settle (s.put o expected)
  | .insertNew o => s.settle (s.insertNew o)
  | .update o => s.settle (s.update o)

/-- The record that an action leaves in the store, if it is a write that is accepted. -/
def written? (s : Store) (a : StoreAction) : Option Order :=
  match a.write?, (s.act a).2 with
  | some (o, _), .written (.ok v) => some (o.withVersion v)
  | _, _ => none

/-- The store after a history. -/
def after (s : Store) : List StoreAction → Store
  | [] => s
  | a :: rest => (s.act a).1.after rest

/-- The records that the accepted writes of a history left in the store, the first one first. -/
def journal (s : Store) : List StoreAction → List Order
  | [] => []
  | a :: rest => (s.written? a).toList ++ (s.act a).1.journal rest

/-- The number of the version of a record; 0 if there is none. -/
def age (s : Store) (id : OrderId) : Nat :=
  (s.versionOf id).number.toNat

/-- No record has reached the largest version. -/
def Small (s : Store) : Prop :=
  ∀ o ∈ s.records, o.version.number.toNat < 2 ^ 64 - 1

instance (s : Store) : Decidable s.Small :=
  inferInstanceAs (Decidable (∀ o ∈ s.records, o.version.number.toNat < 2 ^ 64 - 1))

/-- No record reaches the largest version before, during or after a history. -/
def SmallAlong (s : Store) : List StoreAction → Prop
  | [] => s.Small
  | a :: rest => s.Small ∧ (s.act a).1.SmallAlong rest

instance decidableSmallAlong (s : Store) : (actions : List StoreAction) →
    Decidable (s.SmallAlong actions)
  | [] => inferInstanceAs (Decidable s.Small)
  | a :: rest =>
      have := decidableSmallAlong (s.act a).1 rest
      inferInstanceAs (Decidable (s.Small ∧ (s.act a).1.SmallAlong rest))

theorem get_eq_ok_iff {s : Store} {id : OrderId} {o : Order} :
    s.get id = .ok o ↔ s.get? id = some o := by
  unfold get
  cases s.get? id <;> simp

/-! ## One action -/

/-- A write is accepted exactly if it expects nothing or the version of the stored record. -/
theorem put_eq (s : Store) (o : Order) (expected : Option Version) :
    s.put o expected =
      if ∀ v ∈ expected, s.versionOf o.id = v then
        .ok (s.set (o.withVersion (s.versionOf o.id).next), (s.versionOf o.id).next)
      else .error (.conflict o.id (expected.getD .initial) (s.versionOf o.id)) := by
  cases expected with
  | none => simp [put]
  | some v => simp [put]

/-- The actions that write do what a put does. -/
theorem act_of_write? {s : Store} {a : StoreAction} {o : Order} {expected : Option Version}
    (h : a.write? = some (o, expected)) : s.act a = s.settle (s.put o expected) := by
  cases a <;> cases h <;> rfl

/-- A write that expects a version is accepted exactly if that is the stored one. -/
theorem reply_of_write? {s : Store} {a : StoreAction} {o : Order} {v : Version}
    (h : a.write? = some (o, some v)) :
    (s.act a).2 =
      if s.versionOf o.id = v then .written (.ok v.next)
      else .written (.error (.conflict o.id v (s.versionOf o.id))) := by
  rw [act_of_write? h, put]
  by_cases hv : s.versionOf o.id = v
  · simp [settle, hv]
  · simp [settle, hv]

/-- The record left by an action is the order written, at the next version, if that is accepted. -/
theorem written?_of_write? {s : Store} {a : StoreAction} {o : Order} {expected : Option Version}
    (h : a.write? = some (o, expected)) :
    s.written? a =
      if ∀ v ∈ expected, s.versionOf o.id = v then
        some (o.withVersion (s.versionOf o.id).next)
      else none := by
  unfold written?
  rw [act_of_write? h, h, put_eq]
  by_cases hv : ∀ v ∈ expected, s.versionOf o.id = v
  · rw [if_pos hv, if_pos hv]
    rfl
  · rw [if_neg hv, if_neg hv]
    rfl

/-- An action that writes nothing leaves no record. -/
theorem written?_of_write?_eq_none {s : Store} {a : StoreAction} (h : a.write? = none) :
    s.written? a = none := by
  unfold written?
  rw [h]

/-- An action leaves the store alone or puts in one record. -/
theorem act_fst (s : Store) (a : StoreAction) :
    (s.act a).1 = ((s.written? a).map s.set).getD s := by
  cases hw : a.write? with
  | none =>
      rw [written?_of_write?_eq_none hw]
      cases a <;> simp_all [StoreAction.write?, act]
  | some w =>
      obtain ⟨o, expected⟩ := w
      rw [written?_of_write? hw, act_of_write? hw, put_eq]
      split <;> rfl

/-- The record that an action leaves is at the version after the one that was stored. -/
theorem version_of_written? {s : Store} {a : StoreAction} {o : Order} (h : s.written? a = some o) :
    o.version = (s.versionOf o.id).next := by
  cases hw : a.write? with
  | none =>
      rw [written?_of_write?_eq_none hw] at h
      cases h
  | some w =>
      obtain ⟨p, expected⟩ := w
      rw [written?_of_write? hw] at h
      split at h
      · cases h
        rfl
      · cases h

/-! ## Versions only grow -/

theorem versionOf_of_get? {s : Store} {id : OrderId} {o : Order} (h : s.get? id = some o) :
    s.versionOf id = o.version := by
  simp [versionOf, h]

theorem mem_records_of_get? {s : Store} {id : OrderId} {o : Order} (h : s.get? id = some o) :
    o ∈ s.records :=
  List.mem_of_find?_eq_some h

theorem Small.age_lt {s : Store} (h : s.Small) (id : OrderId) : s.age id < 2 ^ 64 - 1 := by
  unfold age
  cases hs : s.get? id with
  | none =>
      simp only [versionOf, hs]
      decide
  | some o =>
      rw [versionOf_of_get? hs]
      exact h o (mem_records_of_get? hs)

theorem versionOf_set (s : Store) (o : Order) (id : OrderId) :
    (s.set o).versionOf id = if o.id = id then o.version else s.versionOf id := by
  unfold versionOf
  rw [get?_set]
  split <;> rfl

theorem age_set (s : Store) (o : Order) (id : OrderId) :
    (s.set o).age id = if o.id = id then o.version.number.toNat else s.age id := by
  unfold age
  rw [versionOf_set]
  split <;> rfl

/-- An accepted write adds one to the version of its record and nothing to any other. -/
theorem age_act {s : Store} (hs : s.Small) (a : StoreAction) (id : OrderId) :
    (s.act a).1.age id = s.age id + (s.written? a).toList.countP (fun o => o.id = id) := by
  rw [act_fst]
  cases he : s.written? a with
  | none => simp
  | some o =>
      -- the record comes in at the next version, and the numbers do not run out
      have hv : o.version.number.toNat = s.age o.id + 1 := by
        rw [version_of_written? he]
        exact Version.toNat_next (hs.age_lt o.id)
      simp only [Option.map_some, Option.getD_some, age_set, Option.toList_some]
      by_cases ho : o.id = id
      · subst ho
        simp [hv]
      · simp [ho]

/-- The version of a record grows by one for every accepted write of it. -/
theorem age_after {s : Store} {actions : List StoreAction} (hs : s.SmallAlong actions)
    (id : OrderId) :
    (s.after actions).age id = s.age id + (s.journal actions).countP (fun o => o.id = id) := by
  induction actions generalizing s with
  | nil => rfl
  | cons a rest ih =>
      rw [after, journal, ih hs.2, age_act hs.1, List.countP_append]
      omega

/-- A record that no accepted write is about stays as it is. -/
theorem get?_after {s : Store} {actions : List StoreAction} {id : OrderId}
    (h : ∀ o ∈ s.journal actions, o.id ≠ id) : (s.after actions).get? id = s.get? id := by
  induction actions generalizing s with
  | nil => rfl
  | cons a rest ih =>
      rw [journal] at h
      have hrest : ∀ o ∈ (s.act a).1.journal rest, o.id ≠ id := fun o ho =>
        h o (List.mem_append_right _ ho)
      rw [after, ih hrest, act_fst]
      cases he : s.written? a with
      | none => rfl
      | some o =>
          have ho : o.id ≠ id := h o (by simp [he])
          simp only [Option.map_some, Option.getD_some, get?_set, if_neg ho]

theorem smallAlong_append {s : Store} {xs ys : List StoreAction} (h : s.SmallAlong (xs ++ ys)) :
    s.SmallAlong xs ∧ (s.after xs).SmallAlong ys := by
  induction xs generalizing s with
  | nil =>
      refine ⟨?_, h⟩
      cases ys with
      | nil => exact h
      | cons b rest => exact h.1
  | cons a rest ih =>
      obtain ⟨hrest, hys⟩ := ih h.2
      exact ⟨⟨h.1, hrest⟩, hys⟩

theorem SmallAlong.take {s : Store} {before actions : List StoreAction}
    (h : s.SmallAlong (before ++ actions)) (k : Nat) :
    (s.after before).SmallAlong (actions.take k) := by
  have hactions := (smallAlong_append h).2
  rw [← List.take_append_drop k actions] at hactions
  exact (smallAlong_append hactions).1

/-! ## Copies that were read -/

/-- A copy of a record is held if it is the stored record still, or older than that one. -/
def Held (s : Store) (r : Order) : Prop :=
  s.get? r.id = some r ∨ r.version.number.toNat < s.age r.id

/-- A held copy at the stored version is the stored record. -/
theorem Held.get?_eq {s : Store} {r : Order} (h : s.Held r) (hv : s.versionOf r.id = r.version) :
    s.get? r.id = some r := by
  rcases h with h | h
  · exact h
  · rw [age, hv] at h
    exact absurd h (Nat.lt_irrefl _)

/-- A held copy stays held when a record is put in at the next version. -/
theorem Held.set {s : Store} {r o : Order} (h : s.Held r)
    (ho : o.version.number.toNat = s.age o.id + 1) : (s.set o).Held r := by
  unfold Held
  rw [get?_set, age_set]
  by_cases hid : o.id = r.id
  · right
    rw [if_pos hid, ho, hid]
    rcases h with h | h
    · rw [age, versionOf_of_get? h]
      exact Nat.lt_succ_self _
    · exact Nat.lt_succ_of_lt h
  · rw [if_neg hid, if_neg hid]
    exact h

/-- A record that is read is held. -/
theorem held_of_get?_eq_some {s : Store} {id : OrderId} {r : Order} (h : s.get? id = some r) :
    s.Held r := by
  left
  rw [id_of_get? h]
  exact h

end Store

end OrderDesk
