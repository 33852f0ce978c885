/-
# The store as a chronicle of writes

A chronicle is the list of the orders that were handed in by accepted writes. It says all about the
store: which identifiers are in use, what is stored under each of them, at which version, and which
writes will be accepted. The version that an order carries when it is handed in does not matter.

* `Store.chronicle` : the orders of the accepted writes of a history;
* `Store.Follows` : a store that holds what a chronicle says;
* `Store.follows_act` : an action takes the store along with its chronicle;
* `store_follows_chronicle` : what the store answers after any history, and what a write does to it.
-/
import Mathlib.Data.Finset.Card
import Mathlib.Data.Finset.Dedup
import OrderDesk.Proofs.Store.History

namespace OrderDesk

/-! ## Chronicles -/

/-- The orders of accepted writes as they were handed in, the first one first. -/
structure Chronicle where
  orders : List Order

namespace Chronicle

/-- The orders that were written under an identifier. -/
def writes (h : Chronicle) (id : OrderId) : List Order :=
  h.orders.filter (·.id = id)

/-- How often an identifier was written. -/
def count (h : Chronicle) (id : OrderId) : Nat :=
  (h.writes id).length

/-- The order that was last written under an identifier. -/
def last? (h : Chronicle) (id : OrderId) : Option Order :=
  (h.writes id).getLast?

/-- The identifiers that were written. -/
def ids (h : Chronicle) : Finset OrderId :=
  (h.orders.map Order.id).toFinset

/-- The chronicle with one more order. -/
def note (h : Chronicle) (o : Order) : Chronicle :=
  ⟨h.orders ++ [o]⟩

variable (h : Chronicle) (o : Order) (id : OrderId)

theorem count_note : (h.note o).count id = h.count id + if o.id = id then 1 else 0 := by
  by_cases ho : o.id = id <;> simp [count, writes, note, ho]

theorem last?_note : (h.note o).last? id = if o.id = id then some o else h.last? id := by
  by_cases ho : o.id = id <;> simp [last?, writes, note, ho]

theorem isSome_last? : (h.last? id).isSome ↔ id ∈ h.ids := by
  simp [last?, writes, ids]

theorem last?_eq_none_iff : h.last? id = none ↔ h.count id = 0 := by
  simp [last?, count]

theorem count_le_of_append {orders later : List Order} :
    (Chronicle.mk orders).count id ≤ (Chronicle.mk (orders ++ later)).count id := by
  simp [count, writes]

end Chronicle

/-- Versions with the same number are the same. -/
theorem Version.eq_of_toNat_eq {v w : Version} (h : v.number.toNat = w.number.toNat) : v = w := by
  cases v
  cases w
  exact congrArg Version.mk (UInt64.toNat_inj.1 h)

/-! ## Accepted writes -/

namespace Store

/-- The order that an action hands in, if it is a write that is accepted. -/
def accepted? (s : Store) (a : StoreAction) : Option Order :=
  match a.write?, (s.act a).2 with
  | some (o, _), .written (.ok _) => some o
  | _, _ => none

/-- The orders of the accepted writes of a history. -/
def accepted (s : Store) : List StoreAction → List Order
  | [] => []
  | a :: rest => (s.accepted? a).toList ++ (s.act a).1.accepted rest

/-- The chronicle of a history. -/
def chronicle (s : Store) (actions : List StoreAction) : Chronicle :=
  ⟨s.accepted actions⟩

/-- An accepted order is left in the store at the next version. -/
theorem written?_eq_accepted? (s : Store) (a : StoreAction) :
    s.written? a = (s.accepted? a).map fun o => o.withVersion (s.versionOf o.id).next := by
  cases hw : a.write? with
  | none => simp [written?_of_write?_eq_none hw, accepted?, hw]
  | some w =>
      obtain ⟨o, expected⟩ := w
      rw [written?_of_write? hw]
      unfold accepted?
      rw [act_of_write? hw, put_eq, hw]
      by_cases hv : ∀ v ∈ expected, s.versionOf o.id = v
      · rw [if_pos hv, if_pos hv]
        rfl
      · rw [if_neg hv, if_neg hv]
        rfl

/-! ## Stores that follow a chronicle -/

/-- A store holds what a chronicle says: under each identifier the order written last, at the version
that counts the writes. -/
structure Follows (s : Store) (h : Chronicle) : Prop where
  record : ∀ id, s.get? id = (h.last? id).map (·.withVersion (s.versionOf id))
  age : ∀ id, s.age id = h.count id

theorem follows_empty : empty.Follows ⟨[]⟩ :=
  ⟨fun _ => rfl, fun _ => rfl⟩

/-- What the store says of an identifier, by the last order of its chronicle. -/
theorem Follows.get {s : Store} {h : Chronicle} (hs : s.Follows h) (id : OrderId) :
    match h.last? id with
    | none => s.get id = .error (.notFound id)
    | some o => ∃ v, s.get id = .ok (o.withVersion v) ∧ v.number.toNat = h.count id := by
  have hrecord := hs.record id
  unfold Store.get
  cases hlast : h.last? id with
  | none => simp [hrecord, hlast]
  | some o =>
      refine ⟨s.versionOf id, by simp [hrecord, hlast], hs.age id⟩

/-- An accepted order goes on record at the version after that of its identifier. -/
theorem Follows.set {s : Store} {h : Chronicle} (hs : s.Follows h) {o : Order}
    (hfew : h.count o.id < 2 ^ 64 - 1) :
    (s.set (o.withVersion (s.versionOf o.id).next)).Follows (h.note o) := by
  constructor
  · intro id
    rw [get?_set, versionOf_set, Chronicle.last?_note, Order.id_withVersion]
    by_cases hid : o.id = id
    · simp [hid, Order.withVersion]
    · simp only [if_neg hid]
      exact hs.record id
  · intro id
    rw [age_set, Chronicle.count_note, Order.id_withVersion, Order.version_withVersion]
    by_cases hid : o.id = id
    · subst hid
      rw [← hs.age] at hfew
      rw [if_pos rfl, if_pos rfl, Version.toNat_next hfew, ← hs.age]
      rfl
    · rw [if_neg hid, if_neg hid, hs.age]
      rfl

/-- An action takes the store along with its chronicle. -/
theorem follows_act {s : Store} {h : Chronicle} (hs : s.Follows h)
    (hfew : ∀ id, h.count id < 2 ^ 64 - 1) (a : StoreAction) :
    (s.act a).1.Follows ⟨h.orders ++ (s.accepted? a).toList⟩ := by
  rw [act_fst, written?_eq_accepted?]
  cases s.accepted? a with
  | none => simpa using hs
  | some o => exact hs.set (hfew o.id)

theorem follows_after {actions : List StoreAction} {s : Store} {h : Chronicle} (hs : s.Follows h)
    (hfew : ∀ id, (Chronicle.mk (h.orders ++ s.accepted actions)).count id < 2 ^ 64 - 1) :
    (s.after actions).Follows ⟨h.orders ++ s.accepted actions⟩ := by
  induction actions generalizing s h with
  | nil => simpa [accepted, after] using hs
  | cons a rest ih =>
      -- there are no more writes of an identifier before the end than at the end
      have hact := follows_act hs
        (fun id => lt_of_le_of_lt (Chronicle.count_le_of_append id) (hfew id)) a
      rw [accepted, ← List.append_assoc] at hfew ⊢
      exact ih hact hfew

/-! ## The records of a store -/

/-- The identifiers in use are those of the chronicle. -/
theorem Follows.ids {s : Store} {h : Chronicle} (hs : s.Follows h) :
    (s.records.map Order.id).toFinset = h.ids := by
  ext id
  rw [← Chronicle.isSome_last?, List.mem_toFinset, List.mem_map]
  have hsome : (h.last? id).isSome = (s.get? id).isSome := by rw [hs.record id, Option.isSome_map]
  rw [hsome]
  constructor
  · rintro ⟨o, ho, rfl⟩
    exact List.find?_isSome.2 ⟨o, ho, by simp⟩
  · intro hget
    obtain ⟨o, ho⟩ := Option.isSome_iff_exists.1 hget
    exact ⟨o, mem_records_of_get? ho, id_of_get? ho⟩

/-- There are as many records as identifiers in the chronicle. -/
theorem Follows.size {s : Store} {h : Chronicle} (hs : s.Follows h) : s.size = h.ids.card := by
  rw [← hs.ids, List.toFinset_card_of_nodup s.distinct, List.length_map]
  rfl

/-! ## What a write does -/

/-- An accepted write answers with the version that counts it, leaves its order at that version, and
touches no other identifier. -/
structure TakesIn (s : Store) (a : StoreAction) (o : Order) (count : Nat) : Prop where
  stored : ∃ v, (s.act a).2 = .written (.ok v) ∧ v.number.toNat = count + 1 ∧
    (s.act a).1.get o.id = .ok (o.withVersion v)
  others : ∀ id, id ≠ o.id → (s.act a).1.get id = s.get id

/-- A refused write answers with the version that it expects and the stored one, and changes nothing. -/
structure TurnsAway (s : Store) (a : StoreAction) (o : Order) (expected : Version) (count : Nat) :
    Prop where
  reply : ∃ actual, (s.act a).2 = .written (.error (.conflict o.id expected actual)) ∧
    actual.number.toNat = count
  unchanged : (s.act a).1 = s

variable {s : Store} {h : Chronicle} {a : StoreAction} {o : Order}

theorem Follows.takesIn {expected : Option Version} (hs : s.Follows h)
    (hfew : h.count o.id < 2 ^ 64 - 1) (hw : a.write? = some (o, expected))
    (hv : ∀ v ∈ expected, v.number.toNat = h.count o.id) : s.TakesIn a o (h.count o.id) := by
  have hcurrent : ∀ v ∈ expected, s.versionOf o.id = v := by
    intro v hmem
    exact Version.eq_of_toNat_eq ((hs.age o.id).trans (hv v hmem).symm)
  have hact : s.act a = (s.set (o.withVersion (s.versionOf o.id).next),
      .written (.ok (s.versionOf o.id).next)) := by
    rw [act_of_write? hw, put_eq, if_pos hcurrent]
    rfl
  constructor
  · refine ⟨(s.versionOf o.id).next, by rw [hact], ?_, ?_⟩
    · rw [← hs.age] at hfew ⊢
      exact Version.toNat_next hfew
    · rw [hact, get_eq_ok_iff, get?_set, Order.id_withVersion, if_pos rfl]
  · intro id hid
    have hne : (o.withVersion (s.versionOf o.id).next).id ≠ id := fun heq => hid heq.symm
    simp only [hact, Store.get, get?_set, if_neg hne]

theorem Follows.turnsAway {expected : Version} (hs : s.Follows h)
    (hw : a.write? = some (o, some expected)) (hv : expected.number.toNat ≠ h.count o.id) :
    s.TurnsAway a o expected (h.count o.id) := by
  have hcurrent : s.versionOf o.id ≠ expected := by
    rintro rfl
    exact hv (hs.age o.id)
  have hact : s.act a = (s, .written (.error (.conflict o.id expected (s.versionOf o.id)))) := by
    rw [act_of_write? hw, put, if_neg hcurrent]
    rfl
  exact ⟨⟨s.versionOf o.id, by rw [hact], hs.age o.id⟩, by rw [hact]⟩

/-- A write that expects the initial version is accepted exactly if there is no record. -/
theorem Follows.accepts_new_iff (hs : s.Follows h) (hfew : h.count o.id < 2 ^ 64 - 1)
    (hw : a.write? = some (o, some .initial)) :
    (∃ v, (s.act a).2 = .written (.ok v)) ↔ s.get o.id = .error (.notFound o.id) := by
  have hget := hs.get o.id
  cases hlast : h.last? o.id with
  | none =>
      have hcount : h.count o.id = 0 := (h.last?_eq_none_iff o.id).1 hlast
      have htakes := hs.takesIn hfew hw (by simp [hcount, Version.initial])
      obtain ⟨v, hreply, -⟩ := htakes.stored
      rw [hlast] at hget
      exact ⟨fun _ => hget, fun _ => ⟨v, hreply⟩⟩
  | some p =>
      have hcount : h.count o.id ≠ 0 := by
        rw [ne_eq, ← h.last?_eq_none_iff, hlast]
        simp
      obtain ⟨actual, hreply, -⟩ := (hs.turnsAway hw (fun h0 => hcount h0.symm)).reply
      rw [hlast] at hget
      obtain ⟨v, hstored, -⟩ := hget
      constructor
      · rintro ⟨v, haccepted⟩
        rw [hreply] at haccepted
        cases haccepted
      · intro hnone
        rw [hstored] at hnone
        cases hnone

end Store

/-- After every history of the store, as long as no identifier has been written too often to be counted:
an identifier that no accepted write was about is not found, and any other has the order that was
written last, at the version that counts its writes; the size is the number of the identifiers that were
written; and a write is accepted exactly if it expects no version or the number of the writes so far, so
that the initial version is expected exactly of new identifiers. -/
theorem store_follows_chronicle (actions : List StoreAction)
    (hfew : ∀ id, (Store.empty.chronicle actions).count id < 2 ^ 64 - 1) :
    let s := Store.empty.after actions
    let h := Store.empty.chronicle actions
    (∀ id, match h.last? id with
      | none => s.get id = .error (.notFound id)
      | some o => ∃ v, s.get id = .ok (o.withVersion v) ∧ v.number.toNat = h.count id) ∧
    s.size = h.ids.card ∧ s.isEmpty = decide (h.ids = ∅) ∧
    (∀ a o expected, a.write? = some (o, expected) →
      (∀ v ∈ expected, v.number.toNat = h.count o.id) → s.TakesIn a o (h.count o.id)) ∧
    (∀ a o v, a.write? = some (o, some v) → v.number.toNat ≠ h.count o.id →
      s.TurnsAway a o v (h.count o.id)) ∧
    (∀ a o, a.write? = some (o, some .initial) →
      ((∃ v, (s.act a).2 = .written (.ok v)) ↔ s.get o.id = .error (.notFound o.id))) ∧
    ∀ id, s.act (.get id) = (s, .read (s.get id)) := by
  intro s h
  have hs : s.Follows h := Store.follows_after Store.follows_empty hfew
  have htakes : ∀ a o expected, a.write? = some (o, expected) →
      (∀ v ∈ expected, v.number.toNat = h.count o.id) → s.TakesIn a o (h.count o.id) :=
    fun a o expected hw hv => hs.takesIn (hfew o.id) hw hv
  have hturns : ∀ a o v, a.write? = some (o, some v) → v.number.toNat ≠ h.count o.id →
      s.TurnsAway a o v (h.count o.id) := fun a o v hw hv => hs.turnsAway hw hv
  refine ⟨hs.get, hs.size, ?_, htakes, hturns, ?_, fun _ => rfl⟩
  · rw [Bool.eq_iff_iff, decide_eq_true_eq, ← Finset.card_eq_zero, ← hs.size]
    simp [Store.isEmpty, Store.size]
  · exact fun a o hw => hs.accepts_new_iff (hfew o.id) hw

/-- When the order was placed. -/
def Chronicle.placedAt : Instant :=
  ⟨⟨2025, 12, 31, by decide⟩, 3661, 250000000, by decide, by decide, by decide⟩

/-- A copy of an order as a client may hand it in, with any version in it. -/
def Chronicle.copyAt (v : Version) : Order :=
  ⟨⟨⟨7#128⟩⟩, ⟨⟨1#128⟩⟩, [⟨⟨2#128⟩⟩], .ofUnits 5, .pending, none, v, placedAt, placedAt⟩

/-- A new order, a refused update, and an overwrite, with versions in them that never were stored; the
next write has to expect the second version. -/
theorem store_follows_chronicle_copies :
    let order := (Chronicle.copyAt .initial).id
    let s := Store.empty.after [.insertNew (Chronicle.copyAt ⟨9⟩), .update (Chronicle.copyAt ⟨5⟩),
      .put (Chronicle.copyAt ⟨3⟩) none]
    (∃ v, s.get order = .ok (Chronicle.copyAt v) ∧ v.number.toNat = 2) ∧ s.size = 1 ∧
      s.TakesIn (.update (Chronicle.copyAt ⟨2⟩)) (Chronicle.copyAt ⟨2⟩) 2 ∧
      s.TurnsAway (.update (Chronicle.copyAt ⟨3⟩)) (Chronicle.copyAt ⟨3⟩) ⟨3⟩ 2 := by
  intro order s
  have hfew : ∀ id, (Store.empty.chronicle [.insertNew (Chronicle.copyAt ⟨9⟩),
      .update (Chronicle.copyAt ⟨5⟩), .put (Chronicle.copyAt ⟨3⟩) none]).count id < 2 ^ 64 - 1 :=
    fun _ => lt_of_le_of_lt (List.length_filter_le _ _) (by decide)
  obtain ⟨hget, hsize, -, htakes, hturns, -⟩ := store_follows_chronicle _ hfew
  refine ⟨hget order, hsize.trans (by decide), ?_, ?_⟩
  · exact htakes (.update (Chronicle.copyAt ⟨2⟩)) _ (some ⟨2⟩) rfl (by decide)
  · exact hturns (.update (Chronicle.copyAt ⟨3⟩)) _ ⟨3⟩ rfl (by decide)

end OrderDesk
