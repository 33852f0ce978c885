/-
# The desk as the only writer

What the desk puts into its store when nobody else writes: a new order under an unused identifier, or a
waiting order that is now paid or cancelled, at the next version. Every law about stored orders follows
from these three cases.

* `Store.Entry` : the records that the desk puts into a store;
* `Floor.Inv` : logs that explain the calls, copies that are held, and a store without overflow;
* `Floor.inv_run` : the invariant holds along every run of the desk's own moves;
* `Floor.run_of_step` : and so does whatever every own move keeps;
* `Floor.get?_run_of_final` : a paid or cancelled record never changes again.
-/
import OrderDesk.Proofs.Desk.Copies

namespace OrderDesk

/-! ## What the desk writes -/

namespace Store

/-- The records that the desk puts into a store. -/
inductive Entry (s : Store) : Order → Prop
  | placed {o : Order} : s.get? o.id = none → o.parts ≠ [] → o.total.isNegative = false →
      o.status = .pending → o.payment = none → o.version = .first → Entry s o
  | paid {r : Order} (m : PaymentMethod) (t : TransactionId) (now : Instant) :
      s.get? r.id = some r → r.status = .pending →
      Entry s { r with
        status := .paid, payment := some ⟨m, t⟩, updatedAt := now, version := r.version.next }
  | cancelled {r : Order} (now : Instant) :
      s.get? r.id = some r → r.status = .pending →
      Entry s { r with status := .cancelled, updatedAt := now, version := r.version.next }

/-- Every record was written, and one that waits can be written once more. -/
structure Sound (s : Store) : Prop where
  written : ∀ id o, s.get? id = some o → o.version ≠ .initial
  waiting : ∀ id o, s.get? id = some o → o.status = .pending →
    o.version.number.toNat < 2 ^ 64 - 1

theorem sound_empty : empty.Sound :=
  ⟨by simp, by simp⟩

theorem written_act {s : Store} (hs : s.Small)
    (h : ∀ id o, s.get? id = some o → o.version ≠ .initial) (a : StoreAction) :
    ∀ id o, (s.act a).1.get? id = some o → o.version ≠ .initial := by
  intro id o ho
  rw [act_fst] at ho
  cases hw : s.written? a with
  | none =>
      rw [hw] at ho
      exact h id o ho
  | some w =>
      rw [hw, Option.map_some, Option.getD_some, get?_set] at ho
      split at ho
      · obtain rfl := Option.some.inj ho
        intro hv
        have hnext := Version.toNat_next (hs.age_lt w.id)
        rw [← version_of_written? hw, hv] at hnext
        exact absurd hnext (Nat.zero_ne_add_one _)
      · exact h id o ho

/-- Whatever history a store has, it is sound if no version has reached the end of the range. -/
theorem sound_after {actions : List StoreAction} (hs : empty.SmallAlong actions) :
    (empty.after actions).Sound := by
  have hwritten : ∀ (s : Store), (∀ id o, s.get? id = some o → o.version ≠ .initial) →
      s.SmallAlong actions →
      ∀ id o, (s.after actions).get? id = some o → o.version ≠ .initial := by
    clear hs
    induction actions with
    | nil => exact fun s h _ => h
    | cons a rest ih => exact fun s h hs => ih (s.act a).1 (written_act hs.1 h a) hs.2
  have hsmall : (empty.after actions).Small := by
    rw [← List.append_nil actions] at hs
    exact (smallAlong_append hs).2
  refine ⟨hwritten empty (by simp) hs, ?_⟩
  intro id o ho _
  exact hsmall o (mem_records_of_get? ho)

theorem Sound.get?_eq_none {s : Store} (h : s.Sound) {id : OrderId}
    (hv : s.versionOf id = .initial) : s.get? id = none := by
  cases hs : s.get? id with
  | none => rfl
  | some o =>
      rw [versionOf_of_get? hs] at hv
      exact absurd hv (h.written id o hs)

theorem versionOf_of_get?_eq_none {s : Store} {id : OrderId} (h : s.get? id = none) :
    s.versionOf id = .initial := by
  simp [versionOf, h]

/-- The desk never overwrites a final record. -/
theorem Entry.get?_eq {s : Store} {w : Order} (h : s.Entry w) {r : Order}
    (hr : s.get? w.id = some r) : r.status = .pending := by
  cases h with
  | placed hnone =>
      rw [hnone] at hr
      cases hr
  | paid m t now hget hs =>
      rw [hget] at hr
      cases hr
      exact hs
  | cancelled now hget hs =>
      rw [hget] at hr
      cases hr
      exact hs

/-- What the desk puts in is one version further than what was stored. -/
theorem Entry.age {s : Store} {w : Order} (h : s.Entry w) (hs : s.Sound) :
    w.version.number.toNat = s.age w.id + 1 := by
  cases h with
  | placed hnone _ _ _ _ hv =>
      rw [Store.age, versionOf_of_get?_eq_none hnone, hv]
      rfl
  | paid m t now hget hp =>
      rw [Store.age, versionOf_of_get? hget]
      exact Version.toNat_next (hs.waiting _ _ hget hp)
  | cancelled now hget hp =>
      rw [Store.age, versionOf_of_get? hget]
      exact Version.toNat_next (hs.waiting _ _ hget hp)

/-- A new order is at the first version, and all others that the desk puts in are final. -/
theorem Entry.version_of_pending {s : Store} {w : Order} (h : s.Entry w)
    (hw : w.status = .pending) : s.get? w.id = none ∧ w.version = .first := by
  cases h with
  | placed hnone _ _ _ _ hv => exact ⟨hnone, hv⟩
  | paid m t now _ _ => cases hw
  | cancelled now _ _ => cases hw

theorem Entry.sound {s : Store} {w : Order} (h : s.Entry w) (hs : s.Sound) : (s.set w).Sound := by
  have hage := h.age hs
  constructor
  · intro id o ho
    rw [get?_set] at ho
    split at ho
    · obtain rfl := Option.some.inj ho
      intro hv
      rw [hv] at hage
      exact absurd hage (Nat.zero_ne_add_one _)
    · exact hs.written id o ho
  · intro id o ho hp
    rw [get?_set] at ho
    split at ho
    · obtain rfl := Option.some.inj ho
      rw [(h.version_of_pending hp).2]
      decide
    · exact hs.waiting id o ho hp

end Store

/-! ## The invariant -/

namespace Floor

/-- The logs explain the calls, all copies are held, and the store has not overflowed. -/
structure Inv (f : Floor) : Prop where
  course : ∀ j ∈ f.jobs, Course j.command j.log j.call
  holds : f.Holds
  sound : f.store.Sound

theorem inv_opening {s : Store} (hs : s.Sound) : (opening s).Inv where
  course := by simp
  holds := holds_opening s
  sound := hs

end Floor

namespace Turn

variable {f g : Floor} {i : Nat} {j : Job} {x : Exchange}

theorem underway (h : Turn f i j x g) (hf : f.Inv) : Underway j.command j.log j.call :=
  (hf.course j h.mem).underway (by simp [h.need])

theorem writes_eq_nil (h : Turn f i j x g) (hf : f.Inv) : j.writes = [] :=
  List.filterMap_eq_nil_iff.2 (h.underway hf).written?_eq_none

/-- What a turn puts into the store is one of the records that the desk puts there. -/
theorem entry (h : Turn f i j x g) (hf : f.Inv) {w : Order} (hw : x.written? = some w) :
    f.store.Entry w := by
  obtain ⟨o, hn, rfl⟩ := h.need_of_written? hw
  have hunder := h.underway hf
  rcases need_eq_write (hn ▸ h.need) with ⟨hcall, hv⟩ | ⟨t, hcall, hv⟩ | ⟨hcall, hv⟩
  · rw [hcall] at hunder
    obtain ⟨user, parts, y, snapshots, total, -, -, -, -, -, hplace⟩ := hunder
    obtain ⟨hparts, htotal, rfl⟩ := Order.place_eq_ok_iff.1 hplace
    -- the store has the initial version for identifiers that are not in use
    have hnone := hf.sound.get?_eq_none hv
    exact .placed hnone hparts htotal rfl rfl (by rw [hv]; rfl)
  · rw [hcall] at hunder
    obtain ⟨r, m, requested, y, z, u, -, hlog, hread, -, -, -, hpay⟩ := hunder
    obtain ⟨hs, rfl⟩ := Order.pay_eq_ok_iff.1 hpay
    -- the order was waiting when it was read, and what was read is what is stored
    have hheld : f.store.Held r := hf.holds j h.mem r (by simp [Job.reads, hlog, hread])
    have hget : f.store.get? r.id = some r := hheld.get?_eq hv
    have hentry := Store.Entry.paid m t u.draw.now hget hs
    rw [hv]
    exact hentry
  · rw [hcall] at hunder
    obtain ⟨r, y, -, hlog, hread, hcancel⟩ := hunder
    obtain ⟨hs, rfl⟩ := Order.cancel_eq_ok_some_iff.1 hcancel
    have hheld : f.store.Held r := hf.holds j h.mem r (by simp [Job.reads, hlog, hread])
    have hget : f.store.get? r.id = some r := hheld.get?_eq hv
    have hentry := Store.Entry.cancelled y.draw.now hget hs
    rw [hv]
    exact hentry

end Turn

namespace Floor

/-- What an own move does to the store: nothing, or it puts in a record of the desk. -/
theorem store_step_of_isOwn {f : Floor} (hf : f.Inv) {m : Move} (hm : m.IsOwn) :
    (f.step m).store = f.store ∨ ∃ w, (f.step m).store = f.store.set w ∧ f.store.Entry w := by
  cases m with
  | ask command => exact Or.inl (store_ask f command)
  | intrude o expected => exact hm.elim
  | advance i draw outside =>
      rcases advance_cases f i draw outside with h | ⟨j, x, ht, -⟩
      · exact Or.inl (congrArg store h)
      · cases hw : x.written? with
        | none => exact Or.inl (ht.store_of_none hw)
        | some w => exact Or.inr ⟨w, ht.store_of_some hw, ht.entry hf hw⟩

theorem inv_step {f : Floor} (hf : f.Inv) {m : Move} (hm : m.IsOwn) : (f.step m).Inv := by
  have hstore := store_step_of_isOwn hf hm
  have hgrows : f.Grows (f.step m) :=
    hstore.imp_right fun ⟨w, hset, hw⟩ => ⟨w, hset, hw.age hf.sound⟩
  refine ⟨course_step m hf.course, holds_step m hgrows hf.holds, ?_⟩
  rcases hstore with hsame | ⟨w, hset, hw⟩
  · rw [hsame]
    exact hf.sound
  · rw [hset]
    exact hw.sound hf.sound

/-- The invariant holds along every run of the desk's own moves. -/
theorem inv_run {f : Floor} (hf : f.Inv) {moves : List Move} (hm : ∀ m ∈ moves, m.IsOwn) :
    (f.run moves).Inv := by
  induction moves generalizing f with
  | nil => exact hf
  | cons m rest ih =>
      exact ih (inv_step hf (hm m List.mem_cons_self)) fun k hk => hm k (List.mem_cons_of_mem m hk)

/-- What every own move keeps holds along every run of the desk's own moves. -/
theorem run_of_step {p : Floor → Prop}
    (hstep : ∀ (f : Floor) (m : Move), f.Inv → m.IsOwn → p f → p (f.step m)) {f : Floor} (hf : f.Inv)
    (hp : p f) {moves : List Move} (hm : ∀ m ∈ moves, m.IsOwn) : p (f.run moves) := by
  induction moves generalizing f with
  | nil => exact hp
  | cons m rest ih =>
      have hown := hm m List.mem_cons_self
      exact ih (inv_step hf hown) (hstep f m hf hown hp) fun k hk => hm k (List.mem_cons_of_mem m hk)

/-! ## Final records -/

/-- A paid or cancelled record stays as it is. -/
theorem get?_step_of_final {f : Floor} (hf : f.Inv) {m : Move} (hm : m.IsOwn) {id : OrderId}
    {o : Order} (ho : f.store.get? id = some o) (hs : o.status ≠ .pending) :
    (f.step m).store.get? id = some o := by
  rcases store_step_of_isOwn hf hm with hsame | ⟨w, hset, hw⟩
  · rw [hsame]
    exact ho
  · have hne : w.id ≠ id := by
      rintro rfl
      exact hs (hw.get?_eq ho)
    rw [hset, Store.get?_set, if_neg hne]
    exact ho

theorem get?_run_of_final {f : Floor} (hf : f.Inv) {moves : List Move}
    (hm : ∀ m ∈ moves, m.IsOwn) {id : OrderId} {o : Order} (ho : f.store.get? id = some o)
    (hs : o.status ≠ .pending) : (f.run moves).store.get? id = some o :=
  run_of_step (p := fun g => g.store.get? id = some o)
    (fun _ _ hg hown hget => get?_step_of_final hg hown hget hs) hf ho hm

end Floor

end OrderDesk
