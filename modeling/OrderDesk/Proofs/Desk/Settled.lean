/-
# What becomes of an order

Runs that begin with an empty store and in which nobody but the desk writes. Every stored record was
left there by some job, a paid or cancelled one by exactly one job, and whoever saw it can rely on it.

* `Store.Unpaid` : only paid records have a payment;
* `Floor.Settled` : the invariant of such runs;
* `Floor.settled_run` : it holds along all of them.
-/
import OrderDesk.Proofs.Desk.OnlyWriter
import OrderDesk.Proofs.Desk.Results

namespace OrderDesk

namespace Store

/-- Only paid records have a payment. -/
def Unpaid (s : Store) : Prop :=
  ∀ id o, s.get? id = some o → o.status ≠ .paid → o.payment = none

theorem Entry.unpaid {s : Store} {w : Order} (h : s.Entry w) (hs : s.Unpaid) : (s.set w).Unpaid := by
  intro id o ho hstatus
  rw [get?_set] at ho
  split at ho
  · obtain rfl := Option.some.inj ho
    cases h with
    | placed _ _ _ _ hpayment _ => exact hpayment
    | paid m t now _ _ => exact absurd rfl hstatus
    | @cancelled r now hget hp =>
        have hr : r.status ≠ .paid := by simp [hp]
        exact hs r.id r hget hr
  · exact hs id o ho hstatus

/-- The final record of an order, if it has one: 1 or 0 of them. -/
def finals (s : Store) (id : OrderId) : Nat :=
  if (s.get? id).any (·.status ≠ .pending) then 1 else 0

theorem finals_le_one (s : Store) (id : OrderId) : s.finals id ≤ 1 := by
  unfold finals
  split <;> omega

/-- What the desk puts in over another record is final, and the other was not. -/
theorem Entry.finals_set {s : Store} {w : Order} (h : s.Entry w) (id : OrderId) :
    (s.set w).finals id = s.finals id + if w.id = id && w.status ≠ .pending then 1 else 0 := by
  unfold finals
  rw [get?_set]
  by_cases hid : w.id = id
  · subst hid
    cases hget : s.get? w.id with
    | none => simp
    | some r =>
        have hr : r.status = .pending := h.get?_eq hget
        simp [hr]
  · simp [hid]

end Store

/-- Whether a job left a final record of an order. -/
def Job.settles (j : Job) (id : OrderId) : Bool :=
  j.writes.any fun w => w.id = id && w.status ≠ .pending

namespace Floor

/-- Every record that a job saw as paid or cancelled is stored still; every stored record was left by a
job; a final record was left by exactly one job; and only paid records have a payment. -/
structure Settled (f : Floor) : Prop where
  kept : ∀ j ∈ f.jobs, ∀ r ∈ j.seen, r.status ≠ .pending → f.store.get? r.id = some r
  origin : ∀ id o, f.store.get? id = some o → ∃ j ∈ f.jobs, o ∈ j.writes
  census : ∀ id, f.jobs.countP (·.settles id) = f.store.finals id
  unpaid : f.store.Unpaid

theorem settled_opening : (opening .empty).Settled where
  kept := by simp
  origin := by simp
  census := by simp [Store.finals]
  unpaid := by simp [Store.Unpaid]

theorem inv_opening_empty : (opening .empty).Inv :=
  inv_opening Store.sound_empty

end Floor

namespace Turn

variable {f g : Floor} {i : Nat} {j : Job} {x : Exchange}

/-- A record that a job newly sees is the stored one afterwards. -/
theorem get?_of_seen (h : Turn f i j x g) {r : Order}
    (hr : x.read? = some r ∨ x.written? = some r) : g.store.get? r.id = some r := by
  rcases hr with hr | hr
  · rw [h.store_of_none (Exchange.written?_of_read? hr)]
    exact h.get?_of_read? hr
  · rw [h.store_of_some hr, Store.get?_set, if_pos rfl]

theorem settles_before (h : Turn f i j x g) (hf : f.Inv) (id : OrderId) : j.settles id = false := by
  simp [Job.settles, h.writes_eq_nil hf]

theorem settles_after (h : Turn f i j x g) (hf : f.Inv) (id : OrderId) :
    (j.next x).settles id = x.written?.any fun w => w.id = id && w.status ≠ .pending := by
  rw [Job.settles, Job.writes_next, h.writes_eq_nil hf]
  cases x.written? <;> simp

/-- A turn leaves as many final records of an order as it makes jobs that settled it. -/
theorem census (h : Turn f i j x g) (hf : f.Inv) (id : OrderId)
    (hcensus : f.jobs.countP (·.settles id) = f.store.finals id) :
    g.jobs.countP (·.settles id) = g.store.finals id := by
  -- a job that takes a turn has written nothing before, so it counts from now on or not at all
  have hcount := h.countP_jobs (·.settles id)
  rw [h.settles_before hf, h.settles_after hf] at hcount
  cases hw : x.written? with
  | none =>
      rw [hw] at hcount
      rw [h.store_of_none hw, ← hcensus]
      simpa using hcount
  | some w =>
      rw [hw] at hcount
      rw [h.store_of_some hw, (h.entry hf hw).finals_set, ← hcensus]
      simpa using hcount

end Turn

namespace Floor

theorem kept_step {f : Floor} (hf : f.Inv) (hs : f.Settled) {m : Move} (hm : m.IsOwn) :
    ∀ j ∈ (f.step m).jobs, ∀ r ∈ j.seen, r.status ≠ .pending →
      (f.step m).store.get? r.id = some r := by
  have hstays : ∀ j ∈ f.jobs, ∀ r ∈ j.seen, r.status ≠ .pending →
      (f.step m).store.get? r.id = some r := by
    intro j hj r hr hfinal
    exact get?_step_of_final hf hm (hs.kept j hj r hr hfinal) hfinal
  refine forall_mem_step m hstays (fun _ => by simp [Job.seen, Job.reads, Job.writes]) ?_
  intro i j x ht hj r hr hfinal
  simp only [Job.seen, Job.reads_next, Job.writes_next,
    List.mem_append, Option.mem_toList] at hr
  rcases hr with (hr | hr) | (hr | hr)
  · exact hj r (List.mem_append_left _ hr) hfinal
  · exact ht.get?_of_seen (Or.inl hr)
  · exact hj r (List.mem_append_right _ hr) hfinal
  · exact ht.get?_of_seen (Or.inr hr)

theorem origin_step {f : Floor} (hs : f.Settled) {m : Move} (hm : m.IsOwn) {id : OrderId} {o : Order}
    (ho : (f.step m).store.get? id = some o) : ∃ j ∈ (f.step m).jobs, o ∈ j.writes := by
  have hstays : f.store.get? id = some o → ∃ j ∈ (f.step m).jobs, o ∈ j.writes := by
    intro hget
    refine exists_mem_step m (hs.origin id o hget) ?_
    intro i j x _ hj
    rw [Job.writes_next]
    exact List.mem_append_left _ hj
  cases m with
  | ask command =>
      refine hstays ?_
      rwa [store_ask] at ho
  | intrude o expected => exact hm.elim
  | advance i draw outside =>
      rcases advance_cases f i draw outside with hsame | ⟨j, x, ht, -⟩
      · refine hstays ?_
        rwa [step, hsame] at ho
      · cases hw : x.written? with
        | none =>
            refine hstays ?_
            rwa [step, ht.store_of_none hw] at ho
        | some w =>
            rw [step, ht.store_of_some hw, Store.get?_set] at ho
            -- the record is the one that this turn has put in, or it was there before
            by_cases hid : w.id = id
            · rw [if_pos hid] at ho
              obtain rfl := Option.some.inj ho
              refine ⟨_, List.mem_of_getElem? ht.job_after, ?_⟩
              rw [Job.writes_next, hw]
              exact List.mem_append_right _ (by simp)
            · rw [if_neg hid] at ho
              exact hstays ho

theorem census_step {f : Floor} (hf : f.Inv) (hs : f.Settled) {m : Move} (hm : m.IsOwn)
    (id : OrderId) : (f.step m).jobs.countP (·.settles id) = (f.step m).store.finals id := by
  have hcensus := hs.census id
  cases m with
  | ask command =>
      rw [store_ask, ← hcensus]
      simp [step, ask, List.countP_append, Job.settles, Job.writes]
  | intrude o expected => exact hm.elim
  | advance i draw outside =>
      rcases advance_cases f i draw outside with hsame | ⟨j, x, ht, -⟩
      · rw [step, hsame]
        exact hcensus
      · exact ht.census hf id hcensus

theorem settled_step {f : Floor} (hf : f.Inv) (hs : f.Settled) {m : Move} (hm : m.IsOwn) :
    (f.step m).Settled := by
  refine ⟨kept_step hf hs hm, fun id o ho => origin_step hs hm ho, census_step hf hs hm, ?_⟩
  rcases store_step_of_isOwn hf hm with hsame | ⟨w, hset, hw⟩
  · rw [hsame]
    exact hs.unpaid
  · rw [hset]
    exact hw.unpaid hs.unpaid

theorem settled_run_of {f : Floor} (hf : f.Inv) (hs : f.Settled) {moves : List Move}
    (hm : ∀ m ∈ moves, m.IsOwn) : (f.run moves).Settled :=
  run_of_step (fun _ _ hg hown hsettled => settled_step hg hsettled hown) hf hs hm

/-- The invariant holds along every run of the desk's own moves from an empty store. -/
theorem settled_run {moves : List Move} (hm : ∀ m ∈ moves, m.IsOwn) :
    ((opening .empty).run moves).Settled :=
  settled_run_of inv_opening_empty settled_opening hm

/-- What a payment that succeeded was told and charged is what the store says of its order. -/
theorem get?_of_pay_succeeded {f : Floor} (hf : f.Inv) (hs : f.Settled) {j : Job} (hj : j ∈ f.jobs)
    {id : OrderId} {requested : String} {receipt : Receipt} (hcommand : j.command = .pay id requested)
    (hcall : j.call = .succeeded receipt) :
    ∃ r m t x y z v, receipt = .paid t ∧ Prepared id requested r m x y ∧ y ∈ j.log ∧ z ∈ j.log ∧
      z.payment? = some ⟨t, r.user, id, m⟩ ∧
      f.store.get? id = some { r with
        status := .paid, payment := some ⟨m, t⟩, updatedAt := z.draw.now, version := v } := by
  have hcourse := hf.course j hj
  rw [hcommand, hcall] at hcourse
  obtain ⟨r, m, t, x, y, z, u, v, hreceipt, hlog, hprepared, hz, hw⟩ := hcourse.of_pay_succeeded
  have hfinal : OrderStatus.paid ≠ .pending := by decide
  have hwritten : _ ∈ j.writes := List.mem_filterMap.2 ⟨u, by simp [hlog], hw⟩
  have hkept := hs.kept j hj _ (List.mem_append_right _ hwritten) hfinal
  obtain rfl := hprepared.order
  exact ⟨r, m, t, x, y, z, v, hreceipt, hprepared, by simp [hlog], by simp [hlog], hz, hkept⟩

end Floor

end OrderDesk
