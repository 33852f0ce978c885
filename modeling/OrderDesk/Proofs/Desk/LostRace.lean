/-
# Lost races

A payment or a cancellation whose write is refused has lost its order to exactly one other, which wrote
it after the first one read it. The order is final then, and whoever comes later is told so.

* `Job.changed` : whether a job paid or cancelled an order between two times;
* `Floor.Lost` : a job that failed with a conflict, and the one that it lost to;
* `Floor.Raced` : what was read is stored still, or some job changed it since;
* `lost_race` : what a lost race says about the winner, and about all that come later.
-/
import OrderDesk.Proofs.Desk.Latecomers
import OrderDesk.Proofs.Desk.Settled
import OrderDesk.Proofs.Desk.StoredOrders

namespace OrderDesk

/-! ## Payments and cancellations -/

/-- Whether a job paid or cancelled an order after one time and before another. -/
def Job.changed (j : Job) (id : OrderId) (since till : Nat) : Bool :=
  j.command.changes? = some id &&
    j.log.any fun y => since < y.time && y.time < till && y.written?.any (·.id = id)

namespace Job

variable {j : Job} {id : OrderId} {since till : Nat}

theorem changed_iff :
    j.changed id since till = true ↔ j.command.changes? = some id ∧
      ∃ y ∈ j.log, since < y.time ∧ y.time < till ∧ ∃ w, y.written? = some w ∧ w.id = id := by
  simp [changed, Option.any_eq_true, and_assoc]

theorem changed_next (h : j.changed id since till = true) (x : Exchange) :
    (j.next x).changed id since till = true := by
  obtain ⟨hc, y, hy, hbetween⟩ := changed_iff.1 h
  exact changed_iff.2 ⟨hc, y, List.mem_append_left _ hy, hbetween⟩

theorem changed_mono {later : Nat} (h : j.changed id since till = true) (hle : till ≤ later) :
    j.changed id since later = true := by
  obtain ⟨hc, y, hy, hsince, htill, hw⟩ := changed_iff.1 h
  exact changed_iff.2 ⟨hc, y, hy, hsince, Nat.lt_of_lt_of_le htill hle, hw⟩

end Job

namespace Floor

variable {f : Floor} {j : Job} {id : OrderId} {since till : Nat}

/-- A job that changed an order has succeeded, and left a final record. -/
theorem exists_write_of_changed (hf : f.Inv) (hj : j ∈ f.jobs)
    (h : j.changed id since till = true) :
    (∃ receipt, j.call = .succeeded receipt) ∧
      ∃ w ∈ j.writes, w.id = id ∧ w.status ≠ .pending := by
  obtain ⟨hc, y, hy, -, -, w, hw, hid⟩ := Job.changed_iff.1 h
  have hcourse := hf.course j hj
  obtain ⟨before, d, o, v, -, hunder, hn, rfl⟩ := hcourse.underway_of_written? hy hw
  obtain ⟨_, r, _, -, -, -, -, -, -, hfinal⟩ := hunder.read_of_write hn hc
  exact ⟨hcourse.succeeded_of_written? hy hw, _, List.mem_filterMap.2 ⟨y, hy, hw⟩, hid, hfinal⟩

theorem settles_of_changed (hf : f.Inv) (hj : j ∈ f.jobs) (h : j.changed id since till = true) :
    j.settles id = true := by
  obtain ⟨-, w, hw, hid, hfinal⟩ := exists_write_of_changed hf hj h
  exact List.any_eq_true.2 ⟨w, hw, by simp [hid, hfinal]⟩

/-- An order that was changed is final. -/
theorem get?_of_changed (hf : f.Inv) (hs : f.Settled) (hj : j ∈ f.jobs)
    (h : j.changed id since till = true) :
    ∃ o, f.store.get? id = some o ∧ o.status ≠ .pending := by
  obtain ⟨-, w, hw, rfl, hfinal⟩ := exists_write_of_changed hf hj h
  exact ⟨w, hs.kept j hj w (List.mem_append_right _ hw) hfinal, hfinal⟩

/-- Of all jobs, at most one changes an order. -/
theorem countP_changed_le_one (hf : f.Inv) (hs : f.Settled) :
    f.jobs.countP (·.changed id since till) ≤ 1 := by
  have hle : f.jobs.countP (·.changed id since till) ≤ f.jobs.countP (·.settles id) :=
    List.countP_mono_left fun j hj h => settles_of_changed hf hj h
  have hcensus := hs.census id
  have hone := f.store.finals_le_one id
  omega

end Floor

/-- A job that fails with a conflict has found another version than it expected. -/
theorem Turn.versionOf_of_conflict {f g : Floor} {i : Nat} {j : Job} {x : Exchange}
    (h : Turn f i j x g) {e : OrderError} (hcall : (j.next x).call = .failed e)
    (he : e.kind = .concurrentModification) :
    ∃ o v, x.need = .write o v ∧ f.store.versionOf o.id ≠ v ∧
      e = .concurrentModification o.id v (f.store.versionOf o.id) := by
  have hpasses := h.passes
  rw [hcall] at hpasses
  obtain ⟨o, v, actual, -, hn, ha, rfl⟩ := hpasses.of_conflict he
  obtain ⟨outside, hserved⟩ := h.served
  rw [hn, ha, Desk.serve_write] at hserved
  split at hserved
  · cases hserved
  · rename_i hv
    cases hserved
    exact ⟨o, v, hn, hv, rfl⟩

/-! ## The winner -/

/-- A job has lost the race for an order: it read the order, some other job changed it, and then it
failed with the two versions. -/
structure Floor.Lost (f : Floor) (j : Job) (id : OrderId) (e : OrderError) : Prop where
  error : e = .concurrentModification id ⟨1⟩ ⟨2⟩
  between : ∃ x rest u, j.log = x :: rest ++ [u] ∧ (∃ r, x.read? = some r ∧ r.id = id) ∧
    (∃ o v, u.need = .write o v) ∧ ∃ k ∈ f.jobs, k.changed id x.time u.time = true

/-- All exchanges are past; what jobs read is lawful, and is stored still or was changed since; and
every job that failed with a conflict has lost a race. -/
structure Floor.Raced (f : Floor) : Prop where
  past : ∀ j ∈ f.jobs, ∀ x ∈ j.log, x.time < f.time
  lawful : ∀ j ∈ f.jobs, ∀ r ∈ j.reads, r.Lawful
  fresh : ∀ j ∈ f.jobs, ∀ x ∈ j.log, ∀ r, x.read? = some r →
    f.store.get? r.id = some r ∨ ∃ k ∈ f.jobs, k.changed r.id x.time f.time = true
  lost : ∀ j ∈ f.jobs, ∀ id e, j.command.changes? = some id → j.call = .failed e →
    e.kind = .concurrentModification → f.Lost j id e

namespace Turn

variable {f g : Floor} {i : Nat} {j : Job} {x : Exchange}

/-- A job that writes over a record pays or cancels the order. -/
theorem changes_of_written? (h : Turn f i j x g) (hf : f.Inv) {w r : Order} (hw : x.written? = some w)
    (hr : f.store.get? w.id = some r) : j.command.changes? = some w.id := by
  obtain ⟨o, hn, rfl⟩ := h.need_of_written? hw
  rcases (h.underway hf).of_need_write (hn ▸ h.need) with
    ⟨hv, -⟩ | ⟨_, p, _, -, -, hchanges, -, -, hid, -⟩
  · -- a new order is not written over a record
    rw [Order.id_withVersion, hf.sound.get?_eq_none hv] at hr
    cases hr
  · rw [hchanges, Order.id_withVersion, hid]

/-- A record stays through a turn, or the job that takes the turn changes the order. -/
theorem stored_or_changed (h : Turn f i j x g) (hf : f.Inv) {r : Order} {since : Nat}
    (hr : f.store.get? r.id = some r) (hsince : since < f.time) :
    g.store.get? r.id = some r ∨ (j.next x).changed r.id since g.time = true := by
  cases hw : x.written? with
  | none =>
      rw [h.store_of_none hw]
      exact Or.inl hr
  | some w =>
      by_cases hid : w.id = r.id
      · refine Or.inr (Job.changed_iff.2 ⟨?_, x, by simp, ?_, ?_, w, hw, hid⟩)
        · rw [Job.command_next, ← hid]
          exact h.changes_of_written? hf hw (hid ▸ hr)
        · rw [h.time]
          exact hsince
        · rw [h.time, h.clock]
          exact Nat.lt_succ_self _
      · rw [h.store_of_some hw, Store.get?_set, if_neg hid]
        exact Or.inl hr

end Turn

namespace Floor

theorem time_le_step (f : Floor) (m : Move) : f.time ≤ (f.step m).time := by
  cases m with
  | ask command => exact Nat.le_refl _
  | intrude o expected => exact Nat.le_refl _
  | advance i draw outside =>
      rcases advance_cases f i draw outside with hsame | ⟨j, x, ht, -⟩
      · exact Nat.le_of_eq (by rw [step, hsame])
      · rw [step, ht.clock]
        exact Nat.le_succ _

/-- A change of an order stays one. -/
theorem exists_changed_step {f : Floor} (m : Move) {id : OrderId} {since till later : Nat}
    (h : ∃ k ∈ f.jobs, k.changed id since till = true) (hle : till ≤ later) :
    ∃ k ∈ (f.step m).jobs, k.changed id since later = true := by
  obtain ⟨k, hk, hchanged⟩ := h
  exact exists_mem_step m ⟨k, hk, Job.changed_mono hchanged hle⟩
    fun _ _ x _ hp => Job.changed_next hp x

theorem raced_opening : (opening .empty).Raced :=
  ⟨by simp, by simp, by simp, by simp⟩

theorem past_step {f : Floor} (hr : f.Raced) (m : Move) :
    ∀ j ∈ (f.step m).jobs, ∀ x ∈ j.log, x.time < (f.step m).time := by
  refine forall_mem_step (p := fun j => ∀ x ∈ j.log, x.time < (f.step m).time) m
    (fun j hj x hx => Nat.lt_of_lt_of_le (hr.past j hj x hx) (time_le_step f m)) (by simp) ?_
  intro i j x ht hj y hy
  rcases List.mem_append.1 hy with hy | hy
  · exact hj y hy
  · rw [List.mem_singleton.1 hy, ht.time, ht.clock]
    exact Nat.lt_succ_self _

theorem lawful_reads_step {f : Floor} (hl : f.store.Lawful) (hr : f.Raced) (m : Move) :
    ∀ j ∈ (f.step m).jobs, ∀ r ∈ j.reads, r.Lawful := by
  refine forall_mem_step m hr.lawful (fun _ => by simp [Job.reads]) ?_
  intro i j x ht hj r hmem
  rw [Job.reads_next, List.mem_append, Option.mem_toList] at hmem
  rcases hmem with hmem | hread
  · exact hj r hmem
  · exact hl r.id r (ht.get?_of_read? hread)

/-- What was read is stored still, or was changed since. -/
theorem fresh_step {f : Floor} (hf : f.Inv) (hr : f.Raced) {m : Move} (hm : m.IsOwn) :
    ∀ j ∈ (f.step m).jobs, ∀ x ∈ j.log, ∀ r, x.read? = some r →
      (f.step m).store.get? r.id = some r ∨
        ∃ k ∈ (f.step m).jobs, k.changed r.id x.time (f.step m).time = true := by
  have hstays : ∀ j ∈ f.jobs, ∀ x ∈ j.log, ∀ r, x.read? = some r →
      (f.step m).store.get? r.id = some r ∨
        ∃ k ∈ (f.step m).jobs, k.changed r.id x.time (f.step m).time = true := by
    intro j hj x hx r hread
    rcases hr.fresh j hj x hx r hread with hget | hchanged
    · cases m with
      | ask command =>
          rw [store_ask]
          exact Or.inl hget
      | intrude o expected => exact hm.elim
      | advance n draw outside =>
          rcases advance_cases f n draw outside with hsame | ⟨k, y, ht, -⟩
          · rw [step, hsame]
            exact Or.inl hget
          · exact (ht.stored_or_changed hf hget (hr.past j hj x hx)).imp_right
              fun hchanged => ⟨_, List.mem_of_getElem? ht.job_after, hchanged⟩
    · exact Or.inr (exists_changed_step m hchanged (time_le_step f m))
  refine forall_mem_step m hstays (by simp) ?_
  intro i j y ht hj x hx r hread
  rcases List.mem_append.1 hx with hx | hx
  · exact hj x hx r hread
  · obtain rfl := List.mem_singleton.1 hx
    rw [ht.store_of_none (Exchange.written?_of_read? hread)]
    exact Or.inl (ht.get?_of_read? hread)

/-- A job whose write is refused has lost a race. -/
theorem Lost.of_turn {f : Floor} {m : Move} (hf : f.Inv) (hs : f.Settled) (hl : f.store.Lawful)
    (hr : f.Raced) {i : Nat} {j : Job} {x : Exchange} (ht : Turn f i j x (f.step m)) {id : OrderId}
    {e : OrderError} (hc : j.command.changes? = some id) (hcall : (j.next x).call = .failed e)
    (he : e.kind = .concurrentModification) : (f.step m).Lost (j.next x) id e := by
  obtain ⟨o, v, hn, hv, rfl⟩ := ht.versionOf_of_conflict hcall he
  obtain ⟨y, r, rest, hlog, hread, rfl, hstatus, rfl, hid, -⟩ :=
    (ht.underway hf).read_of_write (hn ▸ ht.need) hc
  rw [hid] at hv ⊢
  have hy : y ∈ j.log := by simp [hlog]
  -- the record that was read is not the stored one any more
  have hchanged : ∃ k ∈ f.jobs, k.changed r.id y.time f.time = true := by
    rcases hr.fresh j ht.mem y hy r hread with hget | hchanged
    · exact absurd (Store.versionOf_of_get? hget) hv
    · exact hchanged
  obtain ⟨k, hk, hwon⟩ := hchanged
  obtain ⟨p, hget, hfinal⟩ := get?_of_changed hf hs hk hwon
  have hfirst : r.version = ⟨1⟩ := by
    have hlawful : r.Lawful := hr.lawful j ht.mem r (List.mem_filterMap.2 ⟨y, hy, hread⟩)
    exact congrArg Version.mk (hlawful.waiting.2 hstatus)
  have hsecond : f.store.versionOf r.id = ⟨2⟩ := by
    rw [Store.versionOf_of_get? hget]
    refine congrArg Version.mk ((hl r.id p hget).final.2 ?_)
    cases hp : p.status with
    | pending => exact absurd hp hfinal
    | paid => exact Or.inl rfl
    | cancelled => exact Or.inr rfl
  refine ⟨by rw [hfirst, hsecond], y, rest, x, ?_, ⟨r, hread, rfl⟩, ⟨o, _, hn⟩, ?_⟩
  · rw [Job.log_next, hlog]
  · rw [ht.time]
    exact exists_changed_step m ⟨k, hk, hwon⟩ (Nat.le_refl _)

theorem lost_step {f : Floor} (hf : f.Inv) (hs : f.Settled) (hl : f.store.Lawful) (hr : f.Raced)
    (m : Move) :
    ∀ j ∈ (f.step m).jobs, ∀ id e, j.command.changes? = some id → j.call = .failed e →
      e.kind = .concurrentModification → (f.step m).Lost j id e := by
  have hstays : ∀ j ∈ f.jobs, ∀ id e, j.command.changes? = some id → j.call = .failed e →
      e.kind = .concurrentModification → (f.step m).Lost j id e := by
    intro j hj id e hc hcall he
    obtain ⟨herror, x, rest, u, hlog, hread, hwrite, hwon⟩ := hr.lost j hj id e hc hcall he
    exact ⟨herror, x, rest, u, hlog, hread, hwrite, exists_changed_step m hwon (Nat.le_refl _)⟩
  refine forall_mem_step m hstays ?_ ?_
  · intro command id e hc hcall
    -- payments and cancellations do not fail at once
    cases command <;> cases hc <;> cases hcall
  · intro i j x ht _ id e hc hcall he
    exact Lost.of_turn hf hs hl hr ht hc hcall he

theorem raced_step {f : Floor} (hf : f.Inv) (hs : f.Settled) (hl : f.store.Lawful) (hr : f.Raced)
    {m : Move} (hm : m.IsOwn) : (f.step m).Raced :=
  ⟨past_step hr m, lawful_reads_step hl hr m, fresh_step hf hr hm, lost_step hf hs hl hr m⟩

/-- Every lost race has its winner, along every run of the desk's own moves from an empty store. -/
theorem raced_run {moves : List Move} (hm : ∀ m ∈ moves, m.IsOwn) :
    ((opening .empty).run moves).Raced := by
  have hall : ((opening .empty).run moves).Settled ∧ ((opening .empty).run moves).store.Lawful ∧
      ((opening .empty).run moves).Raced := by
    refine run_of_step (p := fun f => f.Settled ∧ f.store.Lawful ∧ f.Raced) ?_ inv_opening_empty
      ⟨settled_opening, Store.lawful_empty, raced_opening⟩ hm
    rintro f m hf hown ⟨hs, hl, hr⟩
    exact ⟨settled_step hf hs hown, lawful_step hf hown hl, raced_step hf hs hl hr hown⟩
  exact hall.2.2

end Floor

/-! ## Lost races -/

/-- In every run from an empty store in which only the desk writes: a payment or a cancellation that
fails with a conflict names its order and the versions 1 and 2; it read that order first and had its
write refused last, and in between exactly one other job, which succeeded, paid or cancelled the order,
which is final now. And once an order is final, it stays as it is. Whatever payment or cancellation of
it comes later needs its record and nothing else, never fails with a conflict, and is finished when it
goes on: a payment is told that the order is paid or cancelled, a cancellation that it is paid, or that
there was nothing to change. -/
theorem lost_race (moves : List Move) (hown : ∀ m ∈ moves, m.IsOwn) (id : OrderId) :
    let f := (Floor.opening .empty).run moves
    (∀ j ∈ f.jobs, ∀ e, j.command.changes? = some id → j.call = .failed e →
      e.kind = .concurrentModification →
        e = .concurrentModification id ⟨1⟩ ⟨2⟩ ∧
        (∃ x rest u, j.log = x :: rest ++ [u] ∧ (∃ r, x.read? = some r ∧ r.id = id) ∧
          (∃ o v, u.need = .write o v) ∧ j.changed id x.time u.time = false ∧
          f.jobs.countP (·.changed id x.time u.time) = 1 ∧
          ∀ k ∈ f.jobs, k.changed id x.time u.time = true → ∃ receipt, k.call = .succeeded receipt) ∧
        ∃ o, f.store.get? id = some o ∧ o.status ≠ .pending) ∧
      ∀ o, f.store.get? id = some o → o.status ≠ .pending →
        ∀ later : List Move, (∀ m ∈ later, m.IsOwn) →
          let g := f.run later
          g.store.get? id = some o ∧
            ∀ i k, f.jobs.length ≤ i → g.jobs[i]? = some k → k.command.changes? = some id →
              (∀ x ∈ k.log, x.need = .record id) ∧
              (∀ e, k.call = .failed e → e.kind ≠ .concurrentModification) ∧
              ∀ draw outside, ∃ l, (g.advance i draw outside).jobs[i]? = some l ∧
                (∀ requested, k.command = .pay id requested →
                  l.call = .failed (if o.status = .paid then .alreadyPaid id else .cancelled id)) ∧
                (k.command = .cancel id →
                  l.call = if o.status = .paid then .failed (.alreadyPaid id)
                    else .succeeded (.cancelled o false)) := by
  intro f
  have hf : f.Inv := Floor.inv_run Floor.inv_opening_empty hown
  have hs : f.Settled := Floor.settled_run hown
  have hr : f.Raced := Floor.raced_run hown
  constructor
  · intro j hj e hc hcall he
    obtain ⟨herror, x, rest, u, hlog, hread, hwrite, k, hk, hwon⟩ := hr.lost j hj id e hc hcall he
    refine ⟨herror, ⟨x, rest, u, hlog, hread, hwrite, ?_, ?_, ?_⟩,
      Floor.get?_of_changed hf hs hk hwon⟩
    · rw [Bool.eq_false_iff]
      intro hchanged
      obtain ⟨⟨receipt, hsucceeded⟩, -⟩ := Floor.exists_write_of_changed hf hj hchanged
      rw [hcall] at hsucceeded
      cases hsucceeded
    · have hpos : 0 < f.jobs.countP (·.changed id x.time u.time) :=
        List.countP_pos_iff.2 ⟨k, hk, hwon⟩
      have hone : f.jobs.countP (·.changed id x.time u.time) ≤ 1 :=
        Floor.countP_changed_le_one hf hs
      omega
    · intro l hl hchanged
      exact (Floor.exists_write_of_changed hf hl hchanged).1
  · intro o ho hfinal later hlater g
    obtain rfl : o.id = id := Store.id_of_get? ho
    have hclosed : g.Closed f.jobs.length o := Floor.closed_run hf hlater hfinal ho
    refine ⟨hclosed.stored, fun i k hi hk hc => ⟨?_, ?_, fun draw outside => ?_⟩⟩
    · rcases hclosed.told i k hk hi hc with ⟨hlog, -⟩ | ⟨x, hlog, hn, -⟩
      · simp [hlog]
      · simp [hlog, hn]
    · exact fun e hcall => (hclosed.told i k hk hi hc).kind_ne hc hfinal hcall
    · obtain ⟨l, d, hl, htold⟩ := Floor.told_advance hclosed hfinal hk hi hc draw outside
      refine ⟨l, hl, fun requested hcommand => ?_, fun hcommand => ?_⟩
      · rw [htold, hcommand, resume_start_pay hfinal]
      · rw [htold, hcommand, resume_start_cancel hfinal]

/-- In the race the second payment loses, and whoever pays later is told that the order is paid. -/
theorem lost_race_race :
    let f := (Floor.opening .empty).run Floor.race
    (∃ j ∈ f.jobs, j.command = .pay Floor.raceOrder "SBP" ∧
      j.call = .failed (.concurrentModification Floor.raceOrder ⟨1⟩ ⟨2⟩) ∧
      ∃ x rest u, j.log = x :: rest ++ [u] ∧
        f.jobs.countP (·.changed Floor.raceOrder x.time u.time) = 1) ∧
      ∀ draw outside, ∃ l,
        ((f.run [.ask (.pay Floor.raceOrder "CARD")]).advance 4 draw outside).jobs[4]? = some l ∧
          l.call = .failed (.alreadyPaid Floor.raceOrder) := by
  intro f
  obtain ⟨hlost, hlater⟩ := lost_race Floor.race (by decide) Floor.raceOrder
  constructor
  · obtain ⟨-, ⟨x, rest, u, hlog, -, -, -, hone, -⟩, -⟩ :=
      hlost (f.jobs.get ⟨2, by decide⟩) (List.get_mem _ _)
        (.concurrentModification Floor.raceOrder ⟨1⟩ ⟨2⟩) rfl rfl rfl
    exact ⟨f.jobs.get ⟨2, by decide⟩, List.get_mem _ _, rfl, rfl, x, rest, u, hlog, hone⟩
  · intro draw outside
    obtain ⟨-, htold⟩ := hlater Floor.racePaid (by decide) (by decide)
      [.ask (.pay Floor.raceOrder "CARD")] (by decide)
    obtain ⟨-, -, hnext⟩ := htold 4 _ (by decide) rfl rfl
    obtain ⟨l, hl, hpay, -⟩ := hnext draw outside
    exact ⟨l, hl, hpay "CARD" rfl⟩

end OrderDesk
