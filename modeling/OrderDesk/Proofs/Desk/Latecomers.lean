/-
# Whoever comes later

A payment or a cancellation that is given to the desk when its order is paid or cancelled already. It
reads the order once, and that decides what it is told: there is no charge, no write and no conflict.

* `Job.Told` : what such a job comes to;
* `Floor.closed_run` : all that come later come to that;
* `Floor.told_advance` : they are finished when they go on.
-/
import OrderDesk.Proofs.Desk.OnlyWriter

namespace OrderDesk

/-! ## What they are told -/

/-- What a job comes to that finds a final order: it has not read the order yet, or this one read has
decided what it is told. -/
def Job.Told (j : Job) (o : Order) : Prop :=
  (j.log = [] ∧ j.call = Call.start j.command) ∨
    ∃ x, j.log = [x] ∧ x.need = .record o.id ∧
      j.call = (Call.start j.command).resume x.draw (.record (.ok o))

section Final

variable {command : Command} {o : Order}

/-- The first need of a payment or a cancellation is the record of its order. -/
theorem need_start_of_changes? {id : OrderId} (hc : command.changes? = some id) :
    (Call.start command).need = some (.record id) := by
  cases command <;> cases hc <;> rfl

/-- What a payment of a final order is told. -/
theorem resume_start_pay {id : OrderId} {requested : String} (hfinal : o.status ≠ .pending)
    (draw : Draw) :
    (Call.start (.pay id requested)).resume draw (.record (.ok o)) =
      .failed (if o.status = .paid then .alreadyPaid id else .cancelled id) := by
  simp only [Call.start, Call.resume, Call.afterPayRead]
  cases hs : o.status with
  | pending => exact absurd hs hfinal
  | paid => rfl
  | cancelled => rfl

/-- What a cancellation of a final order is told. -/
theorem resume_start_cancel {id : OrderId} (hfinal : o.status ≠ .pending) (draw : Draw) :
    (Call.start (.cancel id)).resume draw (.record (.ok o)) =
      if o.status = .paid then .failed (.alreadyPaid id) else .succeeded (.cancelled o false) := by
  simp only [Call.start, Call.resume, Call.afterCancelRead, Order.cancel]
  cases hs : o.status with
  | pending => exact absurd hs hfinal
  | paid => rfl
  | cancelled => rfl

theorem need_resume_start {id : OrderId} (hc : command.changes? = some id)
    (hfinal : o.status ≠ .pending) (draw : Draw) :
    ((Call.start command).resume draw (.record (.ok o))).need = none := by
  cases command with
  | create user parts => cases hc
  | fetch order => cases hc
  | pay order requested =>
      rw [resume_start_pay hfinal]
      rfl
  | cancel order =>
      rw [resume_start_cancel hfinal]
      split <;> rfl

end Final

/-- What they are told is never a conflict. -/
theorem Job.Told.kind_ne {j : Job} {o : Order} {id : OrderId} (h : j.Told o)
    (hc : j.command.changes? = some id) (hfinal : o.status ≠ .pending) {e : OrderError}
    (hcall : j.call = .failed e) : e.kind ≠ .concurrentModification := by
  rcases h with ⟨-, hstart⟩ | ⟨x, -, -, htold⟩
  · have hn := need_start_of_changes? hc
    rw [← hstart, hcall] at hn
    cases hn
  · cases hcommand : j.command with
    | create user parts => simp [hcommand, Command.changes?] at hc
    | fetch order => simp [hcommand, Command.changes?] at hc
    | pay order requested =>
        rw [hcall, hcommand, resume_start_pay hfinal] at htold
        cases htold
        split <;> simp [OrderError.kind]
    | cancel order =>
        rw [hcall, hcommand, resume_start_cancel hfinal] at htold
        split at htold <;> cases htold
        simp [OrderError.kind]

/-- When a job asks for a final order, it is told. -/
theorem Turn.told {f g : Floor} {i : Nat} {j : Job} {x : Exchange} (h : Turn f i j x g) {o : Order}
    (ho : f.store.get? o.id = some o) (hfinal : o.status ≠ .pending)
    (hc : j.command.changes? = some o.id) (hj : j.Told o) : (j.next x).Told o := by
  rcases hj with ⟨hlog, hcall⟩ | ⟨y, -, -, hcall⟩
  · have hn : x.need = .record o.id := by
      have hneed := h.need
      rw [hcall, need_start_of_changes? hc] at hneed
      exact (Option.some.inj hneed).symm
    have ha : x.answer = .record (.ok o) := by
      obtain ⟨outside, hserved⟩ := h.served
      have hget : f.desk.store.get? o.id = some o := ho
      rw [hserved, hn, Desk.serve, Store.get, hget]
    refine Or.inr ⟨x, by simp [hlog], hn, ?_⟩
    rw [Job.call_next, ha, hcall, Job.command_next]
  · -- a job that was told is over
    have hneed := h.need
    rw [hcall, need_resume_start hc hfinal] at hneed
    cases hneed

namespace Floor

/-- An order is final, and all jobs from a number on are told so. -/
structure Closed (f : Floor) (n : Nat) (o : Order) : Prop where
  stored : f.store.get? o.id = some o
  told : ∀ i j, f.jobs[i]? = some j → n ≤ i → j.command.changes? = some o.id → j.Told o

theorem closed_step {f : Floor} {m : Move} (hf : f.Inv) (hm : m.IsOwn) {n : Nat} {o : Order}
    (hfinal : o.status ≠ .pending) (h : f.Closed n o) : (f.step m).Closed n o := by
  refine ⟨get?_step_of_final hf hm h.stored hfinal, ?_⟩
  refine forall_getElem?_step m h.told (fun _ _ _ => Or.inl ⟨rfl, rfl⟩) ?_
  intro i j x ht hj hi hc
  exact ht.told h.stored hfinal hc (hj hi hc)

/-- Whoever comes after an order is final is told so. -/
theorem closed_run {f : Floor} {moves : List Move} (hf : f.Inv) (hm : ∀ m ∈ moves, m.IsOwn)
    {o : Order} (hfinal : o.status ≠ .pending) (ho : f.store.get? o.id = some o) :
    (f.run moves).Closed f.jobs.length o := by
  have hclosed : f.Closed f.jobs.length o := by
    refine ⟨ho, fun i j hj hi => ?_⟩
    rw [List.getElem?_eq_none hi] at hj
    cases hj
  exact run_of_step (p := fun g => g.Closed f.jobs.length o)
    (fun _ _ hg hown h => closed_step hg hown hfinal h) hf hclosed hm

/-- A job that asks for a final order is finished by its next step, with what it is told. -/
theorem told_advance {f : Floor} {n i : Nat} {o : Order} (h : f.Closed n o)
    (hfinal : o.status ≠ .pending) {j : Job} (hj : f.jobs[i]? = some j) (hi : n ≤ i)
    (hc : j.command.changes? = some o.id) (draw : Draw) (outside : Answer) :
    ∃ k d, (f.advance i draw outside).jobs[i]? = some k ∧
      k.call = (Call.start j.command).resume d (.record (.ok o)) := by
  rcases h.told i j hj hi hc with ⟨-, hcall⟩ | ⟨x, -, -, hcall⟩
  · have hn : j.call.need = some (.record o.id) := by rw [hcall, need_start_of_changes? hc]
    have hget : f.desk.store.get? o.id = some o := h.stored
    have hserve : (f.desk.serve (.record o.id) outside).2 = .record (.ok o) := by
      rw [Desk.serve, Store.get, hget]
    have htakes : (Need.record o.id).takes (f.desk.serve (.record o.id) outside).2 = true := by
      rw [hserve]
      rfl
    refine ⟨_, draw, (turn_advance hj hn htakes draw).job_after, ?_⟩
    rw [Job.call_next, hcall]
    simp only [hserve]
  · have hdone : j.call.need = none := by rw [hcall, need_resume_start hc hfinal]
    rw [advance_of_finished hj hdone]
    exact ⟨j, x.draw, hj, hcall⟩

end Floor

end OrderDesk
