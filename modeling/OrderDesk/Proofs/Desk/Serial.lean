/-
# The calls of a run in one order

The calls of a run that succeeded can be run one at a time, in the order of their points, over the store
that the run began with: each has the same result, and the store at the end is the same. The point of a
call is the moment of its accepted write, and of its read if it wrote nothing.

* `Job.point` : the moment of a job that places it in the order;
* `Desk.serially` : jobs done one after the other;
* `Floor.Serial` : an order that explains all results and the store;
* `Floor.exists_serial_step` : it grows by the job that has just succeeded.
-/
import OrderDesk.Proofs.Desk.Replay
import OrderDesk.Proofs.Desk.Results

namespace OrderDesk

/-! ## Orders of jobs -/

namespace Job

/-- The moment of the accepted write of a job, and of its read if it wrote nothing. -/
def point (j : Job) : Option Nat :=
  ((j.log.find? (·.written?.isSome)).or (j.log.find? (·.read?.isSome))).map Exchange.time

/-- Whether the point of a job comes before that of another. -/
def Before (j k : Job) : Prop :=
  ∃ s t, j.point = some s ∧ k.point = some t ∧ s < t

end Job

namespace Desk

/-- Jobs are done one after the other: the desk at the end, and how each job ended. -/
def serially (d : Desk) (jobs : List Job) : Desk × List Call :=
  jobs.foldl (fun (e, ends) j => ((e.attend j).1, ends ++ [(e.attend j).2])) (d, [])

theorem serially_concat (d : Desk) (jobs : List Job) (j : Job) :
    d.serially (jobs ++ [j]) =
      (((d.serially jobs).1.attend j).1,
        (d.serially jobs).2 ++ [((d.serially jobs).1.attend j).2]) := by
  simp [serially, List.foldl_append]

end Desk

/-- An order of all jobs that succeeded, by their points, that explains their results and the store when
they are done one after the other from a desk. -/
structure Floor.Serial (f : Floor) (d : Desk) (order : List Job) : Prop where
  perm : order.Perm (f.jobs.filter Job.succeeded)
  sorted : order.Pairwise Job.Before
  past : ∀ j ∈ order, ∃ t, j.point = some t ∧ t < f.time
  store : (d.serially order).1.store = f.store
  ends : (d.serially order).2 = order.map Job.call

/-! ## The order grows -/

namespace Turn

variable {f g : Floor} {i : Nat} {j : Job} {x : Exchange}

/-- A turn adds the job that takes it to the jobs of a kind, if it was not of that kind before and is
now. -/
theorem filter_jobs_perm (h : Turn f i j x g) {p : Job → Bool} (hj : p j = false) :
    (g.jobs.filter p).Perm (f.jobs.filter p ++ [j.next x].filter p) := by
  obtain ⟨hi, hget⟩ := List.getElem?_eq_some_iff.1 h.job
  have hbefore : f.jobs = f.jobs.take i ++ j :: f.jobs.drop (i + 1) := by
    rw [← hget, List.getElem_cons_drop, List.take_append_drop]
  rw [h.jobs, List.set_eq_take_append_cons_drop, if_pos hi]
  conv =>
    rhs
    rw [hbefore]
  simp only [List.filter_append, List.filter_cons, hj, Bool.false_eq_true, if_false,
    List.filter_nil]
  split
  · rw [List.append_assoc]
    exact List.Perm.append_left _ (List.perm_append_singleton _ _).symm
  · simp

/-- The point of a job that has just succeeded is its last exchange. -/
theorem point (h : Turn f i j x g) (hf : f.Inv) {receipt : Receipt}
    (hok : j.call.resume x.draw x.answer = .succeeded receipt) :
    (j.next x).point = some f.time := by
  have hwrites : j.log.find? (·.written?.isSome) = none := by
    rw [List.find?_eq_none]
    intro y hy
    simp [(h.underway hf).written?_eq_none y hy]
  unfold Job.point
  cases hw : x.written? with
  | some w => simp [List.find?_append, hwrites, hw, h.time]
  | none =>
      obtain ⟨hnil, r, hr⟩ := h.log_eq_nil hf hok hw
      simp [hnil, hw, hr, h.time]

/-- The order grows by the job that has just succeeded. -/
theorem serial_of_succeeded (h : Turn f i j x g) (hf : f.Inv) {receipt : Receipt}
    (hok : j.call.resume x.draw x.answer = .succeeded receipt) {d : Desk} {order : List Job}
    (hs : f.Serial d order) :
    g.Serial d (order ++ [j.next x]) := by
  have hpoint := h.point hf hok
  obtain ⟨hcall, hstore⟩ := h.attend hf hok hs.store
  refine ⟨?_, ?_, ?_, ?_, ?_⟩
  · have hperm := h.filter_jobs_perm (Job.not_succeeded_of_need h.need)
    have hnew : [j.next x].filter
        Job.succeeded = [j.next x] := by
      rw [List.filter_eq_self]
      simp [Job.succeeded_iff, hok]
    rw [hnew] at hperm
    exact (hs.perm.append_right _).trans hperm.symm
  · -- all other points are in the past
    rw [List.pairwise_append]
    refine ⟨hs.sorted, List.pairwise_singleton _ _, ?_⟩
    intro k hk l hl
    rw [List.mem_singleton] at hl
    subst hl
    obtain ⟨t, ht, hlt⟩ := hs.past k hk
    exact ⟨t, f.time, ht, hpoint, hlt⟩
  · intro k hk
    rw [h.clock]
    rcases List.mem_append.1 hk with hk | hk
    · obtain ⟨t, ht, hlt⟩ := hs.past k hk
      exact ⟨t, ht, Nat.lt_succ_of_lt hlt⟩
    · rw [List.mem_singleton] at hk
      subst hk
      exact ⟨f.time, hpoint, Nat.lt_succ_self _⟩
  · rw [Desk.serially_concat]
    exact hstore
  · rw [Desk.serially_concat, List.map_append, hs.ends, hcall]
    rfl

/-- The order stays the same when a call goes on without success. -/
theorem serial_of_not_succeeded (h : Turn f i j x g)
    (hno : (j.next x).succeeded = false)
    {d : Desk} {order : List Job} (hs : f.Serial d order) : g.Serial d order := by
  -- a call whose write is accepted succeeds
  have hw : x.written? = none := by
    rw [Option.eq_none_iff_forall_ne_some]
    intro w hw
    have hok : (j.next x).succeeded = true :=
      Job.succeeded_iff.2 (resume_of_written? h.need hw)
    rw [hok] at hno
    cases hno
  have hperm := h.filter_jobs_perm (Job.not_succeeded_of_need h.need)
  have hnew : [j.next x].filter
      Job.succeeded = [] := by
    simp [hno]
  rw [hnew, List.append_nil] at hperm
  refine ⟨hs.perm.trans hperm.symm, hs.sorted, ?_, ?_, hs.ends⟩
  · intro k hk
    obtain ⟨t, ht, hlt⟩ := hs.past k hk
    rw [h.clock]
    exact ⟨t, ht, Nat.lt_succ_of_lt hlt⟩
  · rw [h.store_of_none hw]
    exact hs.store

end Turn

namespace Floor

theorem serial_opening (s : Store) : (opening s).Serial (opening s).desk [] where
  perm := by simp
  sorted := List.Pairwise.nil
  past := by simp
  store := rfl
  ends := rfl

/-- After any own move there is an order again. -/
theorem exists_serial_step {f : Floor} (hf : f.Inv) {m : Move} (hm : m.IsOwn) {d : Desk}
    {order : List Job} (hs : f.Serial d order) : ∃ later, (f.step m).Serial d later := by
  cases m with
  | ask command =>
      refine ⟨order, ?_, hs.sorted, hs.past, ?_, hs.ends⟩
      · have hjobs : (f.step (.ask command)).jobs.filter Job.succeeded =
            f.jobs.filter Job.succeeded := by
          simp [jobs_ask, List.filter_append, Job.not_succeeded_start]
        rw [hjobs]
        exact hs.perm
      · rw [hs.store]
        exact (store_ask f command).symm
  | intrude o expected => exact hm.elim
  | advance i draw outside =>
      rcases advance_cases f i draw outside with hsame | ⟨j, x, ht, -⟩
      · rw [step, hsame]
        exact ⟨order, hs⟩
      · cases hok : (j.next x).succeeded with
        | false => exact ⟨order, ht.serial_of_not_succeeded hok hs⟩
        | true =>
            obtain ⟨receipt, hcall⟩ := Job.succeeded_iff.1 hok
            exact ⟨_, ht.serial_of_succeeded hf hcall hs⟩

theorem exists_serial_run {f : Floor} (hf : f.Inv) {moves : List Move} (hm : ∀ m ∈ moves, m.IsOwn)
    {d : Desk} {order : List Job} (hs : f.Serial d order) : ∃ later, (f.run moves).Serial d later :=
  run_of_step (p := fun g => ∃ later, g.Serial d later)
    (fun _ _ hg hown ⟨_, hserial⟩ => exists_serial_step hg hown hserial) hf ⟨order, hs⟩ hm

end Floor

end OrderDesk
