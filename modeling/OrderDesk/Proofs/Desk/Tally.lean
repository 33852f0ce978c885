/-
# What the counters say

The counters agree with the store and with what clients were told. Every stored order was counted once
when it was created, and once more when it was paid or cancelled; every failure was counted under the
operation and the kind that its client was told, a refused write also as a conflict.

* `Counters.value_observe` : what the end of an operation adds to a counter;
* `Job.raises` : whether a job has raised a counter, which none does twice;
* `Ended.successes` : a success is counted by the status of the record that was written;
* `Store.reached` : how many records have come to a status;
* `Floor.tallied_run` : both censuses hold along every run of the desk's own moves;
* `counters_agree` : what each counter is the number of.
-/
import OrderDesk.Proofs.Desk.Settled

namespace OrderDesk

/-! ## Raising counters -/

namespace OrderStatus

/-- The counter of the orders that came to a status. -/
def counter : OrderStatus → Counter
  | .pending => .created
  | .paid => .paid
  | .cancelled => .cancelled

variable (st : OrderStatus)

@[simp] theorem counter_ne_conflicts : st.counter ≠ .conflicts := by
  cases st <;> simp [counter]

@[simp] theorem counter_ne_ended (operation : Operation) : st.counter ≠ .ended operation := by
  cases st <;> simp [counter]

@[simp] theorem counter_ne_failed (operation : Operation) (kind : ErrorKind) :
    st.counter ≠ .failed operation kind := by
  cases st <;> simp [counter]

theorem counter_inj {a b : OrderStatus} : a.counter = b.counter ↔ a = b := by
  cases a <;> cases b <;> simp [counter]

end OrderStatus

namespace Counters

/-- Raising counters adds to each of them as often as it is raised. -/
theorem value_foldl_increment (cs : List Counter) (m : Counters) (c : Counter) :
    (cs.foldl (fun m c => increment c m) m).value c = m.value c + cs.count c := by
  induction cs generalizing m with
  | nil => rfl
  | cons d rest ih =>
      rw [List.foldl_cons, ih, value_increment, List.count_cons]
      simp only [beq_iff_eq]
      omega

/-- A success is counted by the status that an order came to, if by anything. -/
theorem successes_eq (receipt : Receipt) :
    successes receipt = [] ∨ ∃ st : OrderStatus, successes receipt = [st.counter] := by
  cases receipt with
  | created id total => exact Or.inr ⟨.pending, rfl⟩
  | fetched o => exact Or.inl rfl
  | paid t => exact Or.inr ⟨.paid, rfl⟩
  | cancelled o changed =>
      cases changed with
      | true => exact Or.inr ⟨.cancelled, rfl⟩
      | false => exact Or.inl rfl

/-- The end of an operation raises no counter twice. -/
theorem nodup_raised (operation : Operation) (o : Outcome) : (raised operation o).Nodup := by
  cases o with
  | error e => simp [raised]
  | ok receipt =>
      rcases successes_eq receipt with h | ⟨st, h⟩
      · simp [raised, h]
      · simp [raised, h, (st.counter_ne_ended operation).symm]

theorem value_observe (m : Counters) (operation : Operation) (o : Outcome) (c : Counter) :
    (m.observe operation o).value c = m.value c + if c ∈ raised operation o then 1 else 0 := by
  rw [observe, value_foldl_increment, (nodup_raised operation o).count]

end Counters

/-! ## What a job has raised -/

/-- The counters that are raised when a call is over. -/
def Call.raised (c : Call) (operation : Option Operation) : List Counter :=
  match operation, c.outcome? with
  | some operation, some o => Counters.raised operation o
  | _, _ => []

namespace Job

/-- Whether a job failed with a conflict. -/
def lost (j : Job) : Bool :=
  match j.call with
  | .failed e => e.kind = .concurrentModification
  | _ => false

/-- Whether a job is of an operation, and failed in some way. -/
def failedWith (j : Job) (operation : Operation) (kind : ErrorKind) : Bool :=
  match j.call with
  | .failed e => j.command.operation? = some operation && e.kind = kind
  | _ => false

/-- Whether a job has raised a counter: when it was over, or by its refused write. -/
def raises (j : Job) (c : Counter) : Bool :=
  c ∈ j.call.raised j.command.operation? || c = .conflicts && j.lost

theorem lost_iff {j : Job} :
    j.lost = true ↔ ∃ e, j.call = .failed e ∧ e.kind = .concurrentModification := by
  unfold lost
  split
  · rename_i e hcall
    simp [hcall]
  · rename_i hcall
    simpa using fun e he => absurd he (hcall e)

/-- A job at work has raised nothing. -/
theorem raises_of_need {j : Job} {n : Need} (h : j.call.need = some n) (c : Counter) :
    j.raises c = false := by
  unfold raises lost
  cases hcall : j.call with
  | finished o => simp [hcall, Call.need] at h
  | _ => cases j.command.operation? <;> simp [Call.raised, Call.outcome?]

/-- The end of an operation is no conflict by itself. -/
theorem not_mem_raised (j : Job) : Counter.conflicts ∉ j.call.raised j.command.operation? := by
  unfold Call.raised
  split
  · rename_i operation o _ _
    cases o with
    | error e => simp [Counters.raised]
    | ok receipt =>
        rcases Counters.successes_eq receipt with h | ⟨st, h⟩
        · simp [Counters.raised, h]
        · simp [Counters.raised, h, st.counter_ne_conflicts.symm]
  · simp

end Job

/-! ## What the desk counts in a turn -/

/-- Whether an exchange is a write that was refused. -/
def Exchange.refused (x : Exchange) : Bool :=
  match x.need, x.answer with
  | .write .., .written (.error _) => true
  | _, _ => false

namespace Desk

theorem value_conclude (d : Desk) (operation : Option Operation) (call : Call) (c : Counter) :
    (d.conclude operation call).counters.value c =
      d.counters.value c + if c ∈ call.raised operation then 1 else 0 := by
  cases operation with
  | none => simp [conclude, Call.raised]
  | some operation =>
      cases ho : call.outcome? with
      | none => simp [conclude, Call.raised, ho]
      | some o => simp [conclude, Call.raised, ho, Counters.value_observe]

/-- A need that is met raises the counter of conflicts if it is a write that is refused. -/
theorem value_serve (d : Desk) (n : Need) (outside : Answer) (t : Nat) (draw : Draw) (c : Counter) :
    (d.serve n outside).1.counters.value c = d.counters.value c +
      if c = .conflicts && Exchange.refused ⟨t, n, draw, (d.serve n outside).2⟩ then 1 else 0 := by
  cases n with
  | write o v =>
      rw [serve_write]
      split
      · simp [Exchange.refused]
      · simp [Exchange.refused, Counters.value_increment, eq_comm]
  | _ => simp [serve, Exchange.refused]

end Desk

/-- Where a call stands says which operation it is observed as. -/
theorem Underway.operation? {command : Command} {log : List Exchange} {c : Call}
    (h : Underway command log c) : c.operation? = command.operation? := by
  cases c with
  | inserting o =>
      obtain ⟨user, parts, x, snapshots, total, rfl, -⟩ := h
      rfl
  | choosing r requested =>
      obtain ⟨x, rfl, -⟩ := h
      rfl
  | charging r m =>
      obtain ⟨requested, x, y, rfl, -⟩ := h
      rfl
  | updatingPaid o t =>
      obtain ⟨r, m, requested, x, y, z, rfl, -⟩ := h
      rfl
  | updatingCancelled o =>
      obtain ⟨r, x, rfl, -⟩ := h
      rfl
  | finished o => exact h.elim
  | _ =>
      obtain ⟨rfl, -⟩ := h
      rfl

/-- Every call that writes is observed. -/
theorem Underway.operation_of_write {command : Command} {log : List Exchange} {c : Call} {o : Order}
    {v : Version} (h : Underway command log c) (hn : c.need = some (.write o v)) :
    ∃ operation, command.operation? = some operation := by
  rw [← h.operation?]
  rcases need_eq_write hn with ⟨rfl, -⟩ | ⟨t, rfl, -⟩ | ⟨rfl, -⟩
  · exact ⟨.create, rfl⟩
  · exact ⟨.pay, rfl⟩
  · exact ⟨.cancel, rfl⟩

namespace Turn

variable {f g : Floor} {i : Nat} {j : Job} {x : Exchange}

/-- A job has lost exactly if its write was refused. -/
theorem lost_next (h : Turn f i j x g) : (j.next x).lost = x.refused := by
  rw [Bool.eq_iff_iff, Job.lost_iff]
  constructor
  · rintro ⟨e, hcall, he⟩
    have hpasses := h.passes
    rw [hcall] at hpasses
    obtain ⟨o, v, actual, -, hneed, hanswer, -⟩ := hpasses.of_conflict he
    simp [Exchange.refused, hneed, hanswer]
  · intro hrefused
    unfold Exchange.refused at hrefused
    split at hrefused
    · rename_i o v reason hneed hanswer
      rcases h.honest.write hneed with ha | ⟨actual, -, ha⟩
      · rw [hanswer] at ha
        cases ha
      · refine ⟨.concurrentModification o.id v actual, ?_, rfl⟩
        rw [Job.call_next, ha]
        rcases need_eq_write (hneed ▸ h.need) with ⟨hcall, -⟩ | ⟨t, hcall, -⟩ | ⟨hcall, -⟩ <;>
          rw [hcall] <;> rfl
    · cases hrefused

end Turn

namespace Floor

/-- A counter is raised in a turn exactly if the job has raised it afterwards. -/
theorem value_advance {f : Floor} {i : Nat} {j : Job} {n : Need} {outside : Answer} (hf : f.Inv)
    (hj : f.jobs[i]? = some j) (hn : j.call.need = some n)
    (htakes : n.takes (f.desk.serve n outside).2 = true) (draw : Draw) (c : Counter) :
    (f.advance i draw outside).desk.counters.value c = f.desk.counters.value c +
      if (j.next ⟨f.time, n, draw, (f.desk.serve n outside).2⟩).raises c then 1 else 0 := by
  have ht := turn_advance hj hn htakes draw
  have hoperation : j.call.operation? = j.command.operation? := (ht.underway hf).operation?
  have hdesk : (f.desk.step j.call draw outside).1 = (f.desk.serve n outside).1.conclude
      j.call.operation? (j.call.resume draw (f.desk.serve n outside).2) := by
    simp [Desk.step, hn]
  rw [advance_eq hj hn htakes, hdesk, Desk.value_conclude, Desk.value_serve _ _ _ f.time draw,
    hoperation, ← ht.lost_next]
  unfold Job.raises
  -- no counter is raised in both ways
  by_cases hc : c = .conflicts
  · subst hc
    have hnot := Job.not_mem_raised (j.next ⟨f.time, n, draw, (f.desk.serve n outside).2⟩)
    simp only [Job.call_next, Job.command_next] at hnot ⊢
    simp [hnot]
  · by_cases hmem : c ∈ (j.call.resume draw (f.desk.serve n outside).2).raised j.command.operation?
    · simp [hc, hmem]
    · simp [hc, hmem]

/-- A call that is told to go on takes a turn that is counted, or nothing happens. -/
theorem counted_or_idle {f : Floor} (hf : f.Inv) (i : Nat) (draw : Draw) (outside : Answer) :
    f.advance i draw outside = f ∨
      ∃ j x, Turn f i j x (f.advance i draw outside) ∧
        ∀ c, (f.advance i draw outside).desk.counters.value c =
          f.desk.counters.value c + if (j.next x).raises c then 1 else 0 := by
  cases hj : f.jobs[i]? with
  | none => exact Or.inl (by simp only [advance, hj])
  | some j =>
      cases hn : j.call.need with
      | none => exact Or.inl (advance_of_finished hj hn draw outside)
      | some n =>
          cases htakes : n.takes (f.desk.serve n outside).2 with
          | false => exact Or.inl (by simp [advance, hj, hn, htakes])
          | true =>
              exact Or.inr ⟨j, _, turn_advance hj hn htakes draw, value_advance hf hj hn htakes draw⟩

/-- A command that was just given has raised what the desk has counted for it. -/
theorem value_ask (f : Floor) (command : Command) (c : Counter) :
    (f.step (.ask command)).desk.counters.value c = f.desk.counters.value c +
      if Job.raises ⟨command, Call.start command, []⟩ c then 1 else 0 := by
  have hlost : Job.lost ⟨command, Call.start command, []⟩ = false := by
    cases command with
    | create user parts =>
        by_cases hparts : parts = [] <;> simp [Job.lost, Call.start, hparts, OrderError.kind]
    | _ => rfl
  have hstart := Desk.value_conclude f.desk command.operation? (Call.start command) c
  simpa [step, ask, Desk.start, Job.raises, hlost] using hstart

end Floor

/-! ## Successes and the records that were written -/

/-- A success is counted by the status of the record that was written, if there is one. -/
theorem Ended.successes {command : Command} {log : List Exchange} {x : Exchange} {receipt : Receipt}
    (h : Ended command (log ++ [x]) receipt) :
    Counters.successes receipt = (x.written?.map fun w => w.status.counter).toList := by
  have hlast : ∀ (before : List Exchange) {y : Exchange}, log ++ [x] = before ++ [y] → y = x := by
    intro before y heq
    exact (List.singleton_inj.1 (List.append_inj' heq rfl).2).symm
  cases receipt with
  | created id total =>
      obtain ⟨o, before, y, v, hunder, hlog, hw, -⟩ := h
      obtain rfl := hlast before hlog
      obtain ⟨user, parts, z, snapshots, amount, -, -, -, -, -, hplace⟩ := hunder
      obtain ⟨-, -, rfl⟩ := Order.place_eq_ok_iff.1 hplace
      rw [hw]
      rfl
  | fetched o =>
      obtain ⟨y, -, hlog, hread⟩ := h
      obtain rfl := hlast [] hlog
      rw [Exchange.written?_of_read? hread]
      rfl
  | paid t =>
      obtain ⟨o, before, y, v, hunder, hlog, hw⟩ := h
      obtain rfl := hlast before hlog
      obtain ⟨r, m, requested, z, u, k, -, -, -, -, -, -, hpay⟩ := hunder
      obtain ⟨-, rfl⟩ := Order.pay_eq_ok_iff.1 hpay
      rw [hw]
      rfl
  | cancelled o changed =>
      cases changed with
      | true =>
          obtain ⟨p, before, y, v, hunder, hlog, hw, -⟩ := h
          obtain rfl := hlast before hlog
          obtain ⟨r, z, -, -, -, hcancel⟩ := hunder
          obtain ⟨-, rfl⟩ := Order.cancel_eq_ok_some_iff.1 hcancel
          rw [hw]
          rfl
      | false =>
          obtain ⟨y, -, hlog, hread, -⟩ := h
          obtain rfl := hlast [] hlog
          rw [Exchange.written?_of_read? hread]
          rfl

namespace Job

/-- Only a success raises the counter of a status. -/
theorem raises_counter (j : Job) (st : OrderStatus) :
    j.raises st.counter = true ↔ ∃ operation receipt, j.command.operation? = some operation ∧
      j.call = .succeeded receipt ∧ st.counter ∈ Counters.successes receipt := by
  simp only [raises, OrderStatus.counter_ne_conflicts, decide_false, Bool.false_and, Bool.or_false,
    decide_eq_true_eq]
  unfold Call.raised
  constructor
  · intro h
    split at h
    · rename_i operation o hoperation ho
      cases hcall : j.call with
      | finished result =>
          rw [hcall, Call.outcome?, Option.some.injEq] at ho
          subst ho
          cases result with
          | error e => simp [Counters.raised] at h
          | ok receipt =>
              have hmem : st.counter ∈ Counters.successes receipt := by
                simpa [Counters.raised] using h
              exact ⟨operation, receipt, hoperation, rfl, hmem⟩
      | _ => simp [hcall, Call.outcome?] at ho
    · cases h
  · rintro ⟨operation, receipt, hoperation, hcall, hmem⟩
    simp [hoperation, hcall, Call.outcome?, Counters.raised, hmem]

end Job

namespace Turn

variable {f g : Floor} {i : Nat} {j : Job} {x : Exchange}

/-- A job raises the counter of the status of the record that it leaves in the store, and of no other. -/
theorem raises_counter_next (h : Turn f i j x g) (hf : f.Inv) (st : OrderStatus) :
    (j.next x).raises st.counter = x.written?.any fun w => w.status = st := by
  have hcourse : Course j.command (j.log ++ [x]) (j.next x).call :=
    .next (hf.course j h.mem) h.need h.honest
  rw [Bool.eq_iff_iff, Job.raises_counter]
  constructor
  · rintro ⟨operation, receipt, -, hcall, hmem⟩
    rw [hcall] at hcourse
    rw [hcourse.ended.successes, Option.mem_toList, Option.map_eq_some_iff] at hmem
    obtain ⟨w, hw, hst⟩ := hmem
    simp [hw, OrderStatus.counter_inj.1 hst]
  · intro hany
    obtain ⟨w, hw, hst⟩ := (Option.any_eq_true _ _).1 hany
    obtain ⟨receipt, hcall⟩ := resume_of_written? h.need hw
    rw [← Job.call_next] at hcall
    rw [hcall] at hcourse
    obtain ⟨o, v, hneed, -⟩ := Exchange.need_of_written? h.honest hw
    obtain ⟨operation, hoperation⟩ := (h.underway hf).operation_of_write (hneed ▸ h.need)
    refine ⟨operation, receipt, hoperation, hcall, ?_⟩
    rw [hcourse.ended.successes, hw]
    simp [of_decide_eq_true hst]

end Turn

/-! ## The census of the store -/

namespace Store

/-- How many records have come to a status. Every record has been waiting at first. -/
def reached (s : Store) : OrderStatus → Nat
  | .pending => s.size
  | st => s.records.countP (·.status = st)

/-- The record put in is counted, and the one that it replaces is counted no more. -/
theorem countP_set (s : Store) (w : Order) (p : Order → Bool) :
    (s.set w).records.countP p + (s.get? w.id).toList.countP p =
      s.records.countP p + if p w then 1 else 0 :=
  Keyed.countP_put Order.id w s.records p

/-- A record that is replaced was waiting, so it is missed in no census of a final status. -/
theorem Entry.countP_status_set {s : Store} {w : Order} (h : s.Entry w) {st : OrderStatus}
    (hst : st ≠ .pending) :
    (s.set w).records.countP (·.status = st) =
      s.records.countP (·.status = st) + if w.status = st then 1 else 0 := by
  have hreplaced : (s.get? w.id).toList.countP (·.status = st) = 0 := by
    cases hget : s.get? w.id with
    | none => rfl
    | some r =>
        have hr : r.status = .pending := h.get?_eq hget
        simp [hr, hst.symm]
  have hcount := s.countP_set w (·.status = st)
  rw [hreplaced] at hcount
  simpa using hcount

/-- Only a new record makes the store larger. -/
theorem Entry.size_set {s : Store} {w : Order} (h : s.Entry w) :
    (s.set w).size = s.size + if w.status = .pending then 1 else 0 := by
  have hcount : (s.set w).size + (s.get? w.id).toList.length = s.size + 1 := by
    simpa [size] using s.countP_set w fun _ => true
  cases h with
  | placed hnone _ _ hwaiting =>
      rw [hnone] at hcount
      simpa [hwaiting] using hcount
  | paid m t now hget _ =>
      rw [hget] at hcount
      simpa using hcount
  | cancelled now hget _ =>
      rw [hget] at hcount
      simpa using hcount

/-- What the desk puts in comes to one status more: a new record to the first, another to its last. -/
theorem Entry.reached_set {s : Store} {w : Order} (h : s.Entry w) (st : OrderStatus) :
    (s.set w).reached st = s.reached st + if w.status = st then 1 else 0 := by
  cases st with
  | pending => exact h.size_set
  | paid => exact h.countP_status_set (by decide)
  | cancelled => exact h.countP_status_set (by decide)

end Store

/-! ## The two censuses -/

namespace Floor

/-- Every counter is the number of the jobs that raised it, and as many records have come to a status as
there are jobs that raised its counter. -/
structure Tallied (f : Floor) : Prop where
  counted : ∀ c, f.desk.counters.value c = f.jobs.countP (·.raises c)
  stored : ∀ st : OrderStatus, f.store.reached st = f.jobs.countP (·.raises st.counter)

theorem tallied_opening : (opening .empty).Tallied where
  counted := fun _ => rfl
  stored := by intro st; cases st <;> rfl

theorem tallied_ask {f : Floor} (h : f.Tallied) (command : Command) :
    (f.step (.ask command)).Tallied := by
  -- no command succeeds before its call goes on
  have hstart : ∀ st : OrderStatus,
      Job.raises ⟨command, Call.start command, []⟩ st.counter = false := by
    intro st
    rw [Bool.eq_false_iff, ne_eq, Job.raises_counter]
    rintro ⟨operation, receipt, -, hcall, -⟩
    have hfails := Job.not_succeeded_start command
    rw [Job.succeeded_iff.2 ⟨receipt, hcall⟩] at hfails
    cases hfails
  constructor
  · intro c
    rw [value_ask, h.counted, jobs_ask, List.countP_append, List.countP_singleton]
  · intro st
    rw [store_ask, h.stored, jobs_ask, List.countP_append, List.countP_singleton, hstart]
    rfl

theorem tallied_advance {f : Floor} (hf : f.Inv) (h : f.Tallied) (i : Nat) (draw : Draw)
    (outside : Answer) : (f.advance i draw outside).Tallied := by
  rcases counted_or_idle hf i draw outside with hsame | ⟨j, x, ht, hvalue⟩
  · rw [hsame]
    exact h
  -- the job had raised nothing before its turn
  have hjobs : ∀ c, (f.advance i draw outside).jobs.countP (·.raises c) =
      f.jobs.countP (·.raises c) + if (j.next x).raises c then 1 else 0 := by
    intro c
    have hcount := ht.countP_jobs (·.raises c)
    rw [Job.raises_of_need ht.need] at hcount
    simpa using hcount
  constructor
  · intro c
    rw [hvalue, h.counted, hjobs]
  · intro st
    rw [hjobs, ← h.stored, ht.raises_counter_next hf]
    cases hw : x.written? with
    | none => simp [ht.store_of_none hw]
    | some w => simp [ht.store_of_some hw, (ht.entry hf hw).reached_set]

theorem tallied_step {f : Floor} (hf : f.Inv) (h : f.Tallied) {m : Move} (hm : m.IsOwn) :
    (f.step m).Tallied := by
  cases m with
  | ask command => exact tallied_ask h command
  | advance i draw outside => exact tallied_advance hf h i draw outside
  | intrude o expected => exact hm.elim

/-- Both censuses hold along every run of the desk's own moves from an empty store. -/
theorem tallied_run {moves : List Move} (hm : ∀ m ∈ moves, m.IsOwn) :
    ((opening .empty).run moves).Tallied :=
  run_of_step (fun _ _ hf hown h => tallied_step hf h hown) inv_opening_empty tallied_opening hm

end Floor

/-! ## What each counter is the number of -/

namespace Job

/-- The counter of a failure is raised by the jobs of its operation that failed in its way. -/
theorem raises_failed (j : Job) (operation : Operation) (kind : ErrorKind) :
    j.raises (.failed operation kind) = j.failedWith operation kind := by
  unfold raises failedWith Call.raised
  cases hcall : j.call with
  | finished o =>
      cases o with
      | error e =>
          cases hoperation : j.command.operation? with
          | none => simp
          | some other => simp [Call.outcome?, Counters.raised, eq_comm]
      | ok receipt =>
          cases j.command.operation? with
          | none => simp
          | some other =>
              rcases Counters.successes_eq receipt with h | ⟨st, h⟩
              · simp [Call.outcome?, Counters.raised, h]
              · simp [Call.outcome?, Counters.raised, h, (st.counter_ne_failed operation kind).symm]
  | _ => cases j.command.operation? <;> simp [Call.outcome?]

/-- The counter of conflicts is raised by the jobs whose write was refused. -/
theorem raises_conflicts (j : Job) : j.raises .conflicts = j.lost := by
  simp [raises, j.not_mem_raised]

theorem failedWith_conflict (j : Job) (operation : Operation) :
    j.failedWith operation .concurrentModification =
      (decide (j.command.operation? = some operation) && j.lost) := by
  unfold failedWith lost
  cases j.call with
  | finished o => cases o <;> simp
  | _ => simp

end Job

/-- Only an operation that is observed can lose a race. -/
theorem Course.operation_of_lost {j : Job} (h : Course j.command j.log j.call)
    (hlost : j.lost = true) : ∃ operation, j.command.operation? = some operation := by
  obtain ⟨e, hcall, he⟩ := Job.lost_iff.1 hlost
  rw [hcall] at h
  rcases h.last with ⟨-, hstart⟩ | ⟨before, c, x, -, hbefore, hn, hpasses⟩
  · cases hcommand : j.command with
    | fetch id =>
        rw [hcommand] at hstart
        cases hstart
    | _ => exact ⟨_, rfl⟩
  · obtain ⟨o, v, actual, hwrite, -⟩ := hpasses.of_conflict he
    exact (hbefore.underway (by simp [hn])).operation_of_write hwrite

/-- Every job that lost a race failed with a conflict under exactly one operation. -/
theorem Floor.countP_lost {jobs : List Job}
    (h : ∀ j ∈ jobs, j.lost = true → ∃ operation, j.command.operation? = some operation) :
    jobs.countP (·.lost) = jobs.countP (·.failedWith .create .concurrentModification) +
      jobs.countP (·.failedWith .pay .concurrentModification) +
      jobs.countP (·.failedWith .cancel .concurrentModification) := by
  induction jobs with
  | nil => rfl
  | cons j rest ih =>
      have hrest := ih fun k hk => h k (List.mem_cons_of_mem j hk)
      simp only [List.countP_cons, hrest, Job.failedWith_conflict]
      cases hlost : j.lost with
      | false => simp
      | true =>
          obtain ⟨operation, hoperation⟩ := h j List.mem_cons_self hlost
          cases operation <;> simp [hoperation] <;> omega

/-- In every run from an empty store in which only the desk writes, the counters of the created, paid
and cancelled orders are the numbers of all stored, of the paid and of the cancelled records; the
counter of a failure is the number of the jobs of its operation that failed in its way; and the counter
of conflicts is the sum of those of the failures by conflict. -/
theorem counters_agree (moves : List Move) (hown : ∀ m ∈ moves, m.IsOwn) :
    let f := (Floor.opening .empty).run moves
    let value := f.desk.counters.value
    value .created = f.store.size ∧
      value .paid = f.store.records.countP (·.status = .paid) ∧
      value .cancelled = f.store.records.countP (·.status = .cancelled) ∧
      (∀ operation kind,
        value (.failed operation kind) = f.jobs.countP (·.failedWith operation kind)) ∧
      value .conflicts = value (.failed .create .concurrentModification) +
        value (.failed .pay .concurrentModification) +
        value (.failed .cancel .concurrentModification) := by
  intro f value
  have hinv : f.Inv := Floor.inv_run Floor.inv_opening_empty hown
  have htallied : f.Tallied := Floor.tallied_run hown
  -- a counter of a status is raised by as many jobs as records have come to the status
  have hstatus : ∀ st : OrderStatus, value st.counter = f.store.reached st := fun st =>
    (htallied.counted st.counter).trans (htallied.stored st).symm
  have hfailed : ∀ operation kind,
      value (.failed operation kind) = f.jobs.countP (·.failedWith operation kind) := by
    intro operation kind
    simp only [value, htallied.counted, Job.raises_failed]
  refine ⟨hstatus .pending, hstatus .paid, hstatus .cancelled, hfailed, ?_⟩
  have hobserved : ∀ j ∈ f.jobs, j.lost = true → ∃ operation, j.command.operation? = some operation :=
    fun j hj hl => (hinv.course j hj).operation_of_lost hl
  have hlost := Floor.countP_lost hobserved
  rw [hfailed, hfailed, hfailed, ← hlost]
  simp only [value, htallied.counted, Job.raises_conflicts]

/-- In the race one order is created and paid, and the two that lost are counted as two conflicts. -/
theorem counters_agree_race :
    let value := ((Floor.opening .empty).run Floor.race).desk.counters.value
    (∀ m ∈ Floor.race, m.IsOwn) ∧ value .created = 1 ∧ value .paid = 1 ∧ value .cancelled = 0 ∧
      value (.failed .pay .concurrentModification) = 1 ∧ value .conflicts = 2 := by
  intro value
  obtain ⟨hcreated, hpaid, hcancelled, hfailed, hconflicts⟩ := counters_agree Floor.race (by decide)
  refine ⟨by decide, hcreated.trans (by decide), hpaid.trans (by decide),
    hcancelled.trans (by decide), (hfailed .pay _).trans (by decide), ?_⟩
  rw [hfailed, hfailed, hfailed] at hconflicts
  exact hconflicts.trans (by decide)

end OrderDesk
