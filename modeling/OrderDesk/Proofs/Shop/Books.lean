/-
# The books of the shop

What the payment service has recorded and counted, set against what the tasks in the hall have done.
Every recorded payment was made for one job, and every charge that was noticed belongs to one task.

* `Job.payments` : the payments made for a job;
* `Task.charged` : the tasks whose charge has come to the payment service;
* `Hall.Books` : the invariant;
* `Hall.books_run` : it holds along every run.
-/
import OrderDesk.Proofs.Desk.Settled
import OrderDesk.Proofs.Shop.Hall

namespace OrderDesk

/-! ## Payments and charges -/

/-- The payments made for a job. -/
def Job.payments (j : Job) : List Payment :=
  j.log.filterMap Exchange.payment?

/-- Whether a need is a charge. -/
def Need.isCharge : Need → Bool
  | .charge .. => true
  | _ => false

/-- Whether a job has been answered about a charge. -/
def Job.answered (j : Job) : Bool :=
  j.log.any (·.need.isCharge)

/-- Whether the charge of a task has come to the payment service. -/
def Task.charged (t : Task) : Bool :=
  t.job.answered || (t.ticket.isSome && t.job.call.need.any Need.isCharge)

theorem Job.payments_next (j : Job) (x : Exchange) :
    (j.next x).payments = j.payments ++ x.payment?.toList := by
  cases h : x.payment? <;> simp [payments, h]

/-- A call that needs a charge has not been answered about one. -/
theorem Underway.answered_eq_false {command : Command} {log : List Exchange} {c : Call}
    {user : UserId} {order : OrderId} {m : PaymentMethod} (h : Underway command log c)
    (hn : c.need = some (.charge user order m)) : log.any (·.need.isCharge) = false := by
  cases c with
  | charging r k =>
      obtain ⟨requested, x, y, -, rfl, hread, -, hasked, -⟩ := h
      have hx : x.need.isCharge = false := by
        cases hneed : x.need with
        | charge => simp [Exchange.read?, hneed] at hread
        | _ => rfl
      have hy : y.need.isCharge = false := by rw [hasked]; rfl
      simp [hx, hy]
  | _ => cases hn

namespace Task

/-- A task that does not wait is charged if it has been answered about a charge. -/
theorem charged_none (j : Job) : charged ⟨j, none⟩ = j.answered := by
  simp [charged]

/-- A task that waits is charged besides if it needs a charge. -/
theorem charged_some {j : Job} {n : Need} (hn : j.call.need = some n) (k : Ticket) :
    charged ⟨j, some k⟩ = (j.answered || n.isCharge) := by
  simp [charged, hn]

end Task

/-- Replacing one member of a list by one that has more adds that to what all members have. -/
theorem flatMap_set_perm {α β : Type} {l : List α} {i : Nat} {a b : α} {f : α → List β} {ys : List β}
    (h : l[i]? = some a) (hb : f b = f a ++ ys) : ((l.set i b).flatMap f).Perm (l.flatMap f ++ ys) := by
  induction l generalizing i with
  | nil => cases h
  | cons c rest ih =>
      cases i with
      | zero =>
          obtain rfl : c = a := Option.some.inj h
          rw [List.set_cons_zero, List.flatMap_cons, List.flatMap_cons, hb, List.append_assoc,
            List.append_assoc]
          exact List.Perm.append_left _ List.perm_append_comm
      | succ n =>
          rw [List.set_cons_succ, List.flatMap_cons, List.flatMap_cons, List.append_assoc]
          exact List.Perm.append_left _ (ih h)

namespace Hall

/-- The floor of the hall is in order, only tasks that need a service wait, methods are what their names
stand for, the recorded payments are those made for the jobs, and the charges that came to the payment
service are those of the tasks. -/
structure Books (h : Hall) : Prop where
  inv : h.floor.Inv
  settled : h.floor.Settled
  waiting : h.Waiting
  methods : ∀ j ∈ h.jobs, ∀ x ∈ j.log, ∀ requested, x.need = .method requested →
    x.answer = .method (supportedMethod requested)
  recorded : h.shop.payments.recorded.Perm (h.jobs.flatMap Job.payments)
  calls : h.shop.payments.calls = h.tasks.countP Task.charged

theorem books_opening (inventory : Inventory) (deadline : Option Span) (random : Nat → BitVec 128)
    (clock : Nat → Instant) : (opening inventory deadline random clock).Books where
  inv := Floor.inv_opening_empty
  settled := Floor.settled_opening
  waiting := by simp [Waiting, opening]
  methods := by simp [jobs, opening]
  recorded := List.Perm.nil
  calls := rfl

theorem floor_ask (h : Hall) (command : Command) :
    (h.ask command).floor = h.floor.step (.ask command) := by
  simp [floor, jobs, ask, Shop.start, Floor.step, Floor.ask]

/-- A new task has been answered nothing and charged for nothing. -/
theorem books_ask {h : Hall} (hb : h.Books) (command : Command) : (h.ask command).Books := by
  have htasks : (h.ask command).tasks =
      h.tasks ++ [⟨⟨command, Call.start command, []⟩, none⟩] := rfl
  have hjobs : (h.ask command).jobs = h.jobs ++ [⟨command, Call.start command, []⟩] := by
    simp [jobs, htasks]
  constructor
  · rw [floor_ask]
    exact Floor.inv_step hb.inv trivial
  · rw [floor_ask]
    exact Floor.settled_step hb.inv hb.settled trivial
  · intro t ht hticket
    rw [htasks] at ht
    rcases List.mem_append.1 ht with ht | ht
    · exact hb.waiting t ht hticket
    · rw [List.mem_singleton.1 ht] at hticket
      exact absurd rfl hticket
  · intro j hj x hx
    rw [hjobs] at hj
    rcases List.mem_append.1 hj with hj | hj
    · exact hb.methods j hj x hx
    · rw [List.mem_singleton.1 hj] at hx
      cases hx
  · have hrecorded : (h.ask command).shop.payments.recorded = h.shop.payments.recorded := rfl
    rw [hjobs, List.flatMap_append, hrecorded]
    simpa [Job.payments] using hb.recorded
  · have hcalls : (h.ask command).shop.payments.calls = h.shop.payments.calls := rfl
    rw [htasks, List.countP_append, hcalls]
    simpa [Task.charged, Job.answered] using hb.calls

/-- A task that is noticed by a service waits for it; a charge is counted. -/
theorem books_consult {h : Hall} (hb : h.Books) {i : Nat} {j : Job} {shop : Shop} {ticket : Ticket}
    (htask : h.tasks[i]? = some ⟨j, none⟩) (hconsult : h.shop.consult? j.call = some (shop, ticket)) :
    Books { h with shop, tasks := h.tasks.set i ⟨j, some ticket⟩ } := by
  have hj : j ∈ h.jobs := List.mem_map.2 ⟨_, List.mem_of_getElem? htask, rfl⟩
  have hdesk : shop.desk = h.shop.desk ∧
      shop.payments.recorded = h.shop.payments.recorded := by
    unfold Shop.consult? at hconsult
    split at hconsult <;> cases hconsult <;> exact ⟨rfl, rfl⟩
  have hconsults : j.call.consults = true := by
    unfold Shop.consult? at hconsult
    unfold Call.consults
    split at hconsult <;> simp_all
  have hjobs : (h.tasks.set i ⟨j, some ticket⟩).map Task.job = h.jobs := by
    rw [List.map_set]
    apply List.ext_getElem?
    intro n
    by_cases hn : i = n
    · subst hn
      have hi : i < (h.tasks.map Task.job).length := by
        simpa using (List.getElem?_eq_some_iff.1 htask).1
      rw [List.getElem?_set_self hi]
      simp [jobs, htask]
    · rw [List.getElem?_set_ne hn, jobs]
  have hfloor : floor { h with shop, tasks := h.tasks.set i ⟨j, some ticket⟩ } = h.floor := by
    simp only [floor, jobs, hdesk.1]
    rw [hjobs, jobs]
  constructor
  · rw [hfloor]
    exact hb.inv
  · rw [hfloor]
    exact hb.settled
  · intro t ht hticket
    rcases List.mem_or_eq_of_mem_set ht with ht | rfl
    · exact hb.waiting t ht hticket
    · exact hconsults
  · simp only [jobs]
    rw [hjobs]
    exact hb.methods
  · simp only [jobs]
    rw [hjobs, hdesk.2]
    exact hb.recorded
  · have hcount := countP_set_of_getElem? htask ⟨j, some ticket⟩ Task.charged
    have hcalls := hb.calls
    have hcourse := hb.inv.course j hj
    rw [Task.charged_none] at hcount
    unfold Shop.consult? at hconsult
    split at hconsult
    · rename_i ids hn
      cases hconsult
      rw [Task.charged_some hn, show (Need.prices ids).isCharge = false from rfl, Bool.or_false]
        at hcount
      simp only
      omega
    · rename_i user order m hn
      cases hconsult
      -- a charge comes to the payment service once for each task
      have hno : j.answered = false := (hcourse.underway (by simp [hn])).answered_eq_false hn
      rw [Task.charged_some hn, hno, show (Need.charge user order m).isCharge = true from rfl] at hcount
      simp only [Payments.arrive]
      simp only [Bool.false_eq_true, if_false, Bool.or_true, if_true] at hcount
      omega
    · cases hconsult

/-- A task that goes on adds the payment made for it to the record, and its charge stays counted. -/
theorem books_noted {h g : Hall} (hb : h.Books) {i : Nat} {j : Job} {k : Option Ticket} {x : Exchange}
    (hn : Noted h i j k x g) : g.Books := by
  have hjobs : g.jobs = h.jobs.set i (j.next x) := by
    rw [jobs, hn.tasks, List.map_set, jobs]
  have hjob : h.jobs[i]? = some j := by
    simp [jobs, hn.task]
  obtain ⟨draw, outside, hmove⟩ := hn.move
  have hfloor : g.floor = h.floor.step (.advance i draw outside) := hmove
  constructor
  · rw [hfloor]
    exact Floor.inv_step hb.inv trivial
  · rw [hfloor]
    exact Floor.settled_step hb.inv hb.settled trivial
  · intro t ht hticket
    rw [hn.tasks] at ht
    rcases List.mem_or_eq_of_mem_set ht with ht | rfl
    · exact hb.waiting t ht hticket
    · exact absurd rfl hticket
  · intro l hl y hy
    rw [hjobs] at hl
    rcases List.mem_or_eq_of_mem_set hl with hl | rfl
    · exact hb.methods l hl y hy
    · rcases List.mem_append.1 hy with hy | hy
      · exact hb.methods j (List.mem_of_getElem? hjob) y hy
      · rw [List.mem_singleton.1 hy]
        exact hn.method
  · rw [hn.recorded, hjobs]
    have hmore := flatMap_set_perm hjob (Job.payments_next j x)
    exact (hb.recorded.append_right _).trans hmore.symm
  · have hcount := countP_set_of_getElem? hn.task
      ⟨j.next x, none⟩ Task.charged
    have hsame : Task.charged ⟨j.next x, none⟩ =
        Task.charged ⟨j, k⟩ := by
      have hneed := hn.turn.need
      have hanswered : (j.next x).answered =
          (j.answered || x.need.isCharge) := by
        simp [Job.answered]
      rw [Task.charged_none, hanswered]
      cases k with
      | some ticket => rw [Task.charged_some hneed]
      | none =>
          -- only a task with a ticket is answered about a charge
          have hno : x.need.isCharge = false := by
            rw [Bool.eq_false_iff]
            intro hcharge
            apply hn.waited _ rfl
            rw [Call.consults, hneed]
            cases hx : x.need <;> simp_all [Need.isCharge]
          rw [Task.charged_none, hno, Bool.or_false]
    rw [hsame] at hcount
    rw [hn.tasks, hn.calls, hb.calls]
    omega

theorem books_step {h : Hall} (hb : h.Books) (e : Event) : (h.step e).Books := by
  rcases step_cases hb.waiting e with ⟨shop, hsame, hdesk, hrecorded, hcalls⟩ | ⟨command, hask⟩ |
    ⟨i, j, shop, ticket, htask, hconsult, hstep⟩ | ⟨i, j, k, x, hnoted⟩
  · have hfloor : floor { h with shop } = h.floor := by
      simp only [floor, jobs, hdesk]
    rw [hsame]
    refine ⟨by rw [hfloor]; exact hb.inv, by rw [hfloor]; exact hb.settled, hb.waiting, hb.methods,
      ?_, ?_⟩
    · simp only [hrecorded]
      exact hb.recorded
    · simp only [hcalls]
      exact hb.calls
  · rw [hask]
    exact books_ask hb command
  · rw [hstep]
    exact books_consult hb htask hconsult
  · exact books_noted hb hnoted

/-- The books are in order along every run. -/
theorem books_run {h : Hall} (hb : h.Books) (events : List Event) : (h.run events).Books := by
  induction events generalizing h with
  | nil => exact hb
  | cons e rest ih => exact ih (books_step hb e)

end Hall

end OrderDesk
