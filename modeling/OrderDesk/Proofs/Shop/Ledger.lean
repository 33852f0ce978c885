/-
# The ledger of charges

Whenever no payment is at work, every recorded charge is accounted for: it stands behind a paid order,
or behind a payment that came too late for its order. Declined charges, deadlines and all other
failures leave no record, and the payment service has noticed exactly the charges that were due.

* `Hall.Quiet` : no payment is at work;
* `charge_ledger` : the accounts of the shop.
-/
import Mathlib.Data.List.Nodup
import OrderDesk.Proofs.Shop.Charges

namespace OrderDesk

/-! ## Payments in the hall -/

namespace Job

/-- Whether a job is a payment. -/
def isPay (j : Job) : Bool :=
  match j.command with
  | .pay .. => true
  | _ => false

/-- Whether a job is a payment that succeeded. -/
def accepted (j : Job) : Bool :=
  match j.command, j.call with
  | .pay .., .succeeded _ => true
  | _, _ => false

/-- Whether a job is a payment that another write came before. -/
def conflicted (j : Job) : Bool :=
  match j.command, j.call with
  | .pay .., .failed (.concurrentModification ..) => true
  | _, _ => false

/-- Whether a job is a payment that read a waiting order and named a method that there is. -/
def eligible (j : Job) : Bool :=
  match j.command with
  | .pay _ requested => j.reads.any (·.status = .pending) && (supportedMethod requested).isOk
  | _ => false

end Job

/-- No payment is at work. -/
def Hall.Quiet (h : Hall) : Prop :=
  ∀ j ∈ h.jobs, j.isPay = true → j.call.need = none

instance (h : Hall) : Decidable h.Quiet :=
  inferInstanceAs (Decidable (∀ j ∈ h.jobs, j.isPay = true → j.call.need = none))

/-- What has as many members as two kinds it is of, counted over a list. -/
theorem length_flatMap_of_kinds {α β : Type} {l : List α} {f : α → List β} {p q : α → Bool}
    (h : ∀ a ∈ l, (f a).length = (if p a then 1 else 0) + if q a then 1 else 0) :
    (l.flatMap f).length = l.countP p + l.countP q := by
  induction l with
  | nil => rfl
  | cons a rest ih =>
      have ha := h a List.mem_cons_self
      have hrest := ih fun b hb => h b (List.mem_cons_of_mem a hb)
      rw [List.flatMap_cons, List.length_append, List.countP_cons, List.countP_cons]
      omega

namespace Job

variable {j : Job}

theorem payments_eq_nil (hc : Course j.command j.log j.call) (hpay : j.isPay = false) :
    j.payments = [] := by
  rw [payments, List.filterMap_eq_nil_iff]
  intro x hx
  apply Exchange.payment?_eq_none
  rw [Bool.eq_false_iff]
  intro hcharge
  obtain ⟨id, requested, hcommand⟩ := hc.pay_of_isCharge hx hcharge
  rw [isPay, hcommand] at hpay
  cases hpay

/-- A payment that is over has ended in one of the ways there are. -/
theorem exists_payEnd (hc : Course j.command j.log j.call) (hpay : j.isPay = true)
    (hdone : j.call.need = none) :
    ∃ id requested o, j.command = .pay id requested ∧ j.call = .finished o ∧
      PayEnd id requested j.log o := by
  cases hcommand : j.command with
  | pay id requested =>
      cases hcall : j.call with
      | finished o =>
          rw [hcommand, hcall] at hc
          exact ⟨id, requested, o, rfl, rfl, hc.payEnd⟩
      | _ =>
          rw [hcall] at hdone
          cases hdone
  | _ =>
      rw [isPay, hcommand] at hpay
      cases hpay

/-- A payment that is over was paid once if it succeeded or came too late, and not at all otherwise. -/
theorem length_payments (hc : Course j.command j.log j.call)
    (hquiet : j.isPay = true → j.call.need = none) :
    j.payments.length = (if j.accepted then 1 else 0) + if j.conflicted then 1 else 0 := by
  cases hpay : j.isPay with
  | false =>
      rw [payments_eq_nil hc hpay]
      cases hcommand : j.command with
      | pay id requested =>
          rw [isPay, hcommand] at hpay
          cases hpay
      | _ => simp [accepted, conflicted, hcommand]
  | true =>
      obtain ⟨id, requested, o, hcommand, hcall, hend⟩ := exists_payEnd hc hpay (hquiet hpay)
      rcases hend.payments with ⟨p, hp, -, ⟨receipt, rfl⟩ | ⟨expected, actual, rfl⟩⟩ |
        ⟨hp, e, rfl, hkind⟩
      · simp [payments, hp, accepted, conflicted, hcommand, hcall]
      · simp [payments, hp, accepted, conflicted, hcommand, hcall]
      · have hno : j.conflicted = false := by
          unfold conflicted
          rw [hcommand, hcall]
          cases e <;> first | rfl | exact absurd rfl hkind
        simp [payments, hp, accepted, hno, hcommand, hcall]

end Job

namespace Hall

variable {h : Hall}

theorem course (hb : h.Books) {j : Job} (hj : j ∈ h.jobs) : Course j.command j.log j.call :=
  hb.inv.course j hj

/-- The charge of a paid order is recorded. -/
theorem recorded_of_paid (hb : h.Books) {id : OrderId} {o : Order}
    (ho : h.shop.desk.store.get? id = some o) (hstatus : o.status = .paid) :
    ∃ m t, o.payment = some ⟨m, t⟩ ∧ ⟨t, o.user, o.id, m⟩ ∈ h.shop.payments.recorded := by
  obtain ⟨j, hj, hw⟩ := hb.settled.origin id o ho
  obtain ⟨x, hx, hx'⟩ := List.mem_filterMap.1 hw
  obtain ⟨m, t, hpayment, hmem⟩ := (course hb hj).payment_of_written? hx hx' hstatus
  exact ⟨m, t, hpayment, hb.recorded.mem_iff.2 (List.mem_flatMap.2 ⟨j, hj, hmem⟩)⟩

/-- An order with a payment is paid. -/
theorem paid_of_payment (hb : h.Books) {id : OrderId} {o : Order} {d : PaymentDetails}
    (ho : h.shop.desk.store.get? id = some o) (hd : o.payment = some d) : o.status = .paid := by
  by_cases hstatus : o.status = .paid
  · exact hstatus
  · have hnone := hb.settled.unpaid id o ho hstatus
    rw [hnone] at hd
    cases hd

/-- No two orders share a charge. -/
theorem eq_of_transaction (hb : h.Books)
    (hdistinct : (h.shop.payments.recorded.map Payment.transaction).Nodup) {id id' : OrderId}
    {o o' : Order} {d d' : PaymentDetails} (ho : h.shop.desk.store.get? id = some o)
    (ho' : h.shop.desk.store.get? id' = some o') (hd : o.payment = some d)
    (hd' : o'.payment = some d') (heq : d.transaction = d'.transaction) : o = o' := by
  obtain ⟨m, t, hpayment, hmem⟩ := recorded_of_paid hb ho (paid_of_payment hb ho hd)
  obtain ⟨m', t', hpayment', hmem'⟩ := recorded_of_paid hb ho' (paid_of_payment hb ho' hd')
  rw [hpayment] at hd
  rw [hpayment'] at hd'
  cases hd
  cases hd'
  have hsame := List.inj_on_of_nodup_map hdistinct hmem hmem' heq
  have hid : o.id = o'.id := congrArg Payment.order hsame
  rw [Store.id_of_get? ho, Store.id_of_get? ho'] at hid
  rw [hid, ho'] at ho
  exact (Option.some.inj ho).symm

/-- A charge that no order stands for was made for a payment that came too late. -/
theorem conflicted_of_recorded (hb : h.Books) (hquiet : h.Quiet) {p : Payment}
    (hp : p ∈ h.shop.payments.recorded)
    (hnone : ∀ id o d, h.shop.desk.store.get? id = some o → o.payment = some d →
      d.transaction ≠ p.transaction) :
    ∃ j ∈ h.jobs, p ∈ j.payments ∧ ∃ requested expected actual,
      j.command = .pay p.order requested ∧
        j.call = .failed (.concurrentModification p.order expected actual) := by
  obtain ⟨j, hj, hmem⟩ := List.mem_flatMap.1 (hb.recorded.mem_iff.1 hp)
  have hc := course hb hj
  have hpay : j.isPay = true := by
    by_contra hno
    rw [Job.payments_eq_nil hc (Bool.eq_false_iff.2 hno)] at hmem
    cases hmem
  obtain ⟨id, requested, o, hcommand, hcall, hend⟩ := Job.exists_payEnd hc hpay (hquiet j hj hpay)
  rcases hend.payments with ⟨q, hq, hid, ⟨receipt, rfl⟩ | ⟨expected, actual, rfl⟩⟩ | ⟨hnil, -⟩
  · -- a payment that succeeded left its order as paid, and there it still is
    exfalso
    obtain ⟨r, m, t, x, y, z, v, -, -, -, hz, hpayment, hget⟩ :=
      Floor.get?_of_pay_succeeded hb.inv hb.settled hj hcommand hcall
    have hmade : ⟨t, r.user, id, m⟩ ∈ j.log.filterMap Exchange.payment? :=
      List.mem_filterMap.2 ⟨z, hz, hpayment⟩
    rw [Job.payments, hq, List.mem_singleton] at hmem
    rw [hq, List.mem_singleton] at hmade
    refine hnone id _ _ hget rfl ?_
    rw [hmem, ← hmade]
  · rw [Job.payments, hq, List.mem_singleton] at hmem
    subst hmem
    subst hid
    refine ⟨j, hj, ?_, requested, expected, actual, hcommand, hcall⟩
    rw [Job.payments, hq]
    exact List.mem_singleton_self p
  · rw [Job.payments, hnil] at hmem
    cases hmem

/-- As many charges are recorded as payments succeeded or came too late. -/
theorem length_recorded (hb : h.Books) (hquiet : h.Quiet) :
    h.shop.payments.recorded.length = h.jobs.countP Job.accepted + h.jobs.countP Job.conflicted := by
  rw [hb.recorded.length_eq]
  exact length_flatMap_of_kinds fun j hj => Job.length_payments (course hb hj) (hquiet j hj)

/-- A task was charged for exactly if it is a payment that read a waiting order and named a method. -/
theorem charged_eq_eligible (hb : h.Books) (hquiet : h.Quiet) {t : Task} (ht : t ∈ h.tasks) :
    t.charged = t.job.eligible := by
  have hj : t.job ∈ h.jobs := List.mem_map_of_mem ht
  have hc := course hb hj
  cases hpay : t.job.isPay with
  | true =>
      have hdone := hquiet t.job hj hpay
      obtain ⟨id, requested, o, hcommand, -, hend⟩ := Job.exists_payEnd hc hpay hdone
      have hanswered := hend.answered_eq (hb.methods t.job hj)
      simp only [Task.charged, Job.answered, hdone, Option.any_none, Bool.and_false, Bool.or_false,
        Job.eligible, hcommand, Job.reads]
      exact hanswered
  | false =>
      have hno : ∀ id requested, t.job.command ≠ .pay id requested := by
        intro id requested hcommand
        rw [Job.isPay, hcommand] at hpay
        cases hpay
      have hanswered : t.job.answered = false := by
        rw [Job.answered, List.any_eq_false]
        intro x hx hcharge
        obtain ⟨id, requested, hcommand⟩ := hc.pay_of_isCharge hx hcharge
        exact hno id requested hcommand
      have hneed : t.job.call.need.any Need.isCharge = false := by
        rw [Bool.eq_false_iff]
        intro hany
        obtain ⟨n, hn, hcharge⟩ := (Option.any_eq_true _ _).1 hany
        obtain ⟨id, requested, hcommand⟩ := (hc.underway (by simp [hn])).pay_of_isCharge hn hcharge
        exact hno id requested hcommand
      have heligible : t.job.eligible = false := by
        unfold Job.eligible
        split
        · rename_i id requested hcommand
          exact absurd hcommand (hno id requested)
        · rfl
      rw [Task.charged, hanswered, hneed, heligible, Bool.and_false, Bool.or_false]

/-- The payment service has noticed as many charges as were due. -/
theorem calls_eq (hb : h.Books) (hquiet : h.Quiet) :
    h.shop.payments.calls = h.jobs.countP Job.eligible := by
  rw [hb.calls, jobs, List.countP_map]
  apply List.countP_congr
  intro t ht
  rw [charged_eq_eligible hb hquiet ht, Function.comp_apply]

end Hall

/-! ## The accounts -/

/-- In every run of the shop, from its opening and with any services, deadline and switches, and
whenever no payment is at work, if all recorded transactions are different: the charge of every paid
order is recorded with its user and its method, and no two orders share one; a recorded charge that no
order stands for was made for a payment that came too late; every recorded charge was made for one job,
there are as many as payments succeeded or came too late, and no other payment was charged; and the
payment service was called once for every payment that read a waiting order and named a method that
there is. -/
theorem charge_ledger (inventory : Inventory) (deadline : Option Span) (random : Nat → BitVec 128)
    (clock : Nat → Instant) (events : List Event) :
    let h := (Hall.opening inventory deadline random clock).run events
    let recorded := h.shop.payments.recorded
    let stored := h.shop.desk.store.get?
    h.Quiet → (recorded.map Payment.transaction).Nodup →
    ((∀ id o, stored id = some o → o.status = .paid →
        ∃ m t, o.payment = some ⟨m, t⟩ ∧ ⟨t, o.user, o.id, m⟩ ∈ recorded) ∧
      ∀ id id' o o' d d', stored id = some o → stored id' = some o' → o.payment = some d →
        o'.payment = some d' → d.transaction = d'.transaction → o = o') ∧
    (∀ p ∈ recorded,
      (∀ id o d, stored id = some o → o.payment = some d → d.transaction ≠ p.transaction) →
      ∃ j ∈ h.jobs, p ∈ j.payments ∧ ∃ requested expected actual,
        j.command = .pay p.order requested ∧
          j.call = .failed (.concurrentModification p.order expected actual)) ∧
    (recorded.Perm (h.jobs.flatMap Job.payments) ∧
      recorded.length = h.jobs.countP Job.accepted + h.jobs.countP Job.conflicted ∧
      ∀ j ∈ h.jobs, j.accepted = false → j.conflicted = false → j.payments = []) ∧
    h.shop.payments.calls = h.jobs.countP Job.eligible := by
  intro h recorded stored hquiet hdistinct
  have hb : h.Books := Hall.books_run (Hall.books_opening inventory deadline random clock) events
  refine ⟨⟨fun id o ho hstatus => Hall.recorded_of_paid hb ho hstatus, ?_⟩,
    fun p hp hnone => Hall.conflicted_of_recorded hb hquiet hp hnone,
    ⟨hb.recorded, Hall.length_recorded hb hquiet, ?_⟩, Hall.calls_eq hb hquiet⟩
  · intro id id' o o' d d' ho ho' hd hd' heq
    exact Hall.eq_of_transaction hb hdistinct ho ho' hd hd' heq
  · intro j hj haccepted hconflicted
    have hlength := Job.length_payments (Hall.course hb hj) (hquiet j hj)
    rw [haccepted, hconflicted] at hlength
    exact List.length_eq_zero_iff.1 hlength

/-- An opening with a short deadline, where the identifiers drawn are those of the first numbers. -/
def Hall.rushOpening : Hall :=
  opening (.seeded Floor.raceDraw.now) (some (.ofMillis 5)) (BitVec.ofNat 128)
    fun _ => Floor.raceDraw.now

/-- The order that the rush is about. -/
def Hall.rushOrder : OrderId :=
  ⟨Uuid.ofRandom 0⟩

/-- An order is placed, and four payments read it: the first two are charged for, the third reaches the
deadline, and the fourth names no method. -/
def Hall.rush : List Event :=
  [.ask (.create ⟨⟨1#128⟩⟩ [quantumShieldId]), .goOn 0, .deliver 0, .goOn 0,
    .ask (.pay rushOrder "CARD"), .ask (.pay rushOrder "SBP"), .ask (.pay rushOrder "CARD"),
    .ask (.pay rushOrder "CASH"), .goOn 1, .goOn 2, .goOn 3, .goOn 4,
    .goOn 1, .goOn 2, .goOn 3, .goOn 4, .goOn 1, .goOn 2, .goOn 3,
    .deliver 1, .deliver 2, .expire 3, .goOn 1, .goOn 2]

/-- After the rush the order is paid and its charge recorded; one more charge is recorded, for the
payment that came too late; and the payment service was called three times. -/
theorem charge_ledger_rush :
    let h := Hall.rushOpening.run Hall.rush
    let recorded := h.shop.payments.recorded
    (∃ o m t, h.shop.desk.store.get? Hall.rushOrder = some o ∧ o.payment = some ⟨m, t⟩ ∧
        ⟨t, o.user, o.id, m⟩ ∈ recorded) ∧
      (recorded.length = 2 ∧ h.jobs.countP Job.conflicted = 1 ∧
        recorded.length = h.jobs.countP Job.accepted + h.jobs.countP Job.conflicted) ∧
      h.shop.payments.calls = 3 := by
  obtain ⟨⟨hpaid, -⟩, -, ⟨-, hlength, -⟩, hcalls⟩ :=
    charge_ledger (.seeded Floor.raceDraw.now) (some (.ofMillis 5)) (BitVec.ofNat 128)
      (fun _ => Floor.raceDraw.now) Hall.rush (by decide +kernel) (by decide +kernel)
  refine ⟨?_, ⟨by decide +kernel, by decide +kernel, hlength⟩, hcalls.trans (by decide +kernel)⟩
  have hstored : ((Hall.rushOpening.run Hall.rush).shop.desk.store.get? Hall.rushOrder).any
      (·.status = .paid) = true := by
    decide +kernel
  obtain ⟨o, ho, hstatus⟩ := (Option.any_eq_true _ _).1 hstored
  obtain ⟨m, t, hpayment, hmem⟩ := hpaid Hall.rushOrder o ho (of_decide_eq_true hstatus)
  exact ⟨o, m, t, ho, hpayment, hmem⟩

end OrderDesk
