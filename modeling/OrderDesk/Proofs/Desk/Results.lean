/-
# What finished payments and cancellations did

A payment that succeeds has read a waiting order, learned its method, been charged, and left the order
as paid with just that method and that transaction. A cancellation that succeeds has left the order as
cancelled, or found it so.

* `Course.payEnd` : the ways in which a payment ends;
* `Course.of_pay_succeeded` : the four exchanges of a payment that succeeded;
* `Course.of_cancel_succeeded` : the cancelled record that a cancellation saw;
* `Job.seen` : all records that a job read or left in the store.
-/
import OrderDesk.Proofs.Desk.Causes
import OrderDesk.Proofs.Desk.Copies

namespace OrderDesk

/-- A method that a name stands for has that name. -/
theorem PaymentMethod.name_of_supportedMethod {requested : String} {m : PaymentMethod}
    (h : supportedMethod requested = .ok m) : m.name = requested := by
  unfold supportedMethod at h
  split at h
  · rename_i k hk
    cases h
    obtain ⟨before, after, hnames, -⟩ := List.lookup_eq_some_iff.1 hk
    have hmem : (requested, m) ∈ PaymentMethod.names := by simp [hnames]
    obtain ⟨k, -, hpair⟩ := List.mem_map.1 hmem
    cases hpair
    rfl
  · cases h

/-! ## The ends of a payment -/

/-- The ways in which a payment ends: turned away by the record that it read, by the name of the
method, by the payment service or by another write, or accepted. -/
inductive PayEnd (id : OrderId) (requested : String) : List Exchange → Outcome → Prop
  | turnedAway {x : Exchange} {e : OrderError} :
      x.need = .record id → (∀ r, x.read? = some r → r.status ≠ .pending) →
      e.kind ≠ .concurrentModification → PayEnd id requested [x] (.error e)
  | unsupported {r : Order} {x y : Exchange} {e : OrderError} :
      x.read? = some r → r.status = .pending → y.need = .method requested → y.method? = none →
      e.kind ≠ .concurrentModification → PayEnd id requested [x, y] (.error e)
  | declined {r : Order} {m : PaymentMethod} {x y z : Exchange} {e : OrderError} :
      Prepared id requested r m x y → z.need = .charge r.user id m → z.payment? = none →
      e.kind ≠ .concurrentModification → PayEnd id requested [x, y, z] (.error e)
  | conflicted {r : Order} {m : PaymentMethod} {t : TransactionId} {x y z u : Exchange}
      {expected actual : Version} :
      Prepared id requested r m x y → z.payment? = some ⟨t, r.user, id, m⟩ →
      (∃ o v, u.need = .write o v) →
      PayEnd id requested [x, y, z, u] (.error (.concurrentModification id expected actual))
  | paid {r : Order} {m : PaymentMethod} {t : TransactionId} {x y z u : Exchange} {v : Version} :
      Prepared id requested r m x y → z.payment? = some ⟨t, r.user, id, m⟩ →
      u.written? = some { r with
        status := .paid, payment := some ⟨m, t⟩, updatedAt := z.draw.now, version := v } →
      PayEnd id requested [x, y, z, u] (.ok (.paid t))

/-- The error of a payment service is no conflict. -/
theorem kind_ofPayment (e : GatewayError) :
    (OrderError.ofPayment e).kind ≠ .concurrentModification := by
  cases e <;> simp [OrderError.ofPayment, OrderError.kind]

/-- A finished payment has ended in one of these ways. -/
theorem Course.payEnd {id : OrderId} {requested : String} {log : List Exchange} {o : Outcome}
    (h : Course (.pay id requested) log (.finished o)) : PayEnd id requested log o := by
  have hhonest := h.honest
  cases o with
  | ok receipt =>
      have hended := h.ended
      cases receipt with
      | paid t =>
          obtain ⟨p, before, u, v, ⟨r, m, _, x, y, z, hcommand, rfl, hread, hasked, hm, hp, hpay⟩,
            rfl, hw⟩ := hended
          cases hcommand
          obtain ⟨hstatus, rfl⟩ := Order.pay_eq_ok_iff.1 hpay
          exact .paid ⟨hread, rfl, hstatus, hasked, hm⟩ hp hw
      | _ => exact hended.suits.elim
  | error e =>
      cases h.cause with
      | @notFound _ _ x hsubject hneed ha =>
          cases hsubject
          have hnone : x.read? = none := by rw [Exchange.read?, hneed, ha]
          exact .turnedAway hneed (by simp [hnone]) (by simp [OrderError.kind])
      | alreadyPaid hchanges hread hstatus =>
          cases hchanges
          obtain ⟨hneed, -⟩ := Exchange.need_of_read? (hhonest _ List.mem_cons_self) hread
          exact .turnedAway hneed (by simp [hread, hstatus]) (by simp [OrderError.kind])
      | cancelled hread hstatus =>
          obtain ⟨hneed, -⟩ := Exchange.need_of_read? (hhonest _ List.mem_cons_self) hread
          exact .turnedAway hneed (by simp [hread, hstatus]) (by simp [OrderError.kind])
      | method hread hstatus hneed ha =>
          exact .unsupported hread hstatus hneed (by rw [Exchange.method?, hneed, ha])
            (kind_ofPayment _)
      | charge hprepared hneed ha =>
          exact .declined hprepared hneed (by rw [Exchange.payment?, hneed, ha]) (kind_ofPayment _)
      | conflict hunder hn hneed ha =>
          -- of the calls that write, a payment stands at one
          rcases need_eq_write hn with ⟨rfl, -⟩ | ⟨t, rfl, -⟩ | ⟨rfl, -⟩
          · obtain ⟨_, _, _, _, _, hcommand, -⟩ := hunder
            cases hcommand
          · obtain ⟨r, m, _, x, y, z, hcommand, rfl, hread, hasked, hm, hp, hpay⟩ := hunder
            cases hcommand
            obtain ⟨hstatus, rfl⟩ := Order.pay_eq_ok_iff.1 hpay
            exact .conflicted ⟨hread, rfl, hstatus, hasked, hm⟩ hp ⟨_, _, hneed⟩
          · obtain ⟨_, _, hcommand, -⟩ := hunder
            cases hcommand

/-- A payment that succeeded read a waiting order, and left it as paid by what it was told and charged.
-/
theorem Course.of_pay_succeeded {id : OrderId} {requested : String} {log : List Exchange}
    {receipt : Receipt} (h : Course (.pay id requested) log (.succeeded receipt)) :
    ∃ r m t x y z u v, receipt = .paid t ∧ log = [x, y, z, u] ∧ Prepared id requested r m x y ∧
      z.payment? = some ⟨t, r.user, id, m⟩ ∧
      u.written? = some { r with
        status := .paid, payment := some ⟨m, t⟩, updatedAt := z.draw.now, version := v } := by
  cases h.payEnd with
  | paid hprepared hp hw => exact ⟨_, _, _, _, _, _, _, _, rfl, rfl, hprepared, hp, hw⟩

/-! ## The ends of other commands -/

/-- A call that placed an order was told prices, and left the new order at the first version. -/
theorem Course.of_create_succeeded {user : UserId} {parts : List PartId} {log : List Exchange}
    {receipt : Receipt} (h : Course (.create user parts) log (.succeeded receipt)) :
    ∃ id total x y, receipt = .created id total ∧ log = [x, y] ∧
      x.need = .prices (Pricing.distinct parts) ∧
      y.written? = some
        ⟨id, user, parts, total, .pending, none, .first, x.draw.now, x.draw.now⟩ := by
  have hended := h.ended
  cases receipt with
  | created id total =>
      obtain ⟨o, _, y, v, ⟨_, _, x, _, _, hcommand, rfl, hneed, -, -, hplace⟩, rfl, hw, rfl, rfl⟩ :=
        hended
      cases hcommand
      obtain ⟨-, -, rfl⟩ := Order.place_eq_ok_iff.1 hplace
      have hv : v = .first := by
        obtain ⟨_, d, p, expected, -, hunder, hwrite, hsame⟩ := h.underway_of_written? (by simp) hw
        rcases hunder.of_need_write hwrite with ⟨rfl, -⟩ | ⟨_, _, _, -, -, hchanges, -⟩
        · exact congrArg Order.version hsame
        · cases hchanges
      rw [hv] at hw
      exact ⟨_, _, x, y, rfl, rfl, hneed, hw⟩
  | _ => exact hended.suits.elim

/-- A call that cancelled an order has read it waiting, and left just what it tells; one that found it
cancelled tells what it has read. -/
theorem Course.of_cancelled {id : OrderId} {log : List Exchange} {receipt : Receipt}
    (h : Course (.cancel id) log (.succeeded receipt)) :
    ∃ o changed x r, receipt = .cancelled o changed ∧ x ∈ log ∧ x.read? = some r ∧ r.id = id ∧
      o.status = .cancelled ∧
      match changed with
      | false => log = [x] ∧ o = r
      | true => ∃ y v, log = [x, y] ∧ y.written? = some o ∧
          o = { r with status := .cancelled, updatedAt := x.draw.now, version := v } := by
  have hended := h.ended
  cases receipt with
  | cancelled o changed =>
      cases changed with
      | false =>
          obtain ⟨x, hcommand, rfl, hread, hstatus⟩ := hended
          cases hcommand
          exact ⟨o, false, x, o, rfl, by simp, hread, rfl, hstatus, rfl, rfl⟩
      | true =>
          obtain ⟨p, _, y, v, ⟨r, x, hcommand, rfl, hread, hcancel⟩, rfl, hw, rfl⟩ := hended
          cases hcommand
          obtain ⟨-, rfl⟩ := Order.cancel_eq_ok_some_iff.1 hcancel
          exact ⟨_, true, x, r, rfl, by simp, hread, rfl, rfl, y, v, rfl, hw, rfl⟩
  | _ => exact hended.suits.elim

/-- A cancellation that succeeded gives the cancelled record that it left or found. -/
theorem Course.of_cancel_succeeded {id : OrderId} {log : List Exchange} {receipt : Receipt}
    (h : Course (.cancel id) log (.succeeded receipt)) :
    ∃ o changed, receipt = .cancelled o changed ∧ o.id = id ∧ o.status = .cancelled ∧
      ∃ x ∈ log, x.read? = some o ∨ x.written? = some o := by
  obtain ⟨o, changed, x, r, rfl, hx, hread, hid, hstatus, hend⟩ := h.of_cancelled
  cases changed with
  | false =>
      obtain ⟨-, rfl⟩ := hend
      exact ⟨o, false, rfl, hid, hstatus, x, hx, Or.inl hread⟩
  | true =>
      obtain ⟨y, v, rfl, hw, rfl⟩ := hend
      exact ⟨_, true, rfl, hid, hstatus, y, by simp, Or.inr hw⟩

/-! ## Jobs and their results -/

namespace Job

/-- The records that a job saw in the store: those it read and those it left there. -/
def seen (j : Job) : List Order :=
  j.reads ++ j.writes

/-- Whether a job succeeded. -/
def succeeded (j : Job) : Bool :=
  match j.call with
  | .succeeded _ => true
  | _ => false

/-- Whether a job is a payment of an order that succeeded. -/
def paid (j : Job) (id : OrderId) : Bool :=
  match j.command, j.call with
  | .pay order _, .succeeded _ => order = id
  | _, _ => false

/-- Whether a job is a cancellation of an order that succeeded. -/
def cancelled (j : Job) (id : OrderId) : Bool :=
  match j.command, j.call with
  | .cancel order, .succeeded _ => order = id
  | _, _ => false

theorem succeeded_iff {j : Job} : j.succeeded = true ↔ ∃ receipt, j.call = .succeeded receipt := by
  unfold succeeded
  constructor
  · intro h
    split at h
    · rename_i receipt hcall
      exact ⟨receipt, hcall⟩
    · cases h
  · rintro ⟨receipt, hcall⟩
    rw [hcall]

theorem not_succeeded_of_need {j : Job} {n : Need} (h : j.call.need = some n) :
    j.succeeded = false := by
  rw [Bool.eq_false_iff, ne_eq, succeeded_iff]
  rintro ⟨receipt, hcall⟩
  rw [hcall] at h
  cases h

theorem not_succeeded_start (command : Command) :
    succeeded ⟨command, Call.start command, []⟩ = false := by
  cases command with
  | create user parts =>
      by_cases hparts : parts = []
      · simp [succeeded, Call.start, hparts]
      · simp [succeeded, Call.start, hparts]
  | _ => rfl

theorem paid_iff {j : Job} {id : OrderId} :
    j.paid id = true ↔ ∃ requested receipt, j.command = .pay id requested ∧
      j.call = .succeeded receipt := by
  unfold paid
  constructor
  · intro h
    split at h
    · rename_i order requested receipt hcommand hcall
      obtain rfl : order = id := of_decide_eq_true h
      exact ⟨requested, receipt, hcommand, hcall⟩
    · cases h
  · rintro ⟨requested, receipt, hcommand, hcall⟩
    simp [hcommand, hcall]

theorem cancelled_iff {j : Job} {id : OrderId} :
    j.cancelled id = true ↔ ∃ receipt, j.command = .cancel id ∧ j.call = .succeeded receipt := by
  unfold cancelled
  constructor
  · intro h
    split at h
    · rename_i order receipt hcommand hcall
      obtain rfl : order = id := of_decide_eq_true h
      exact ⟨receipt, hcommand, hcall⟩
    · cases h
  · rintro ⟨receipt, hcommand, hcall⟩
    simp [hcommand, hcall]

end Job

end OrderDesk
