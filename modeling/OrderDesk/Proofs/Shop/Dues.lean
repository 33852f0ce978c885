/-
# Payments that are due

A customer is charged exactly if there is a record that waits for its payment and the requested method is
one by its exact name, as the payment finds them, and then once, for just that record. Everything else
turns the payment away before anybody is charged.

* `Store.Due`, `Store.Forbids` : the payments that come to a charge, and why the others do not;
* `Floor.checked_served`, `Floor.updatedPaid_served` : the first and the last occasion of a payment;
* `Shop.carryOut_pay_due`, `Shop.finish_charging` : a due payment in the shop;
* `charged_when_due` : when a charge happens, and what each failure of a payment means.
-/
import OrderDesk.Proofs.Desk.Results
import OrderDesk.Proofs.Desk.Occasions
import OrderDesk.Proofs.Shop.Alone

namespace OrderDesk

/-! ## Due or turned away -/

/-- A method is supported by its name, and by nothing else. -/
theorem supportedMethod_eq_ok_iff {requested : String} {m : PaymentMethod} :
    supportedMethod requested = .ok m ↔ requested = m.name := by
  refine ⟨fun h => (PaymentMethod.name_of_supportedMethod h).symm, ?_⟩
  rintro rfl
  simp [supportedMethod]

theorem supportedMethod_eq_error {requested : String} (h : ∀ m : PaymentMethod, requested ≠ m.name) :
    supportedMethod requested = .error (.unsupportedMethod requested) := by
  cases hsupported : supportedMethod requested with
  | ok m => exact absurd (supportedMethod_eq_ok_iff.1 hsupported) (h m)
  | error e =>
      unfold supportedMethod at hsupported
      split at hsupported <;> cases hsupported
      rfl

/-- A failure of the payment service that is not about the method is a failed payment with its wording. -/
theorem OrderError.ofPayment_of_ne {e : GatewayError} (h : ∀ name, e ≠ .unsupportedMethod name) :
    ofPayment e = .paymentFailed e.message := by
  cases e with
  | unsupportedMethod name => exact absurd rfl (h name)
  | _ => rfl

namespace Store

/-- A payment is due: the record waits for it, and the text names a method. -/
structure Due (s : Store) (id : OrderId) (requested : String) (r : Order) (m : PaymentMethod) :
    Prop where
  record : s.get? id = some r
  waiting : r.status = .pending
  name : requested = m.name

/-- Why a payment that is not due is forbidden. The record comes first, whatever the text is. -/
inductive Forbids (s : Store) (id : OrderId) (requested : String) : OrderError → Prop
  | notFound : s.get? id = none → Forbids s id requested (.notFound id)
  | alreadyPaid {r : Order} : s.get? id = some r → r.status = .paid →
      Forbids s id requested (.alreadyPaid id)
  | cancelled {r : Order} : s.get? id = some r → r.status = .cancelled →
      Forbids s id requested (.cancelled id)
  | unsupported {r : Order} : s.get? id = some r → r.status = .pending →
      (∀ m : PaymentMethod, requested ≠ m.name) →
      Forbids s id requested (.unsupportedMethod requested)

variable {s : Store} {id : OrderId} {requested : String}

/-- A payment is due or forbidden. -/
theorem due_or_forbids (s : Store) (id : OrderId) (requested : String) :
    (∃ r m, s.Due id requested r m) ∨ ∃ e, s.Forbids id requested e := by
  cases hget : s.get? id with
  | none => exact Or.inr ⟨_, .notFound hget⟩
  | some r =>
      cases hstatus : r.status with
      | paid => exact Or.inr ⟨_, .alreadyPaid hget hstatus⟩
      | cancelled => exact Or.inr ⟨_, .cancelled hget hstatus⟩
      | pending =>
          by_cases hname : ∃ m : PaymentMethod, requested = m.name
          · obtain ⟨m, hm⟩ := hname
            exact Or.inl ⟨r, m, hget, hstatus, hm⟩
          · exact Or.inr ⟨_, .unsupported hget hstatus (not_exists.1 hname)⟩

/-- A payment that is forbidden is not due. -/
theorem Forbids.not_due {e : OrderError} (h : s.Forbids id requested e) {r : Order}
    {m : PaymentMethod} : ¬s.Due id requested r m := by
  rintro ⟨hrecord, hwaiting, hname⟩
  cases h with
  | notFound hnone =>
      rw [hrecord] at hnone
      cases hnone
  | alreadyPaid hget hstatus =>
      obtain rfl := Option.some.inj (hrecord.symm.trans hget)
      rw [hwaiting] at hstatus
      cases hstatus
  | cancelled hget hstatus =>
      obtain rfl := Option.some.inj (hrecord.symm.trans hget)
      rw [hwaiting] at hstatus
      cases hstatus
  | unsupported _ _ hno => exact hno m hname

theorem get_of_get? {r : Order} (h : s.get? id = some r) : s.get id = .ok r := by
  simp only [get, h]

end Store

/-! ## The occasions of a payment -/

namespace Call

/-- A record that does not wait turns a payment away, and one that does lets it go on. -/
theorem afterPayRead_of_forbids {s : Store} {id : OrderId} {requested : String} {e : OrderError}
    (h : s.Forbids id requested e) :
    afterPayRead id requested (s.get id) = .failed e ∨
      ∃ r, afterPayRead id requested (s.get id) = .choosing r requested ∧
        e = .unsupportedMethod requested ∧
        supportedMethod requested = .error (.unsupportedMethod requested) := by
  cases h with
  | notFound hnone => exact Or.inl (by simp only [afterPayRead, Store.get, hnone, OrderError.ofStore])
  | alreadyPaid hget hstatus =>
      exact Or.inl (by simp only [afterPayRead, Store.get_of_get? hget, hstatus])
  | cancelled hget hstatus =>
      exact Or.inl (by simp only [afterPayRead, Store.get_of_get? hget, hstatus])
  | @unsupported r hget hstatus hno =>
      exact Or.inr ⟨r, by simp only [afterPayRead, Store.get_of_get? hget, hstatus], rfl,
        supportedMethod_eq_error hno⟩

theorem afterPayRead_of_due {s : Store} {id : OrderId} {requested : String} {r : Order}
    {m : PaymentMethod} (h : s.Due id requested r m) :
    afterPayRead id requested (s.get id) = .choosing r requested := by
  simp only [afterPayRead, Store.get_of_get? h.record, h.waiting]

end Call

namespace Floor

variable {f : Floor} {command : Command} {xs : List Occasion} {x : Occasion} {j : Job}

/-- A payment reads the record of its order. -/
theorem checked_served (id : OrderId) (requested : String) (hx : x.Spares f.jobs.length) :
    let found := ((f.step (.ask (.pay id requested))).run x.others).store
    ∃ t, (f.served (.pay id requested) [x]).jobs[f.jobs.length]? =
      some ⟨.pay id requested, Call.afterPayRead id requested (found.get id),
        [⟨t, .record id, x.draw, .record (found.get id)⟩]⟩ := by
  intro found
  have hturn := turn_served hx (f.getElem?_served_nil (.pay id requested)) rfl rfl
  exact ⟨_, hturn.job_after⟩

/-- A payment that was charged for succeeds, or it comes too late for its order. -/
theorem updatedPaid_served {o : Order} {t : TransactionId}
    (hj : (f.served command xs).jobs[f.jobs.length]? = some j) (hcall : j.call = .updatingPaid o t)
    (hx : x.Spares f.jobs.length) :
    ∃ y, (f.served command (xs ++ [x])).jobs[f.jobs.length]? = some (j.next y) ∧
      y.need = .write o o.version ∧
      ((j.next y).call = .succeeded (.paid t) ∨
        ∃ actual, (j.next y).call = .failed (.concurrentModification o.id o.version actual)) := by
  have hn : j.call.need = some (.write o o.version) := by rw [hcall]; rfl
  have htakes : Need.takes (.write o o.version)
      (((f.served command xs).run x.others).desk.serve (.write o o.version) x.outside).2 = true := by
    rw [Desk.serve_write]
    split <;> rfl
  have hturn := turn_served hx hj hn htakes
  refine ⟨_, hturn.job_after, rfl, ?_⟩
  rcases hturn.honest.write rfl with ha | ⟨actual, -, ha⟩
  · refine Or.inl ?_
    rw [Job.call_next, hcall, ha]
    rfl
  · refine Or.inr ⟨actual, ?_⟩
    rw [Job.call_next, hcall, ha]
    rfl

section Paid

variable {id : OrderId} {requested : String} {y z : Occasion}

/-- A payment that the record or the text forbids fails for that reason, and nobody is charged. -/
theorem forbidden_served {e : OrderError}
    (h : ((f.step (.ask (.pay id requested))).run x.others).store.Forbids id requested e)
    (hx : x.Spares f.jobs.length) (hy : y.Spares f.jobs.length)
    (hmethod : y.outside = .method (supportedMethod requested)) :
    ∃ j, (f.served (.pay id requested) [x, y]).jobs[f.jobs.length]? = some j ∧
      j.call = .failed e ∧ j.chargesAsked = [] := by
  obtain ⟨t, hj⟩ := checked_served id requested hx
  rcases Call.afterPayRead_of_forbids h with hfailed | ⟨r, hchoosing, rfl, hno⟩
  · rw [hfailed] at hj
    exact ⟨_, getElem?_served_of_finished hj rfl [y], rfl, rfl⟩
  · rw [hchoosing] at hj
    obtain ⟨⟨t', hj'⟩, -⟩ := told_served hy hj rfl (fun _ => rfl) (by rw [hmethod]; rfl)
    rw [hmethod, hno] at hj'
    exact ⟨_, hj', rfl, rfl⟩

/-- A payment that is due comes to its charge, with nobody charged before. -/
theorem due_served {r : Order} {m : PaymentMethod}
    (h : ((f.step (.ask (.pay id requested))).run x.others).store.Due id requested r m)
    (hx : x.Spares f.jobs.length) (hy : y.Spares f.jobs.length)
    (hmethod : y.outside = .method (supportedMethod requested)) :
    ∃ j, (f.served (.pay id requested) [x, y]).jobs[f.jobs.length]? = some j ∧
      j.call = .charging r m ∧ j.chargesAsked = [] := by
  obtain ⟨t, hj⟩ := checked_served id requested hx
  rw [Call.afterPayRead_of_due h] at hj
  obtain ⟨⟨t', hj'⟩, -⟩ := told_served hy hj rfl (fun _ => rfl) (by rw [hmethod]; rfl)
  rw [hmethod, supportedMethod_eq_ok_iff.2 h.name] at hj'
  exact ⟨_, hj', rfl, rfl⟩

/-- A payment that is due asks for one charge, and ends by its answer. -/
theorem charged_served {r : Order} {m : PaymentMethod} {result : Except GatewayError TransactionId}
    {u : Occasion}
    (h : ((f.step (.ask (.pay id requested))).run x.others).store.Due id requested r m)
    (hspares : ∀ o ∈ [x, y, z, u], o.Spares f.jobs.length)
    (hmethod : y.outside = .method (supportedMethod requested)) (hanswer : z.outside = .charge result) :
    ∃ j, (f.served (.pay id requested) [x, y, z, u]).jobs[f.jobs.length]? = some j ∧
      j.chargesAsked = [(r.user, id, m)] ∧
      (∀ e, result = .error e → j.call = .failed (.ofPayment e)) ∧
      ∀ t, result = .ok t → j.call = .succeeded (.paid t) ∨
        ∃ expected actual, j.call = .failed (.concurrentModification id expected actual) := by
  obtain ⟨j, hj, hcall, hnone⟩ :=
    due_served h (hspares x (by simp)) (hspares y (by simp)) hmethod
  have hneed : j.call.need = some (.charge r.user r.id m) := by rw [hcall]; rfl
  obtain ⟨⟨t, hj'⟩, -⟩ :=
    told_served (hspares z (by simp)) hj hneed (fun _ => rfl) (by rw [hanswer]; rfl)
  rw [hanswer] at hj'
  have hasked : (j.next ⟨t, .charge r.user r.id m, z.draw, .charge result⟩).chargesAsked =
      [(r.user, id, m)] := by
    rw [Job.chargesAsked_next, hnone, Store.id_of_get? h.record]
    rfl
  have hnext : (j.next ⟨t, .charge r.user r.id m, z.draw, .charge result⟩).call =
      Call.afterCharge z.draw r m result := by
    rw [Job.call_next, hcall]
    rfl
  cases result with
  | error e =>
      have hend := getElem?_served_of_finished hj' (by rw [hnext]; rfl) [u]
      refine ⟨_, hend, hasked, fun e' he => ?_, fun _ he => by cases he⟩
      cases he
      exact hnext
  | ok transaction =>
      rw [Call.afterCharge_of_waiting h.waiting] at hnext
      obtain ⟨w, hend, hwrite, hends⟩ := updatedPaid_served hj' hnext (hspares u (by simp))
      refine ⟨_, hend, ?_, (fun _ he => by cases he), fun t' he => ?_⟩
      · rw [Job.chargesAsked_next, hasked, Exchange.chargeAsked?, hwrite]
        rfl
      · cases he
        rw [← Store.id_of_get? h.record]
        rcases hends with hpaid | ⟨actual, hlate⟩
        · exact Or.inl hpaid
        · exact Or.inr ⟨_, actual, hlate⟩

end Paid

end Floor

/-! ## Payments in the shop -/

/-- A charge is declined, and then nothing is recorded, or it is made and recorded. -/
theorem Payments.charge_cases (p : Payments) (t : TransactionId) (user : UserId) (order : OrderId)
    (m : PaymentMethod) :
    (∃ reason, p.charge t user order m = (p, .error (.declined reason))) ∨
      p.charge t user order m =
        ({ p with recorded := p.recorded ++ [⟨t, user, order, m⟩] }, .ok t) := by
  unfold charge
  split
  · exact Or.inl ⟨_, rfl⟩
  · exact Or.inr rfl

namespace Shop

variable {s : Shop} {id : OrderId} {requested : String}

/-- A payment in the shop stands where its record leads, with the services as they were. -/
theorem carryOut_pay_checked (s : Shop) (id : OrderId) (requested : String) :
    ∃ t : Shop, t.desk.store = s.desk.store ∧ t.payments = s.payments ∧ t.deadline = s.deadline ∧
      s.carryOut (.pay id requested) =
        t.finish (Call.afterPayRead id requested (s.desk.store.get id)) :=
  s.finish_of_read (c := .checking id requested) rfl rfl (by simp)

/-- A payment that the record or the text forbids fails for that reason, and the services are left alone.
-/
theorem carryOut_pay_forbidden {e : OrderError} (h : s.desk.store.Forbids id requested e) :
    (s.carryOut (.pay id requested)).call = .failed e ∧
      (s.carryOut (.pay id requested)).shop.payments = s.payments := by
  obtain ⟨t, -, hpayments, -, hcheck⟩ := s.carryOut_pay_checked id requested
  rw [hcheck]
  rcases Call.afterPayRead_of_forbids h with hfailed | ⟨r, hchoosing, rfl, hno⟩
  · rw [hfailed]
    exact ⟨rfl, hpayments⟩
  · obtain ⟨u, -, hsame, -, hchosen⟩ := t.finish_of_read (c := .choosing r requested) rfl rfl (by simp)
    have hnext : (Call.choosing r requested).resume t.draw
        (t.desk.serve (.method requested) (known (.choosing r requested))).2 =
          .failed (.unsupportedMethod requested) := by
      simp only [Desk.serve, known, Call.need, hno, Call.resume, OrderError.ofPayment]
    rw [hchoosing, hchosen, hnext]
    exact ⟨rfl, hsame.trans hpayments⟩

/-- A payment that is due comes to its charge, with its record and the services as they were. -/
theorem carryOut_pay_due {r : Order} {m : PaymentMethod} (h : s.desk.store.Due id requested r m) :
    ∃ t : Shop, t.desk.store.get? r.id = some r ∧ t.payments = s.payments ∧
      t.deadline = s.deadline ∧ s.carryOut (.pay id requested) = t.finish (.charging r m) := by
  obtain ⟨t, hstore, hpayments, hdeadline, hcheck⟩ := s.carryOut_pay_checked id requested
  obtain ⟨u, hstore', hpayments', hdeadline', hchosen⟩ :=
    t.finish_of_read (c := .choosing r requested) rfl rfl (by simp)
  have hnext : (Call.choosing r requested).resume t.draw
      (t.desk.serve (.method requested) (known (.choosing r requested))).2 = .charging r m := by
    simp only [Desk.serve, known, Call.need, supportedMethod_eq_ok_iff.2 h.name, Call.resume]
  refine ⟨u, ?_, hpayments'.trans hpayments, hdeadline'.trans hdeadline, ?_⟩
  · rw [hstore', hstore, Store.id_of_get? h.record]
    exact h.record
  · rw [hcheck, Call.afterPayRead_of_due h, hchosen, hnext]

/-- An order that was charged for is written if its record is at the version that was read. -/
theorem finish_updatingPaid {o : Order} (h : s.desk.store.versionOf o.id = o.version) (t : TransactionId) :
    (s.finish (.updatingPaid o t)).call = .succeeded (.paid t) := by
  have hnext : (s.step (.updatingPaid o t) (known (.updatingPaid o t))).2 = .succeeded (.paid t) := by
    obtain ⟨-, hstep⟩ := Desk.step_of_need (d := s.desk) (c := .updatingPaid o t) rfl s.draw
      (known (.updatingPaid o t))
    rw [Desk.serve_write, if_pos h] at hstep
    exact hstep
  rw [finish_at_once s (by simp [Call.need]) rfl, hnext]
  rfl

/-- A call that charges for a record that waits, and that is stored as it was read, charges once. It fails
by the deadline if the payment service takes longer, and whenever it fails no payment is recorded. -/
theorem finish_charging {r : Order} (hstored : s.desk.store.get? r.id = some r)
    (hwaiting : r.status = .pending) (m : PaymentMethod) :
    let paid := s.finish (.charging r m)
    paid.shop.payments.calls = s.payments.calls + 1 ∧
      (∀ limit, s.deadline = some limit → limit.timerMillis < s.payments.latency.timerMillis →
        paid.call = .failed (.paymentFailed (GatewayError.deadlineExceeded limit).message)) ∧
      ((∃ e, paid.call = .failed e) ∧ paid.shop.payments.recorded = s.payments.recorded ∨
        ∃ t, paid.call = .succeeded (.paid t) ∧
          paid.shop.payments.recorded = s.payments.recorded ++ [⟨t, r.user, r.id, m⟩]) := by
  intro paid
  have hwaits : (s.advance (.charging r m)).call.waits = 0 := s.waits_advance rfl
  have hservices := ((s.advance (.charging r m)).shop.services_finish hwaits).2
  obtain ⟨hsame, hcharged⟩ := s.advance_charge (c := .charging r m) rfl
  have hpaid : paid = ((s.advance (.charging r m)).shop.finish (s.advance (.charging r m)).call).after
      (s.advance (.charging r m)).millis := s.finish_of_need (by simp [Call.need])
  have hafter : paid.shop.payments = (s.advance (.charging r m)).shop.payments := by
    rw [hpaid]
    exact hservices
  rw [hafter]
  rcases hcharged with ⟨limit, hlimit, hlate, hcall, hcounted⟩ | ⟨hsooner, draw, hcall, hcounted⟩
  · have hfailed : paid.call =
        .failed (.paymentFailed (GatewayError.deadlineExceeded limit).message) := by
      rw [hpaid, hcall]
      rfl
    rw [hcounted]
    refine ⟨rfl, fun other hother _ => ?_, Or.inl ⟨⟨_, hfailed⟩, rfl⟩⟩
    rw [hlimit] at hother
    cases hother
    exact hfailed
  · have hnever : ∀ limit, s.deadline = some limit →
        ¬limit.timerMillis < s.payments.latency.timerMillis :=
      fun limit hlimit => Nat.not_lt.2 (hsooner limit hlimit)
    rcases s.payments.arrive.charge_cases s.nextId r.user r.id m with ⟨reason, hdeclined⟩ | haccepted
    · rw [hdeclined] at hcall hcounted
      rw [hcounted]
      refine ⟨rfl, fun limit hlimit hlate => absurd hlate (hnever limit hlimit),
        Or.inl ⟨⟨.paymentFailed (GatewayError.declined reason).message, ?_⟩, rfl⟩⟩
      rw [hpaid, hcall]
      rfl
    · rw [haccepted] at hcall hcounted
      rw [hcounted]
      refine ⟨rfl, fun limit hlimit hlate => absurd hlate (hnever limit hlimit),
        Or.inr ⟨s.nextId, ?_, rfl⟩⟩
      rw [hpaid, hcall, Call.resume, Call.afterCharge_of_waiting hwaiting]
      refine finish_updatingPaid ?_ s.nextId
      -- the charge has left the store alone, so the write finds the version that was read
      rw [Store.versionOf, hsame, hstored]
      rfl

end Shop

/-! ## When a charge happens -/

/-- On any floor, with any moves of others between its own, if methods are what their names stand for and
whatever the payment service answers: a payment asks for a charge exactly if it finds a record that waits
for it and is given the exact name of a method, and then once, for the user of the record, the order and
that method. Otherwise it fails by what it finds, in this order: no record, a paid or a cancelled one, a
name that no method has. If there is no charge, it fails with the reason of the service and has written
nothing; if there is one, it can only come too late. In the shop, a payment that is not due leaves the
store, the payments and the number of calls alone, and one that is due is called for once; the deadline
counts as no charge, and whenever a payment fails, nothing is recorded and the store is as it was. -/
theorem charged_when_due (id : OrderId) (requested : String) :
    (∀ (f : Floor) (x y z u : Occasion) (result : Except GatewayError TransactionId),
      (∀ o ∈ [x, y, z, u], o.Spares f.jobs.length) →
      y.outside = .method (supportedMethod requested) → z.outside = .charge result →
      let command := Command.pay id requested
      let found := ((f.step (.ask command)).run x.others).store
      ∃ j, (f.served command [x, y, z, u]).jobs[f.jobs.length]? = some j ∧
        (j.chargesAsked ≠ [] ↔ ∃ r m, found.Due id requested r m) ∧
        ((¬∃ r m, found.Due id requested r m) →
          ∃ e, found.Forbids id requested e ∧ j.call = .failed e) ∧
        (∀ r m, found.Due id requested r m →
          j.chargesAsked = [(r.user, id, m)] ∧
          (∀ name, result = .error (.unsupportedMethod name) →
            j.call = .failed (.unsupportedMethod name)) ∧
          (∀ e, result = .error e → (∀ name, e ≠ .unsupportedMethod name) →
            j.call = .failed (.paymentFailed e.message)) ∧
          ∀ t, result = .ok t → j.call = .succeeded (.paid t) ∨
            ∃ expected actual, j.call = .failed (.concurrentModification id expected actual)) ∧
        ∀ e, j.call = .failed e → j.writes = []) ∧
      ∀ s : Shop,
        let r := s.carryOut (.pay id requested)
        (∀ e, s.desk.store.Forbids id requested e → r.call = .failed e ∧
          r.shop.payments = s.payments ∧ r.shop.desk.store = s.desk.store) ∧
        ∀ o m, s.desk.store.Due id requested o m →
          r.shop.payments.calls = s.payments.calls + 1 ∧
          (∀ limit, s.deadline = some limit →
            limit.timerMillis < s.payments.latency.timerMillis →
            r.call = .failed (.paymentFailed (GatewayError.deadlineExceeded limit).message)) ∧
          ((∃ e, r.call = .failed e) ∧ r.shop.payments.recorded = s.payments.recorded ∧
              r.shop.desk.store = s.desk.store ∨
            ∃ t, r.call = .succeeded (.paid t) ∧
              r.shop.payments.recorded = s.payments.recorded ++ [⟨t, o.user, id, m⟩]) := by
  constructor
  · intro f x y z u result hspares hmethod hanswer command found
    have hx : x.Spares f.jobs.length := hspares x (by simp)
    have hy : y.Spares f.jobs.length := hspares y (by simp)
    have hz : z.Spares f.jobs.length := hspares z (by simp)
    have hu : u.Spares f.jobs.length := hspares u (by simp)
    have hwrites : ∀ j e, (f.served command [x, y, z, u]).jobs[f.jobs.length]? = some j →
        j.call = .failed e → j.writes = [] :=
      fun j e hj hcall => Job.writes_eq_nil_of_failed (Floor.course_served hj) hcall
    rcases found.due_or_forbids id requested with ⟨r, m, hdue⟩ | ⟨e, hforbids⟩
    · obtain ⟨j, hj, hasked, -⟩ := Floor.charged_served hdue hspares hmethod hanswer
      refine ⟨j, hj, ⟨fun _ => ⟨r, m, hdue⟩, fun _ => by simp [hasked]⟩, fun hno => ?_,
        fun o k hother => ?_, fun e => hwrites j e hj⟩
      · exact absurd ⟨r, m, hdue⟩ hno
      · obtain ⟨j', hj', hasked', hfails, hcharged⟩ :=
          Floor.charged_served hother hspares hmethod hanswer
        obtain rfl := Option.some.inj (hj.symm.trans hj')
        refine ⟨hasked', fun name hname => hfails _ hname, fun e he hne => ?_, hcharged⟩
        rw [hfails e he, OrderError.ofPayment_of_ne hne]
    · obtain ⟨j, hj, hcall, hnone⟩ := Floor.forbidden_served hforbids hx hy hmethod
      have hend := Floor.getElem?_served_of_finished hj (by rw [hcall]; rfl) [z, u]
      refine ⟨j, hend, ?_, fun _ => ⟨e, hforbids, hcall⟩, fun r m hdue => absurd hdue hforbids.not_due,
        fun e => hwrites j e hend⟩
      constructor
      · intro hne
        exact absurd hnone hne
      · rintro ⟨r, m, hdue⟩
        exact absurd hdue hforbids.not_due
  · intro s r
    refine ⟨fun e hforbids => ?_, fun o m hdue => ?_⟩
    · obtain ⟨hfailed, hsame⟩ := Shop.carryOut_pay_forbidden hforbids
      exact ⟨hfailed, hsame, Shop.store_of_failed hfailed⟩
    · obtain ⟨t, hstored, hpayments, hdeadline, hcharging⟩ := Shop.carryOut_pay_due hdue
      have hcharged := t.finish_charging hstored hdue.waiting m
      rw [← hcharging, hpayments, hdeadline, Store.id_of_get? hdue.record] at hcharged
      obtain ⟨hcalls, hlate, hends⟩ := hcharged
      refine ⟨hcalls, hlate, ?_⟩
      rcases hends with ⟨⟨e, hfailed⟩, hrecorded⟩ | hpaid
      · exact Or.inl ⟨⟨e, hfailed⟩, hrecorded, Shop.store_of_failed hfailed⟩
      · exact Or.inr hpaid

/-- A payment by "SBP" that is declined, while the same order is to be cancelled. -/
def Floor.declinedOccasions : List Occasion :=
  [⟨[.ask (.cancel raceOrder)], raceDraw, .prices (.ok [])⟩,
    ⟨[raceStep 1 (.prices (.ok []))], raceDraw, .method (supportedMethod "SBP")⟩,
    ⟨[], raceDraw, .charge (.error (.declined "no funds"))⟩,
    ⟨[raceStep 1 (.prices (.ok []))], raceDraw, .prices (.ok [])⟩]

/-- A shop with the order of the race, whatever became of it. -/
def Shop.withRace (o : Order) : Shop :=
  { Shop.opening .empty none (fun _ => 5#128) (fun _ => Floor.raceDraw.now) with
    desk := ⟨Store.empty.set o, []⟩ }

/-- The waiting order is charged for once, and the reason is told. A paid one is not charged for, also by
a name that no method has. -/
theorem charged_when_due_declined :
    (∃ j, ((Floor.opening (Store.empty.after [.insertNew Floor.raceRecord])).served
          (.pay Floor.raceOrder "SBP") Floor.declinedOccasions).jobs[0]? = some j ∧
        j.chargesAsked = [(Floor.raceRecord.user, Floor.raceOrder, .sbp)] ∧
        j.call = .failed (.paymentFailed "Payment declined: no funds") ∧ j.writes = []) ∧
      ((Shop.withRace Floor.racePaid).carryOut (.pay Floor.raceOrder "GOLD")).call =
        .failed (.alreadyPaid Floor.raceOrder) ∧
      ((Shop.withRace Floor.raceRecord).carryOut (.pay Floor.raceOrder "CARD")).shop.payments.calls =
        1 := by
  refine ⟨?_, ?_, ?_⟩
  · obtain ⟨hdesk, -⟩ := charged_when_due Floor.raceOrder "SBP"
    obtain ⟨j, hj, -, -, hdue, hwrites⟩ := hdesk
      (.opening (Store.empty.after [.insertNew Floor.raceRecord])) _ _ _ _
      (.error (.declined "no funds"))
      (by decide : ∀ o ∈ Floor.declinedOccasions, o.Spares 0) rfl rfl
    obtain ⟨hasked, -, hfailed, -⟩ := hdue Floor.raceRecord .sbp ⟨rfl, rfl, rfl⟩
    have hcall := hfailed _ rfl (by simp)
    exact ⟨j, hj, hasked, hcall, hwrites _ hcall⟩
  · obtain ⟨-, hshop⟩ := charged_when_due Floor.raceOrder "GOLD"
    obtain ⟨hforbids, -⟩ := hshop (Shop.withRace Floor.racePaid)
    exact (hforbids _ (.alreadyPaid (r := Floor.racePaid) rfl rfl)).1
  · obtain ⟨-, hshop⟩ := charged_when_due Floor.raceOrder "CARD"
    obtain ⟨-, hdue⟩ := hshop (Shop.withRace Floor.raceRecord)
    exact (hdue Floor.raceRecord .card ⟨rfl, rfl, rfl⟩).1

end OrderDesk
