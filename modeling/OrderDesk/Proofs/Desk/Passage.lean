/-
# One exchange of a call

What an exchange makes of a call: the call goes on to its next need, or comes to its end. Each of the
continuations of a call says so for its own answers, and together they are all that can happen.

* `Call.Passes` : everything that an exchange can make of a call;
* `Call.passes_afterPrices`, `Call.passes_afterPayRead`, `Call.passes_afterCharge`,
  `Call.passes_afterCancelRead`, `Call.passes_afterWrite` : what the continuations make of their answers;
* `Call.passes_resume` : what any call comes to by an honest exchange;
* `Call.Passes.of_conflict` : only a refused write lets a call fail with a conflict.
-/
import OrderDesk.Proofs.Desk.Exchange
import OrderDesk.Proofs.Desk.Prices
import OrderDesk.Proofs.Order.Rules

namespace OrderDesk

namespace Call

/-! ## Everything that can happen -/

/-- What an exchange makes of a call. First come the exchanges of a new order (prices, then the write),
then the records that were read, then the method, the charge and the other writes; a record that does
not exist and a write that is refused end every call in the same way. -/
inductive Passes (x : Exchange) : Call → Call → Prop
  | unpriced {user : UserId} {parts : List PartId} {reason : GatewayError} :
      x.need = .prices (Pricing.distinct parts) → x.answer = .prices (.error reason) →
      Passes x (pricing user parts) (failed (.inventoryUnavailable reason.message))
  | mispriced {user : UserId} {parts : List PartId} {snapshots : List PartSnapshot} {e : OrderError} :
      x.need = .prices (Pricing.distinct parts) → x.answer = .prices (.ok snapshots) →
      Pricing.total snapshots parts = .error e → Passes x (pricing user parts) (failed e)
  | unplaced {user : UserId} {parts : List PartId} {snapshots : List PartSnapshot} {total : Money}
      {v : RuleViolation} :
      x.need = .prices (Pricing.distinct parts) → x.answer = .prices (.ok snapshots) →
      Pricing.total snapshots parts = .ok total →
      Order.place x.draw.id x.draw.now user parts total = .error v →
      Passes x (pricing user parts) (failed (.rule v))
  | placed {user : UserId} {parts : List PartId} {snapshots : List PartSnapshot} {total : Money}
      {o : Order} :
      x.need = .prices (Pricing.distinct parts) → x.answer = .prices (.ok snapshots) →
      Pricing.total snapshots parts = .ok total →
      Order.place x.draw.id x.draw.now user parts total = .ok o →
      Passes x (pricing user parts) (inserting o)
  | inserted {o : Order} :
      x.written? = some (o.withVersion .first) →
      Passes x (inserting o) (succeeded (.created o.id o.total))
  | fetched {r : Order} : x.read? = some r → Passes x (loading r.id) (succeeded (.fetched r))
  | waiting {r : Order} {requested : String} :
      x.read? = some r → r.status = .pending →
      Passes x (checking r.id requested) (choosing r requested)
  | paidBefore {r : Order} {requested : String} :
      x.read? = some r → r.status = .paid →
      Passes x (checking r.id requested) (failed (.alreadyPaid r.id))
  | cancelledBefore {r : Order} {requested : String} :
      x.read? = some r → r.status = .cancelled →
      Passes x (checking r.id requested) (failed (.cancelled r.id))
  | cancellable {r o : Order} :
      x.read? = some r → r.cancel x.draw.now = .ok (some o) →
      Passes x (cancelling r.id) (updatingCancelled o)
  | cancelledAlready {r : Order} :
      x.read? = some r → r.status = .cancelled →
      Passes x (cancelling r.id) (succeeded (.cancelled r false))
  | paidAlready {r : Order} :
      x.read? = some r → r.status = .paid → Passes x (cancelling r.id) (failed (.alreadyPaid r.id))
  | chosen {r : Order} {requested : String} {m : PaymentMethod} :
      x.need = .method requested → x.method? = some m →
      Passes x (choosing r requested) (charging r m)
  | unsupported {r : Order} {requested : String} {reason : GatewayError} :
      x.need = .method requested → x.answer = .method (.error reason) →
      Passes x (choosing r requested) (failed (.ofPayment reason))
  | charged {r o : Order} {m : PaymentMethod} {t : TransactionId} :
      x.payment? = some ⟨t, r.user, r.id, m⟩ → r.pay m t x.draw.now = .ok o →
      Passes x (charging r m) (updatingPaid o t)
  | unpayable {r : Order} {m : PaymentMethod} {t : TransactionId} {v : RuleViolation} :
      x.payment? = some ⟨t, r.user, r.id, m⟩ → r.pay m t x.draw.now = .error v →
      Passes x (charging r m) (failed (.ofRule r.id v))
  | declined {r : Order} {m : PaymentMethod} {reason : GatewayError} :
      x.need = .charge r.user r.id m → x.answer = .charge (.error reason) →
      Passes x (charging r m) (failed (.ofPayment reason))
  | updatedPaid {o : Order} {t : TransactionId} :
      x.written? = some (o.withVersion o.version.next) →
      Passes x (updatingPaid o t) (succeeded (.paid t))
  | updatedCancelled {o : Order} :
      x.written? = some (o.withVersion o.version.next) →
      Passes x (updatingCancelled o) (succeeded (.cancelled (o.withVersion o.version.next) true))
  | notFound {c : Call} {id : OrderId} :
      c.need = some (.record id) → x.need = .record id →
      x.answer = .record (.error (.notFound id)) → Passes x c (failed (.notFound id))
  | conflict {c : Call} {o : Order} {v actual : Version} :
      c.need = some (.write o v) → x.need = .write o v → actual ≠ v →
      x.answer = .written (.error (.conflict o.id v actual)) →
      Passes x c (failed (.concurrentModification o.id v actual))

/-! ## The continuations -/

/-- Parts that have a total may be placed for it. -/
theorem afterPrices_of_total {draw : Draw} {user : UserId} {parts : List PartId}
    {snapshots : List PartSnapshot} {amount : Money} (hparts : parts ≠ [])
    (h : Pricing.total snapshots parts = .ok amount) :
    afterPrices draw user parts (.ok snapshots) =
      inserting ⟨draw.id, user, parts, amount, .pending, none, .initial, draw.now, draw.now⟩ := by
  have hplace : Order.place draw.id draw.now user parts amount =
      .ok ⟨draw.id, user, parts, amount, .pending, none, .initial, draw.now, draw.now⟩ :=
    Order.place_eq_ok_iff.2 ⟨hparts, Pricing.isNegative_total h, rfl⟩
  simp only [afterPrices, h, hplace]

theorem afterPrices_of_error {snapshots : List PartSnapshot} {parts : List PartId} {e : OrderError}
    (h : Pricing.total snapshots parts = .error e) (draw : Draw) (user : UserId) :
    afterPrices draw user parts (.ok snapshots) = .failed e := by
  simp only [afterPrices, h]

/-- A charge that was made leads to the write of the order as paid, if it was waiting when it was read. -/
theorem afterCharge_of_waiting {r : Order} (hstatus : r.status = .pending) (draw : Draw)
    (m : PaymentMethod) (t : TransactionId) :
    afterCharge draw r m (.ok t) =
      updatingPaid { r with status := .paid, payment := some ⟨m, t⟩, updatedAt := draw.now } t := by
  have hpay : r.pay m t draw.now =
      .ok { r with status := .paid, payment := some ⟨m, t⟩, updatedAt := draw.now } :=
    Order.pay_eq_ok_iff.2 ⟨hstatus, rfl⟩
  simp only [afterCharge, hpay]

section Continuations

variable {x : Exchange}

/-- A new order is priced and placed, or fails. -/
theorem passes_afterPrices {user : UserId} {parts : List PartId}
    {result : Except GatewayError (List PartSnapshot)}
    (hneed : x.need = .prices (Pricing.distinct parts)) (hanswer : x.answer = .prices result) :
    Passes x (pricing user parts) (afterPrices x.draw user parts result) := by
  cases result with
  | error reason => exact .unpriced hneed hanswer
  | ok snapshots =>
      cases htotal : Pricing.total snapshots parts with
      | error e =>
          rw [afterPrices_of_error htotal]
          exact .mispriced hneed hanswer htotal
      | ok total =>
          cases hplace : Order.place x.draw.id x.draw.now user parts total with
          | error v =>
              simp only [afterPrices, htotal, hplace]
              exact .unplaced hneed hanswer htotal hplace
          | ok o =>
              simp only [afterPrices, htotal, hplace]
              exact .placed hneed hanswer htotal hplace

/-- A record that was read to be paid is waiting, or it is too late. -/
theorem passes_afterPayRead {r : Order} (hread : x.read? = some r) (requested : String) :
    Passes x (checking r.id requested) (afterPayRead r.id requested (.ok r)) := by
  cases hstatus : r.status with
  | pending =>
      simp only [afterPayRead, hstatus]
      exact .waiting hread hstatus
  | paid =>
      simp only [afterPayRead, hstatus]
      exact .paidBefore hread hstatus
  | cancelled =>
      simp only [afterPayRead, hstatus]
      exact .cancelledBefore hread hstatus

/-- A charge that was made settles the order, if the rules allow it. -/
theorem passes_afterCharge {r : Order} {m : PaymentMethod} {result : Except GatewayError TransactionId}
    (hneed : x.need = .charge r.user r.id m) (hanswer : x.answer = .charge result) :
    Passes x (charging r m) (afterCharge x.draw r m result) := by
  cases result with
  | error reason => exact .declined hneed hanswer
  | ok t =>
      have hpayment : x.payment? = some ⟨t, r.user, r.id, m⟩ := by
        rw [Exchange.payment?, hneed, hanswer]
      cases hpay : r.pay m t x.draw.now with
      | error v =>
          simp only [afterCharge, hpay]
          exact .unpayable hpayment hpay
      | ok o =>
          simp only [afterCharge, hpay]
          exact .charged hpayment hpay

/-- A record that was read to be cancelled is cancelled, or was before, or it is too late. -/
theorem passes_afterCancelRead {r : Order} (hread : x.read? = some r) :
    Passes x (cancelling r.id) (afterCancelRead x.draw r.id (.ok r)) := by
  cases hcancel : r.cancel x.draw.now with
  | error v =>
      obtain ⟨hstatus, rfl⟩ := Order.cancel_eq_error_iff.1 hcancel
      simp only [afterCancelRead, hcancel]
      exact .paidAlready hread hstatus
  | ok changed =>
      cases changed with
      | none =>
          simp only [afterCancelRead, hcancel]
          exact .cancelledAlready hread (Order.cancel_eq_ok_none_iff.1 hcancel)
      | some o =>
          simp only [afterCancelRead, hcancel]
          exact .cancellable hread hcancel

/-- A write that is answered is accepted at the next version, or refused for another one. -/
theorem passes_afterWrite {c : Call} {o : Order} {v : Version} (receipt : Version → Receipt)
    (hn : c.need = some (.write o v)) (hneed : x.need = .write o v) (hx : x.Honest)
    (haccepted : x.written? = some (o.withVersion v.next) → Passes x c (succeeded (receipt v.next))) :
    ∃ result, x.answer = .written result ∧ Passes x c (afterWrite receipt result) := by
  rcases hx.write hneed with ha | ⟨actual, hne, ha⟩
  · exact ⟨_, ha, haccepted (by rw [Exchange.written?, hneed, ha])⟩
  · exact ⟨_, ha, .conflict hn hneed hne ha⟩

end Continuations

/-- An honest exchange makes of a call one of the things that it can. -/
theorem passes_resume {c : Call} {x : Exchange} (hn : c.need = some x.need) (hx : x.Honest) :
    Passes x c (c.resume x.draw x.answer) := by
  -- an honest answer is of the kind that is needed
  cases c with
  | pricing user parts =>
      have hneed := (Option.some.inj hn).symm
      obtain ⟨result, ha⟩ := hx.prices hneed
      rw [ha]
      exact passes_afterPrices hneed ha
  | inserting o =>
      have hneed := (Option.some.inj hn).symm
      obtain ⟨result, ha, h⟩ := passes_afterWrite (fun _ => .created o.id o.total)
        rfl hneed hx .inserted
      rw [ha]
      exact h
  | loading id =>
      have hneed := (Option.some.inj hn).symm
      rcases hx.record hneed with ⟨r, ha, rfl⟩ | ha
      · rw [ha]
        exact .fetched (Exchange.read?_of_answer hx ha)
      · rw [ha]
        exact .notFound rfl hneed ha
  | checking id requested =>
      have hneed := (Option.some.inj hn).symm
      rcases hx.record hneed with ⟨r, ha, rfl⟩ | ha
      · rw [ha]
        exact passes_afterPayRead (Exchange.read?_of_answer hx ha) requested
      · rw [ha]
        exact .notFound rfl hneed ha
  | choosing r requested =>
      have hneed := (Option.some.inj hn).symm
      obtain ⟨result, ha⟩ := hx.method hneed
      rw [ha]
      cases result with
      | error reason => exact .unsupported hneed ha
      | ok m => exact .chosen hneed (by rw [Exchange.method?, hneed, ha])
  | charging r m =>
      have hneed := (Option.some.inj hn).symm
      obtain ⟨result, ha⟩ := hx.charge hneed
      rw [ha]
      exact passes_afterCharge hneed ha
  | updatingPaid o t =>
      have hneed := (Option.some.inj hn).symm
      obtain ⟨result, ha, h⟩ := passes_afterWrite (fun _ => .paid t) rfl hneed hx .updatedPaid
      rw [ha]
      exact h
  | cancelling id =>
      have hneed := (Option.some.inj hn).symm
      rcases hx.record hneed with ⟨r, ha, rfl⟩ | ha
      · rw [ha]
        exact passes_afterCancelRead (Exchange.read?_of_answer hx ha)
      · rw [ha]
        exact .notFound rfl hneed ha
  | updatingCancelled o =>
      have hneed := (Option.some.inj hn).symm
      obtain ⟨result, ha, h⟩ :=
        passes_afterWrite (fun v => .cancelled (o.withVersion v) true) rfl hneed hx .updatedCancelled
      rw [ha]
      exact h
  | finished o => cases hn

/-! ## Conflicts -/

/-- Only a refused write lets a call fail with a conflict. -/
theorem Passes.of_conflict {c : Call} {x : Exchange} {e : OrderError} (h : Passes x c (failed e))
    (he : e.kind = .concurrentModification) :
    ∃ o v actual, c.need = some (.write o v) ∧ x.need = .write o v ∧
      x.answer = .written (.error (.conflict o.id v actual)) ∧
      e = .concurrentModification o.id v actual := by
  cases h with
  | conflict hn hneed _ ha => exact ⟨_, _, _, hn, hneed, ha, rfl⟩
  | mispriced _ _ htotal =>
      rcases Pricing.of_total_eq_error htotal with ⟨bad, -, -, rfl⟩ | rfl | rfl <;> cases he
  | @unsupported _ _ reason => cases reason <;> cases he
  | @declined _ _ reason => cases reason <;> cases he
  | @unpayable _ _ _ v =>
      unfold OrderError.ofRule at he
      split at he <;> cases he
  | _ => cases he

end Call

end OrderDesk
