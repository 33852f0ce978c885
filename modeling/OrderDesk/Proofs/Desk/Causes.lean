/-
# Why calls fail

Every failure of a call has a cause: there was nothing to order, a gateway did not give what was needed,
the record of the order did not allow it, or the write was refused. The rules for orders are no cause,
although they are checked again before each write: nothing is placed, paid or cancelled that they would
not allow.

* `Cause` : the exchanges that let a command fail, and the failure;
* `Course.cause` : every call that failed has a cause;
* `Cause.kind_ne_rule` : no call fails by a violated rule;
* `Cause.of_cancel` : the three failures of a cancellation.
-/
import OrderDesk.Proofs.Desk.Course

namespace OrderDesk

/-! ## Causes -/

/-- What a payment has behind it before the charge: it read a waiting order and learned the method. -/
structure Prepared (id : OrderId) (requested : String) (r : Order) (m : PaymentMethod)
    (x y : Exchange) : Prop where
  read : x.read? = some r
  order : r.id = id
  waiting : r.status = .pending
  asked : y.need = .method requested
  method : y.method? = some m

/-- Why a command fails: the exchanges that its call has had, and the failure that the last one leads to.
A command for a new order without parts fails before the first exchange. -/
inductive Cause : Command → List Exchange → OrderError → Prop
  | noParts {user : UserId} : Cause (.create user []) [] .noParts
  | inventory {user : UserId} {parts : List PartId} {x : Exchange} {reason : GatewayError} :
      parts ≠ [] → x.need = .prices (Pricing.distinct parts) → x.answer = .prices (.error reason) →
      Cause (.create user parts) [x] (.inventoryUnavailable reason.message)
  | pricing {user : UserId} {parts : List PartId} {x : Exchange} {snapshots : List PartSnapshot}
      {e : OrderError} :
      parts ≠ [] → x.need = .prices (Pricing.distinct parts) → x.answer = .prices (.ok snapshots) →
      Pricing.total snapshots parts = .error e → Cause (.create user parts) [x] e
  | notFound {command : Command} {id : OrderId} {x : Exchange} :
      command.subject? = some id → x.need = .record id →
      x.answer = .record (.error (.notFound id)) → Cause command [x] (.notFound id)
  | alreadyPaid {command : Command} {r : Order} {x : Exchange} :
      command.changes? = some r.id → x.read? = some r → r.status = .paid →
      Cause command [x] (.alreadyPaid r.id)
  | cancelled {requested : String} {r : Order} {x : Exchange} :
      x.read? = some r → r.status = .cancelled →
      Cause (.pay r.id requested) [x] (.cancelled r.id)
  | method {requested : String} {r : Order} {x y : Exchange} {reason : GatewayError} :
      x.read? = some r → r.status = .pending → y.need = .method requested →
      y.answer = .method (.error reason) → Cause (.pay r.id requested) [x, y] (.ofPayment reason)
  | charge {requested : String} {r : Order} {m : PaymentMethod} {x y z : Exchange}
      {reason : GatewayError} :
      Prepared r.id requested r m x y → z.need = .charge r.user r.id m →
      z.answer = .charge (.error reason) →
      Cause (.pay r.id requested) [x, y, z] (.ofPayment reason)
  | conflict {command : Command} {before : List Exchange} {c : Call} {x : Exchange} {o : Order}
      {v actual : Version} :
      Underway command before c → c.need = some (.write o v) → x.need = .write o v →
      x.answer = .written (.error (.conflict o.id v actual)) →
      Cause command (before ++ [x]) (.concurrentModification o.id v actual)

/-! ### Every failure has a cause -/

/-- A call without an exchange stands at its start. -/
theorem Course.eq_start {command : Command} {log : List Exchange} {c : Call}
    (h : Course command log c) (hlog : log = []) : c = Call.start command := by
  cases h with
  | start => rfl
  | next => simp at hlog

/-- A command that fails before the first exchange is for a new order without parts. -/
theorem Cause.of_start {command : Command} {e : OrderError} (h : Call.start command = .failed e) :
    Cause command [] e := by
  cases command with
  | create user parts =>
      by_cases hparts : parts = []
      · subst hparts
        cases h
        exact .noParts
      · simp [Call.start, hparts] at h
  | _ => cases h

/-- A new order that is being priced has parts. -/
theorem Course.parts_ne_nil {user : UserId} {parts : List PartId} {log : List Exchange}
    (h : Course (.create user parts) log (.pricing user parts)) (hlog : log = []) : parts ≠ [] := by
  rintro rfl
  cases h.eq_start hlog

/-- Every call that failed has a cause. -/
theorem Course.cause {command : Command} {log : List Exchange} {e : OrderError}
    (h : Course command log (.failed e)) : Cause command log e := by
  rcases h.last with ⟨rfl, hstart⟩ | ⟨before, c, x, rfl, hbefore, hn, hpasses⟩
  · exact .of_start hstart
  -- the last exchange is the cause
  have hunder := hbefore.underway (by simp [hn])
  cases hpasses with
  | unpriced hneed ha =>
      obtain ⟨rfl, rfl⟩ := hunder
      exact .inventory (hbefore.parts_ne_nil rfl) hneed ha
  | mispriced hneed ha htotal =>
      obtain ⟨rfl, rfl⟩ := hunder
      exact .pricing (hbefore.parts_ne_nil rfl) hneed ha htotal
  | unplaced _ _ htotal hplace =>
      -- parts that have a total break no rule
      obtain ⟨rfl, rfl⟩ := hunder
      have hparts := hbefore.parts_ne_nil rfl
      rw [Order.place_eq_ok_iff.2 ⟨hparts, Pricing.isNegative_total htotal, rfl⟩] at hplace
      cases hplace
  | paidBefore hread hstatus =>
      obtain ⟨rfl, rfl⟩ := hunder
      exact .alreadyPaid rfl hread hstatus
  | cancelledBefore hread hstatus =>
      obtain ⟨rfl, rfl⟩ := hunder
      exact .cancelled hread hstatus
  | paidAlready hread hstatus =>
      obtain ⟨rfl, rfl⟩ := hunder
      exact .alreadyPaid rfl hread hstatus
  | unsupported hneed ha =>
      obtain ⟨y, rfl, rfl, hread, hstatus⟩ := hunder
      exact .method hread hstatus hneed ha
  | unpayable _ hpay =>
      -- an order that waits may be paid
      obtain ⟨_, _, _, -, -, -, hstatus, -⟩ := hunder
      rw [Order.pay_eq_ok_iff.2 ⟨hstatus, rfl⟩] at hpay
      cases hpay
  | declined hneed ha =>
      obtain ⟨requested, y, z, rfl, rfl, hread, hstatus, hasked, hm⟩ := hunder
      exact .charge ⟨hread, rfl, hstatus, hasked, hm⟩ hneed ha
  | notFound hrecord hneed ha =>
      obtain ⟨rfl, hsubject⟩ := hunder.of_need_record hrecord
      exact .notFound hsubject hneed ha
  | conflict hwrite hneed _ ha => exact .conflict hunder hwrite hneed ha

namespace Cause

variable {command : Command} {log : List Exchange} {e : OrderError}

/-- No call fails by a violated rule. -/
theorem kind_ne_rule (h : Cause command log e) : e.kind ≠ .rule := by
  cases h with
  | pricing _ _ _ htotal =>
      rcases Pricing.of_total_eq_error htotal with ⟨bad, -, -, rfl⟩ | rfl | rfl <;>
        simp [OrderError.kind]
  | @method _ _ _ _ reason => cases reason <;> simp [OrderError.ofPayment, OrderError.kind]
  | @charge _ _ _ _ _ _ reason => cases reason <;> simp [OrderError.ofPayment, OrderError.kind]
  | _ => simp [OrderError.kind]

/-- A cancellation fails if there is no record, if that is paid, or by another write. -/
theorem of_cancel {id : OrderId} (h : Cause (.cancel id) log e) :
    e = .notFound id ∨ e = .alreadyPaid id ∨
      ∃ expected actual, e = .concurrentModification id expected actual := by
  cases h with
  | notFound hsubject =>
      cases hsubject
      exact Or.inl rfl
  | alreadyPaid hchanges =>
      cases hchanges
      exact Or.inr (Or.inl rfl)
  | @conflict _ before c x o v actual hunder hn =>
      obtain ⟨y, r, rest, -, -, -, -, -, hid, -⟩ := hunder.read_of_write hn rfl
      exact Or.inr (Or.inr ⟨v, actual, by rw [hid]⟩)

end Cause

end OrderDesk
