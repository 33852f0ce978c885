/-
# Orders

The record of a purchase and the three rules that write it: placing, paying and cancelling. Everything
but the status, the payment, the time of the last change and the version is fixed when the order is
placed. The clock reading and the drawn identifier are arguments.

* `Order.place` : a new order that waits for its payment;
* `Order.pay` : the order with its payment, only from the waiting status;
* `Order.cancel` : the cancelled order, or nothing when it is cancelled already.
-/
import OrderDesk.Identifier
import OrderDesk.Money
import OrderDesk.Version
import OrderDesk.Order.Status
import OrderDesk.Order.PaymentMethod
import OrderDesk.Time.Instant

namespace OrderDesk

/-! ## The record -/

/-- `PaymentDetails` : how an order was paid, the method together with the transaction. -/
structure PaymentDetails where
  method : PaymentMethod
  transaction : TransactionId
  deriving DecidableEq

/-- A purchase, from its placing to its payment or cancellation. -/
structure Order where
  id : OrderId
  user : UserId
  parts : List PartId
  total : Money
  status : OrderStatus
  payment : Option PaymentDetails
  version : Version
  createdAt : Instant
  updatedAt : Instant
  deriving DecidableEq

/-! ## Violated rules -/

/-- What may be done to a placed order. -/
inductive OrderAction
  | pay
  | cancel
  deriving DecidableEq

/-- The name of an action. -/
def OrderAction.name : OrderAction → String
  | pay => "pay"
  | cancel => "cancel"

/-- `DomainError` : why an order may not be placed or changed. -/
inductive RuleViolation
  | transition (current : OrderStatus) (action : OrderAction)
  | noParts
  | negativeTotal (total : Money)
  deriving DecidableEq

/-- The wording of a violated rule. -/
def RuleViolation.message : RuleViolation → String
  | transition current action =>
      "Invalid state transition: cannot " ++ action.name ++ " from " ++ current.name ++ " state"
  | noParts => "Order has no parts"
  | negativeTotal total => "Order total " ++ total.text ++ " is negative"

namespace Order

/-! ## The rules -/

/-- `place` : a new order of at least one part with a total of at least zero. -/
def place (id : OrderId) (now : Instant) (user : UserId) (parts : List PartId) (total : Money) :
    Except RuleViolation Order :=
  if parts = [] then .error .noParts
  else if total.isNegative then .error (.negativeTotal total)
  else .ok ⟨id, user, parts, total, .pending, none, .initial, now, now⟩

/-- `pay` : the order as paid with a method and a transaction, behind the guard `can_pay`. -/
def pay (o : Order) (method : PaymentMethod) (transaction : TransactionId) (now : Instant) :
    Except RuleViolation Order :=
  if o.status.canPay then
    .ok { o with status := .paid, payment := some ⟨method, transaction⟩, updatedAt := now }
  else .error (.transition o.status .pay)

/-- `cancel` : the order as cancelled, behind the guard `can_cancel`; nothing when it already was. -/
def cancel (o : Order) (now : Instant) : Except RuleViolation (Option Order) :=
  if o.status.canCancel then
    if o.status = .cancelled then .ok none
    else .ok (some { o with status := .cancelled, updatedAt := now })
  else .error (.transition o.status .cancel)

/-- `set_version` : the order with another version. -/
def withVersion (o : Order) (v : Version) : Order :=
  { o with version := v }

@[simp] theorem id_withVersion (o : Order) (v : Version) : (o.withVersion v).id = o.id := rfl

@[simp] theorem version_withVersion (o : Order) (v : Version) : (o.withVersion v).version = v := rfl

end Order

end OrderDesk
