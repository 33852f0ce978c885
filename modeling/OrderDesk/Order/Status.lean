/-
# The status of an order

An order waits for its payment until it is either paid or cancelled; both are final. A cancelled order
may be cancelled again, which changes nothing.
-/

namespace OrderDesk

/-- How far an order has come. -/
inductive OrderStatus
  | pending
  | paid
  | cancelled
  deriving DecidableEq

namespace OrderStatus

/-- `can_pay` : whether an order may be paid. -/
def canPay : OrderStatus → Bool
  | pending => true
  | paid | cancelled => false

/-- `can_cancel` : whether an order may be cancelled. -/
def canCancel : OrderStatus → Bool
  | pending | cancelled => true
  | paid => false

/-- `is_terminal` : whether no further change is possible. -/
def isFinal : OrderStatus → Bool
  | pending => false
  | paid | cancelled => true

/-- The name of a status. -/
def name : OrderStatus → String
  | pending => "PENDING_PAYMENT"
  | paid => "PAID"
  | cancelled => "CANCELLED"

/-- Every status with its name. -/
def names : List (String × OrderStatus) :=
  [pending, paid, cancelled].map fun s => (s.name, s)

/-- Every name leads back to its status. -/
@[simp] theorem lookup_name (s : OrderStatus) : names.lookup s.name = some s := by
  cases s <;> decide

end OrderStatus

end OrderDesk
