/-
# The payment service

`InMemoryPaymentService`, which records a payment under a fresh transaction identifier for every charge
that is not declined. A charge is counted when it arrives; whether it is declined is decided when its
latency is over.

Payments are kept in the order of their charges. They stand under identifiers that are drawn at
random and taken to be distinct, so that a payment never replaces another one.
-/
import OrderDesk.Gateway
import OrderDesk.Identifier

namespace OrderDesk

/-- A payment that was made. -/
structure Payment where
  transaction : TransactionId
  user : UserId
  order : OrderId
  method : PaymentMethod
  deriving DecidableEq

/-- The payment service: `fails` is set by `set_fail_on_pay`, `latency` by `set_latency`, and `calls` is
its `call_count`. -/
structure Payments where
  recorded : List Payment
  fails : Bool
  latency : Span
  calls : Nat
  deriving DecidableEq

namespace Payments

/-- The service before its first charge. -/
def empty : Payments := ⟨[], false, ⟨0⟩, 0⟩

/-- `pay_order` up to its latency: counts a charge that arrives. -/
def arrive (p : Payments) : Payments :=
  { p with calls := p.calls + 1 }

/-- `has_payment` : whether a payment was made under a transaction identifier. -/
def has (p : Payments) (transaction : TransactionId) : Bool :=
  p.recorded.any (·.transaction = transaction)

/-- `pay_order` from its latency on: charges a user for an order under a fresh transaction identifier. -/
def charge (p : Payments) (transaction : TransactionId) (user : UserId) (order : OrderId)
    (method : PaymentMethod) : Payments × Except GatewayError TransactionId :=
  if p.fails then (p, .error (.declined "payment processor error"))
  else ({ p with recorded := p.recorded ++ [⟨transaction, user, order, method⟩] }, .ok transaction)

end Payments

end OrderDesk
