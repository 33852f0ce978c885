/-
# Failures of the desk

Everything that can go wrong with an operation of the orchestrator (`OrderError`), the label of each kind
of failure, its wording, and what errors of the store, of the services and of the order lead to.
-/
import OrderDesk.Store
import OrderDesk.Gateway

namespace OrderDesk

/-- Why a command failed. -/
inductive OrderError
  | notFound (id : OrderId)
  | alreadyPaid (id : OrderId)
  | cancelled (id : OrderId)
  | noParts
  | partsNotFound (missing : List PartId)
  | totalTooLarge
  | inventoryUnavailable (reason : String)
  | unsupportedMethod (requested : String)
  | paymentFailed (reason : String)
  | concurrentModification (id : OrderId) (expected actual : Version)
  | rule (violation : RuleViolation)
  deriving DecidableEq

/-! ## Kinds -/

/-- The kinds of failures. -/
inductive ErrorKind
  | notFound
  | alreadyPaid
  | cancelled
  | noParts
  | partsNotFound
  | totalTooLarge
  | inventoryUnavailable
  | unsupportedMethod
  | paymentFailed
  | concurrentModification
  | rule
  deriving DecidableEq

/-- The label of a kind, as `kind` of an `OrderError` gives it to the counters. -/
def ErrorKind.label : ErrorKind → String
  | notFound => "order_not_found"
  | alreadyPaid => "order_already_paid"
  | cancelled => "order_cancelled"
  | noParts => "no_parts"
  | partsNotFound => "part_not_found"
  | totalTooLarge => "total_price_overflow"
  | inventoryUnavailable => "inventory_unavailable"
  | unsupportedMethod => "unsupported_payment_method"
  | paymentFailed => "payment_failed"
  | concurrentModification => "concurrent_modification"
  | rule => "domain"

namespace OrderError

/-- The kind of a failure. -/
def kind : OrderError → ErrorKind
  | notFound _ => .notFound
  | alreadyPaid _ => .alreadyPaid
  | cancelled _ => .cancelled
  | noParts => .noParts
  | partsNotFound _ => .partsNotFound
  | totalTooLarge => .totalTooLarge
  | inventoryUnavailable _ => .inventoryUnavailable
  | unsupportedMethod _ => .unsupportedMethod
  | paymentFailed _ => .paymentFailed
  | concurrentModification .. => .concurrentModification
  | rule _ => .rule

/-! ## Wording -/

/-- The wording of a failure. -/
def message : OrderError → String
  | notFound id => "Order not found: " ++ id.text
  | alreadyPaid id => "Order " ++ id.text ++ " is already paid"
  | cancelled id => "Order " ++ id.text ++ " is cancelled"
  | noParts => "Order must contain at least one part"
  | partsNotFound missing => "Parts not found: " ++ String.intercalate ", " (missing.map Id.text)
  | totalTooLarge => "Order total price is too large"
  | inventoryUnavailable reason => "Inventory unavailable: " ++ reason
  | unsupportedMethod requested => PaymentMethod.unsupportedMessage requested
  | paymentFailed reason => "Payment failed: " ++ reason
  | concurrentModification id expected actual =>
      "Order " ++ id.text ++ " was modified concurrently (expected version " ++ expected.text ++
        ", found " ++ actual.text ++ ")"
  | rule violation => "Domain error: " ++ violation.message

/-! ## Causes -/

/-- The failure that a `StoreError` is turned into. -/
def ofStore : StoreError → OrderError
  | .notFound id => notFound id
  | .conflict id expected actual => concurrentModification id expected actual

/-- `payment_error` : the failure that a `GatewayError` of the payment service leads to. -/
def ofPayment : GatewayError → OrderError
  | .unsupportedMethod requested => unsupportedMethod requested
  | e => paymentFailed e.message

/-- `transition_error` : the failure that a violated rule on a stored order leads to. -/
def ofRule (id : OrderId) : RuleViolation → OrderError
  | .transition .paid _ => alreadyPaid id
  | .transition .cancelled _ => cancelled id
  | v => rule v

end OrderError

end OrderDesk
