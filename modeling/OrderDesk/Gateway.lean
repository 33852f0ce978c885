/-
# Gateway errors

The ways in which a call to the inventory or to the payment service fails.
-/
import OrderDesk.Order.PaymentMethod
import OrderDesk.Time.Span

namespace OrderDesk

/-- `GatewayError` : why another service gave no answer. -/
inductive GatewayError
  | unavailable (reason : String)
  | unsupportedMethod (requested : String)
  | declined (reason : String)
  | deadlineExceeded (limit : Span)
  deriving DecidableEq

/-- The wording of a failed call. -/
def GatewayError.message : GatewayError → String
  | unavailable reason => "Service unavailable: " ++ reason
  | unsupportedMethod requested => PaymentMethod.unsupportedMessage requested
  | declined reason => "Payment declined: " ++ reason
  | deadlineExceeded limit => "Deadline of " ++ limit.text ++ " exceeded"

/-- `supported_method` : the method that a client asks for by its exact name. -/
def supportedMethod (requested : String) : Except GatewayError PaymentMethod :=
  match PaymentMethod.ofName? requested with
  | some m => .ok m
  | none => .error (.unsupportedMethod requested)

end OrderDesk
