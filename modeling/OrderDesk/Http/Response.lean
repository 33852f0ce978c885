/-
# Responses

What the service answers: a status, headers, and a body that is text or the counters. Failures
(`ApiError`) are JSON objects with the single member `error`; requests that the extractors cannot
understand are rejected in plain text.
-/
import OrderDesk.Http.Messages
import OrderDesk.Desk.Counters
import OrderDesk.Json.Printer

namespace OrderDesk

/-! ## The parts of a response -/

/-- What a response carries. -/
inductive Body
  | text (s : String)
  | counters (m : Counters)

/-- A response, its headers in alphabetical order. -/
structure Response where
  status : Nat
  headers : List (String × String)
  body : Body

namespace Response

/-- A response without a body. -/
def bare (status : Nat) : Response :=
  ⟨status, [], .text ""⟩

/-- A response with a JSON body. -/
def json (status : Nat) (v : Json) : Response :=
  ⟨status, [("content-type", "application/json")], .text v.text⟩

/-- A response in plain text. -/
def plain (status : Nat) (s : String) : Response :=
  ⟨status, [("content-type", "text/plain; charset=utf-8")], .text s⟩

/-- A response with the counters. -/
def metrics (m : Counters) : Response :=
  ⟨200, [("content-type", "text/plain; version=0.0.4; charset=utf-8")], .counters m⟩

/-- The response without what its body carries. -/
def withoutBody (r : Response) : Response :=
  match r.body with
  | .text _ => { r with body := .text "" }
  | .counters _ => { r with body := .counters [] }

/-- The response with one more header. -/
def withHeader (r : Response) (name value : String) : Response :=
  { r with headers := ((name, value) :: r.headers).mergeSort fun a b => a.1 ≤ b.1 }

/-- The response with the headers that let pages of any origin read it. -/
def forAnyOrigin (r : Response) : Response :=
  (r.withHeader "access-control-allow-origin" "*").withHeader "vary"
    "origin, access-control-request-method, access-control-request-headers"

end Response

/-! ## Failures -/

/-- Why a handler failed: a request that it refuses, or a failed command. -/
inductive ApiError
  | badRequest (message : String)
  | order (e : OrderError)
  deriving DecidableEq

/-- `order_error_status` : the status that a failure of the desk is answered with. -/
def OrderError.status : OrderError → Nat
  | noParts | partsNotFound _ | totalTooLarge | unsupportedMethod _ => 400
  | notFound _ => 404
  | alreadyPaid _ | cancelled _ | concurrentModification .. => 409
  | inventoryUnavailable _ | paymentFailed _ | rule _ => 500

namespace ApiError

/-- The status of a failure. -/
def status : ApiError → Nat
  | badRequest _ => 400
  | order e => e.status

/-- The wording of a failure. -/
def message : ApiError → String
  | badRequest m => m
  | order e => e.message

/-- The body of a failure. -/
def body (e : ApiError) : Json :=
  .object [("error", .string e.message)]

/-- `into_response` : the response to a failure. -/
def response (e : ApiError) : Response :=
  .json e.status e.body

end ApiError

/-! ## Rejections -/

/-- Why an extractor did not understand a request: `Path` in the first case, `Json` in the others. -/
inductive Rejection
  | undecodablePath
  | notJson
  | malformedBody
  | misshapenBody
  deriving DecidableEq

/-- The response to a request that was not understood. The texts are the beginnings of the extractors'
messages, which go on with the place and the kind of the problem. -/
def Rejection.response : Rejection → Response
  | undecodablePath => .plain 400 "Invalid URL"
  | notJson => .plain 415 "Expected request with `Content-Type: application/json`"
  | malformedBody => .plain 400 "Failed to parse the request body as JSON"
  | misshapenBody => .plain 422 "Failed to deserialize the JSON body into the target type"

end OrderDesk
