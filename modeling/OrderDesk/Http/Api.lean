/-
# The service

The router of `create_app` with its handlers `create`, `get`, `pay`, `cancel`, `check` and `render`: what a
request asks for, and the response to it. A request is first understood as a plan: an answer that is known
at once, a look at the desk, or a command and how its result is answered.

The extractors run before the handler, `Path` before `Json`: the path is decoded first, then the content
type and the body are read. Only then does the handler parse identifiers by `parse_id`, the user before the
parts. Bodies are texts here, and of any length.
-/
import OrderDesk.Http.MediaType
import OrderDesk.Http.Path
import OrderDesk.Http.Response
import OrderDesk.Desk.Schedule

namespace OrderDesk

/-! ## Requests -/

/-- A request to the service. -/
structure Request where
  method : String
  target : String
  headers : List (String × String)
  body : String

/-- What serving a request takes: a response of the router, an extractor or `parse_id`, a look at the desk
by `check` or `render`, or a command of the orchestrator with the view that the handler gives of its
result. -/
inductive Plan
  | reply (r : Response)
  | look (view : Desk → Response)
  | command (c : Command) (view : Outcome → Response)

namespace Request

/-- The value of a header, whose name may be in any case. -/
def header? (r : Request) (name : String) : Option String :=
  (r.headers.find? fun h => h.1.toLower = name).map Prod.snd

/-- The `Json` extractor: the body of a request as a value of a type, or the extractor's rejection. -/
def content {α : Type} [Wire α] (r : Request) : Except Rejection α :=
  if ((r.header? "content-type").map MediaType.isJson).getD false then
    match Reader.ofText (@Wire.read α _) r.body with
    | .ok a => .ok a
    | .error .wrongShape => .error .misshapenBody
    | .error (.fault _) => .error .malformedBody
  else .error .notJson

end Request

namespace Api

/-! ## Identifiers -/

/-- `parse_id` : the identifier that a field of a request spells, or the refusal that names both. -/
def parseId {kind : IdKind} (field text : String) : Except ApiError (Id kind) :=
  (Id.parse text).mapError fun e =>
    .badRequest ("Invalid " ++ field ++ " '" ++ text ++ "': " ++ e.message)

/-! ## Answers -/

/-- The answer of the handlers `create`, `get`, `pay` and `cancel` to the result of their command: the
receipt as a JSON body, or the failure. A cancellation has no body. -/
def answer : Outcome → Response
  | .ok (.created id total) => .json 200 (Wire.write (CreatedOrder.mk id total.toDouble))
  | .ok (.fetched o) => .json 200 (Wire.write o.view)
  | .ok (.paid transaction) => .json 200 (Wire.write (PaidOrder.mk transaction))
  | .ok (.cancelled ..) => .bare 204
  | .error e => (ApiError.order e).response

/-- `check`, the handler of `/health` : that the service is alive, with the number of orders. -/
def health (d : Desk) : Response :=
  .json 200 (.object [("status", .string "ok"), ("orders", .int d.store.size)])

/-! ## Plans -/

/-- The plan of a command, if its identifiers could be read. -/
def planOf (c : Except ApiError Command) : Plan :=
  match c with
  | .ok c => .command c answer
  | .error e => .reply e.response

/-- The command of the handler `create`, once all identifiers of the request are parsed. -/
def newOrder (r : NewOrder) : Except ApiError Command := do
  let user ← parseId "user_uuid" r.user
  let parts ← r.parts.mapM (parseId "part_uuids")
  return .create user parts

/-- The `Path` extractor: the plan of a request to an order whose identifier stands in the path. -/
def withOrder (segment : List Char) (plan : String → Plan) : Plan :=
  match percentDecode? segment with
  | some text => plan text
  | none => .reply Rejection.undecodablePath.response

/-- The plan of a request behind the `Json` extractor. -/
def withContent {α : Type} [Wire α] (r : Request) (plan : α → Plan) : Plan :=
  match (r.content : Except Rejection α) with
  | .ok a => plan a
  | .error e => .reply e.response

/-- The plan of a request to a resource that allows its method: the handlers `check`, `render`, `create`,
`get`, `pay` and `cancel` in turn. -/
def serve (r : Request) : Resource → Plan
  | .health => .look health
  | .metrics => .look fun d => .metrics d.counters
  | .orders => withContent r fun (order : NewOrder) => planOf (newOrder order)
  | .order segment => withOrder segment fun text =>
      planOf ((parseId "order_uuid" text).map .fetch)
  | .payment segment => withOrder segment fun text => withContent r fun (p : PaymentRequest) =>
      planOf ((parseId "order_uuid" text).map fun id => .pay id p.method)
  | .cancellation segment => withOrder segment fun text =>
      planOf ((parseId "order_uuid" text).map .cancel)

/-- The answer of `CorsLayer` to the question which methods a target allows, for pages of any origin. -/
def preflight (resource : Option Resource) : Response :=
  let permitted : Response := ⟨200, [("access-control-allow-headers", "*"),
    ("access-control-allow-methods", "*")], .text ""⟩
  match resource with
  | some resource => permitted.withHeader "allow" resource.allowed
  | none => permitted

/-- The plan of a request as the router of `create_app` finds it. -/
def plan (r : Request) : Plan :=
  let resource := Resource.ofTarget? r.target
  if r.method = "OPTIONS" then .reply (preflight resource)
  else
    match resource with
    | none => .reply (.bare 404)
    | some resource =>
        if resource.allows r.method then serve r resource
        else .reply ((Response.bare 405).withHeader "allow" resource.allowed)

end Api

namespace Plan

/-- What a plan comes to the shop for. -/
def activity : Plan → Activity
  | reply _ | look _ => .look
  | command c _ => .command c

/-- The answer of a plan that was carried out. -/
def response (p : Plan) (outcome : Option Outcome) (d : Desk) : Response :=
  match p, outcome with
  | reply r, _ => r
  | look view, _ => view d
  | command _ view, some o => view o
  | command .., none => .bare 500

end Plan

/-- The response to a request whose plan was carried out, with what `CorsLayer` adds to it. -/
def Request.response (r : Request) (outcome : Option Outcome) (d : Desk) : Response :=
  let answer := (Api.plan r).response outcome d
  (if r.method = "HEAD" then answer.withoutBody else answer).forAnyOrigin

end OrderDesk
