/-
# Calls

The operations `create_order`, `get_order`, `pay_order` and `cancel_order` of the orchestrator, cut at
every await. Between two steps a call stands at a point where it needs something from outside: a record of
the store, a write, prices, a payment method or a charge. `Call.need` says what, and `Call.resume` goes on
with the answer, up to the next need or the end. Whatever happens elsewhere between the two is no concern
of the call; this is where calls interleave.

* `try_create_order` : prices by `list_parts`, then the write `insert_new` of the new order;
* `get_order` : one read by `get`;
* `try_pay_order` : a read by `get`, the payment method by `supported_method`, a charge by `pay_order` of
  the payment service, then the write `update` of the paid order;
* `try_cancel_order` : a read by `get`, then the write `update` of the cancelled order, unless it was
  cancelled before.
-/
import OrderDesk.Desk.Pricing

namespace OrderDesk

/-! ## Commands and their results -/

/-- What a client asks the desk to do: `create_order`, `get_order`, `pay_order` and `cancel_order`, with
their arguments. -/
inductive Command
  | create (user : UserId) (parts : List PartId)
  | fetch (id : OrderId)
  | pay (id : OrderId) (method : String)
  | cancel (id : OrderId)
  deriving DecidableEq

/-- The result of a command that succeeded. A cancelled order is given with whether this command
cancelled it, which is what the counter of `cancel_order` depends on. -/
inductive Receipt
  | created (id : OrderId) (total : Money)
  | fetched (order : Order)
  | paid (transaction : TransactionId)
  | cancelled (order : Order) (changed : Bool)
  deriving DecidableEq

/-- The result of a command. -/
abbrev Outcome := Except OrderError Receipt

/-! ## Needs and answers -/

/-- What a call needs from outside: `list_parts`, `get`, `supported_method`, `pay_order` of the payment
service, and `put` with the version that the write expects. -/
inductive Need
  | prices (ids : List PartId)
  | record (id : OrderId)
  | method (requested : String)
  | charge (user : UserId) (order : OrderId) (method : PaymentMethod)
  | write (order : Order) (expected : Version)
  deriving DecidableEq

/-- What a call is given: the results of these five operations. -/
inductive Answer
  | prices (result : Except GatewayError (List PartSnapshot))
  | record (result : Except StoreError Order)
  | method (result : Except GatewayError PaymentMethod)
  | charge (result : Except GatewayError TransactionId)
  | written (result : Except StoreError Version)

/-- What a step of a call may use beside the answer: the identifier that a new order gets, and the
reading of the clock. -/
structure Draw where
  id : OrderId
  now : Instant

/-! ## The points where a call stands -/

/-- A command at work, at the await where it stands: `pricing` and `inserting` are those of
`try_create_order`, `loading` that of `get_order`, `checking` to `updatingPaid` those of `try_pay_order`,
`cancelling` and `updatingCancelled` those of `try_cancel_order`. -/
inductive Call
  | pricing (user : UserId) (parts : List PartId)
  | inserting (order : Order)
  | loading (id : OrderId)
  | checking (id : OrderId) (requested : String)
  | choosing (order : Order) (requested : String)
  | charging (order : Order) (method : PaymentMethod)
  | updatingPaid (order : Order) (transaction : TransactionId)
  | cancelling (id : OrderId)
  | updatingCancelled (order : Order)
  | finished (outcome : Outcome)

namespace Call

/-- A call that failed. -/
abbrev failed (e : OrderError) : Call := finished (.error e)

/-- A call that succeeded. -/
abbrev succeeded (r : Receipt) : Call := finished (.ok r)

/-- The call that a command starts. An order without parts fails before anything is needed. -/
def start : Command → Call
  | .create user parts => if parts = [] then failed .noParts else pricing user parts
  | .fetch id => loading id
  | .pay id requested => checking id requested
  | .cancel id => cancelling id

/-- What a call needs next; a finished call needs nothing. The write of a new order is `insert_new`, which
expects the version of no record; the others are `update`, which expects the version that was read. -/
def need : Call → Option Need
  | pricing _ parts => some (.prices (Pricing.distinct parts))
  | inserting order => some (.write order .initial)
  | loading id => some (.record id)
  | checking id _ => some (.record id)
  | choosing _ requested => some (.method requested)
  | charging order method => some (.charge order.user order.id method)
  | updatingPaid order _ => some (.write order order.version)
  | cancelling id => some (.record id)
  | updatingCancelled order => some (.write order order.version)
  | finished _ => none

/-! ## Going on with an answer -/

/-- `try_create_order` from the answer of `list_parts` on, up to `insert_new`. -/
def afterPrices (draw : Draw) (user : UserId) (parts : List PartId) :
    Except GatewayError (List PartSnapshot) → Call
  | .error e => failed (.inventoryUnavailable e.message)
  | .ok snapshots =>
      match Pricing.total snapshots parts with
      | .error e => failed e
      | .ok total =>
          match Order.place draw.id draw.now user parts total with
          | .error v => failed (.rule v)
          | .ok order => inserting order

/-- `try_pay_order` from the answer of `get` on, up to `supported_method`: the guard on the status. -/
def afterPayRead (id : OrderId) (requested : String) : Except StoreError Order → Call
  | .error e => failed (.ofStore e)
  | .ok order =>
      match order.status with
      | .pending => choosing order requested
      | .paid => failed (.alreadyPaid id)
      | .cancelled => failed (.cancelled id)

/-- `try_pay_order` from the answer of the payment service's `pay_order` on, up to `update`. -/
def afterCharge (draw : Draw) (order : Order) (method : PaymentMethod) :
    Except GatewayError TransactionId → Call
  | .error e => failed (.ofPayment e)
  | .ok transaction =>
      match order.pay method transaction draw.now with
      | .error v => failed (.ofRule order.id v)
      | .ok paid => updatingPaid paid transaction

/-- `try_cancel_order` from the answer of `get` on, up to `update` or, for a cancelled order, its end. -/
def afterCancelRead (draw : Draw) (id : OrderId) : Except StoreError Order → Call
  | .error e => failed (.ofStore e)
  | .ok order =>
      match order.cancel draw.now with
      | .error v => failed (.ofRule id v)
      | .ok none => succeeded (.cancelled order false)
      | .ok (some changed) => updatingCancelled changed

/-- The end of a call whose last need was a write, `insert_new` or `update`; `receipt` is its result at the
new version. -/
def afterWrite (receipt : Version → Receipt) : Except StoreError Version → Call
  | .error e => failed (.ofStore e)
  | .ok v => succeeded (receipt v)

/-- Goes on with the answer to the need of a call. An answer of another kind is ignored. -/
def resume (c : Call) (draw : Draw) (a : Answer) : Call :=
  match c, a with
  | pricing user parts, .prices r => afterPrices draw user parts r
  | inserting order, .written r => afterWrite (fun _ => .created order.id order.total) r
  | loading _, .record (.ok order) => succeeded (.fetched order)
  | loading _, .record (.error e) => failed (.ofStore e)
  | checking id requested, .record r => afterPayRead id requested r
  | choosing order _, .method (.ok method) => charging order method
  | choosing _ _, .method (.error e) => failed (.ofPayment e)
  | charging order method, .charge r => afterCharge draw order method r
  | updatingPaid _ transaction, .written r => afterWrite (fun _ => .paid transaction) r
  | cancelling id, .record r => afterCancelRead draw id r
  | updatingCancelled order, .written r => afterWrite (fun v => .cancelled (order.withVersion v) true) r
  | c, _ => c

/-- The result of a call that is finished. -/
def outcome? : Call → Option Outcome
  | finished o => some o
  | _ => none

end Call

end OrderDesk
