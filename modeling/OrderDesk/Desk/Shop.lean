/-
# The shop

The orchestrator together with `InMemoryOrderStore`, `InMemoryInventoryService`, `InMemoryPaymentService`
and the deadline of `with_gateway_timeout`, a source of random numbers and a clock. Random numbers and
clock readings are given by how many were drawn before.

A call to a service, `list_parts` or `pay_order` inside `bounded`, is two events: it arrives
(`Shop.consult?`), and later either its answer comes (`Shop.deliver`) or its deadline passes
(`Shop.expire`). Everything may happen between the two.
-/
import OrderDesk.Desk.Basic
import OrderDesk.Catalog.Seed
import OrderDesk.Payments

namespace OrderDesk

/-- The desk and everything it works with; `deadline` is the `gateway_timeout`. -/
structure Shop where
  desk : Desk
  inventory : Inventory
  payments : Payments
  deadline : Option Span
  random : Nat → BitVec 128
  clock : Nat → Instant
  drawn : Nat

/-- A call to a service that has arrived, with what was read on arrival: whether `list_parts` is to fail,
and the latency. -/
structure Ticket where
  fails : Bool
  latency : Span

namespace Shop

/-- The shop at its opening. -/
def opening (inventory : Inventory) (deadline : Option Span) (random : Nat → BitVec 128)
    (clock : Nat → Instant) : Shop :=
  ⟨.empty, inventory, .empty, deadline, random, clock, 0⟩

/-! ## Drawing identifiers -/

/-- The identifier that would be drawn next, a random one of version 4. -/
def nextId (s : Shop) {kind : IdKind} : Id kind :=
  ⟨Uuid.ofRandom (s.random s.drawn)⟩

/-- What a step may use. -/
def draw (s : Shop) : Draw :=
  ⟨s.nextId, s.clock s.drawn⟩

/-- The shop after an identifier was drawn. -/
def spend (s : Shop) : Shop :=
  { s with drawn := s.drawn + 1 }

/-! ## Steps of a call -/

/-- Starts the call of a command. -/
def start (s : Shop) (command : Command) : Shop × Call :=
  let (desk, c) := s.desk.start command
  ({ s with desk }, c)

/-- One step of a call, with an answer from outside for the case that it needs one. -/
def step (s : Shop) (c : Call) (outside : Answer) : Shop × Call :=
  let (desk, next) := s.desk.step c s.draw outside
  ({ s with desk }.spend, next)

/-- One step of a call that waits for no service: the store answers for itself, and `supported_method` is
known on the spot. -/
def stepAtOnce (s : Shop) (c : Call) : Shop × Call :=
  let requested :=
    match c.need with
    | some (.method requested) => requested
    | _ => ""
  s.step c (.method (supportedMethod requested))

/-! ## Calls to the services -/

/-- `list_parts` or `pay_order` arrives at its service, if a call needs it: the part before the latency. -/
def consult? (s : Shop) (c : Call) : Option (Shop × Ticket) :=
  match c.need with
  | some (.prices _) =>
      some ({ s with inventory := s.inventory.arrive }, ⟨s.inventory.fails, s.inventory.latency⟩)
  | some (.charge ..) =>
      some ({ s with payments := s.payments.arrive }, ⟨false, s.payments.latency⟩)
  | _ => none

/-- The answer of a service comes: the part of `list_parts` or `pay_order` after the latency. -/
def deliver (s : Shop) (c : Call) (t : Ticket) : Shop × Call :=
  match c.need with
  | some (.prices ids) => s.step c (.prices (s.inventory.answer t.fails ids))
  | some (.charge user order method) =>
      let (payments, result) := s.payments.charge s.nextId user order method
      { s with payments }.spend.step c (.charge result)
  | _ => (s, c)

/-- The deadline of a call to a service passes, and `bounded` gives `DeadlineExceeded`. -/
def expire (s : Shop) (c : Call) (limit : Span) : Shop × Call :=
  match c.need with
  | some (.prices _) => s.step c (.prices (.error (.deadlineExceeded limit)))
  | some (.charge ..) => s.step c (.charge (.error (.deadlineExceeded limit)))
  | _ => (s, c)

/-! ## The services without the desk -/

/-- `list_parts` while nothing else happens. -/
def prices (s : Shop) (ids : List PartId) : Shop × Except GatewayError (List PartSnapshot) :=
  ({ s with inventory := s.inventory.arrive }, s.inventory.answer s.inventory.fails ids)

/-- `pay_order` of the payment service while nothing else happens. -/
def charge (s : Shop) (user : UserId) (order : OrderId) (method : PaymentMethod) :
    Shop × Except GatewayError TransactionId :=
  let (payments, result) := s.payments.arrive.charge s.nextId user order method
  ({ s with payments }.spend, result)

end Shop

end OrderDesk
