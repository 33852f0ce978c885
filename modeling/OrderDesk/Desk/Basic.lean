/-
# The desk

The orchestrator over the order store in memory, with what both of them count, and one step of a call on
it. A step is given an answer from outside for the case that the call needs one of the inventory or the
payment service; the needs that concern the store are met by the store itself.
-/
import OrderDesk.Desk.Counters

namespace OrderDesk

/-- The store of orders and what is counted. -/
structure Desk where
  store : Store
  counters : Counters

namespace Desk

/-- The desk without orders. -/
def empty : Desk := ⟨.empty, []⟩

/-- `put` of the store; a write that finds another version than expected is counted in
`order_store_conflicts_total`. -/
def put (d : Desk) (o : Order) (expected : Option Version) : Desk × Except StoreError Version :=
  match d.store.put o expected with
  | .ok (store, v) => ({ d with store }, .ok v)
  | .error e => ({ d with counters := d.counters.increment .conflicts }, .error e)

/-- Meets a need: the store answers for itself, and `outside` is the answer of everything else. -/
def serve (d : Desk) (n : Need) (outside : Answer) : Desk × Answer :=
  match n with
  | .record id => (d, .record (d.store.get id))
  | .write o expected => (d.put o (some expected)).map id .written
  | .prices _ | .method _ | .charge .. => (d, outside)

/-- Counts the end of an operation by `observe`, if the call has come to it. -/
def conclude (d : Desk) (operation : Option Operation) (c : Call) : Desk :=
  match operation, c.outcome? with
  | some operation, some o => { d with counters := d.counters.observe operation o }
  | _, _ => d

/-- Starts the call of a command. -/
def start (d : Desk) (command : Command) : Desk × Call :=
  let c := Call.start command
  (d.conclude command.operation? c, c)

/-- One step of a call: its need is met and it goes on to the next. -/
def step (d : Desk) (c : Call) (draw : Draw) (outside : Answer) : Desk × Call :=
  match c.need with
  | none => (d, c)
  | some n =>
      let (d, a) := d.serve n outside
      let next := c.resume draw a
      (d.conclude c.operation? next, next)

end Desk

end OrderDesk
