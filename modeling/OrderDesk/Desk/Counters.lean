/-
# Counters

What the orchestrator and the store count: the orders that were created, paid and cancelled, the writes
that found another version than expected, and for every operation that goes through `observe` how often it
ended and how often it failed in which way.
-/
import OrderDesk.Desk.Call

namespace OrderDesk

/-! ## Names -/

/-- The operations that end in `observe`; `get_order` does not. -/
inductive Operation
  | create
  | pay
  | cancel
  deriving DecidableEq

/-- The label of an operation. -/
def Operation.label : Operation → String
  | create => "create_order"
  | pay => "pay_order"
  | cancel => "cancel_order"

/-- The operation that a command is observed as. -/
def Command.operation? : Command → Option Operation
  | .create .. => some .create
  | .fetch _ => none
  | .pay .. => some .pay
  | .cancel _ => some .cancel

/-- The operation that a call at work is observed as. -/
def Call.operation? : Call → Option Operation
  | .pricing .. | .inserting _ => some .create
  | .checking .. | .choosing .. | .charging .. | .updatingPaid .. => some .pay
  | .cancelling _ | .updatingCancelled _ => some .cancel
  | .loading _ | .finished _ => none

/-- The things that are counted. -/
inductive Counter
  | created
  | paid
  | cancelled
  | conflicts
  | ended (operation : Operation)
  | failed (operation : Operation) (kind : ErrorKind)
  deriving DecidableEq

/-- The name of a counter with its labels in alphabetical order. -/
def Counter.name : Counter → String
  | created => "orders_created_total\x7b\x7d"
  | paid => "orders_paid_total\x7b\x7d"
  | cancelled => "orders_cancelled_total\x7b\x7d"
  | conflicts => "order_store_conflicts_total\x7b\x7d"
  | ended operation =>
      "order_operation_duration_seconds_count\x7boperation=\"" ++ operation.label ++ "\"\x7d"
  | failed operation kind =>
      "order_operation_failures_total\x7bkind=\"" ++ kind.label ++ "\",operation=\"" ++
        operation.label ++ "\"\x7d"

/-! ## Values -/

/-- The counters that were ever touched, with their values. -/
abbrev Counters := List (Counter × Nat)

namespace Counters

/-- The value of a counter. -/
def value : Counters → Counter → Nat
  | [], _ => 0
  | (d, n) :: rest, c => if d = c then n else value rest c

/-- The counters after one of them is raised by one. -/
def increment (c : Counter) : Counters → Counters
  | [] => [(c, 1)]
  | (d, n) :: rest => if c = d then (d, n + 1) :: rest else (d, n) :: increment c rest

/-- Raising a counter adds one to it and nothing to any other. -/
theorem value_increment (m : Counters) (c d : Counter) :
    (increment c m).value d = m.value d + if c = d then 1 else 0 := by
  induction m with
  | nil => simp [increment, value]
  | cons e rest ih =>
      obtain ⟨k, n⟩ := e
      unfold increment
      split
      · rename_i hk
        subst hk
        by_cases h : c = d <;> simp [value, h]
      · rename_i hk
        by_cases h : k = d
        · have hd : ¬c = d := fun e => hk (e.trans h.symm)
          simp [value, h, hd]
        · simp [value, h, ih]

/-- The counter of a success. `cancel_order` raises none if the order was cancelled before. -/
def successes : Receipt → List Counter
  | .created .. => [.created]
  | .fetched _ => []
  | .paid _ => [.paid]
  | .cancelled _ changed => if changed then [.cancelled] else []

/-- The counters that the end of an operation raises: that of its success, and those of `observe`, of
which the number of recorded durations is kept, not the durations. -/
def raised (operation : Operation) : Outcome → List Counter
  | .ok receipt => .ended operation :: successes receipt
  | .error e => [.ended operation, .failed operation e.kind]

/-- The counters after an operation ended in this way. -/
def observe (m : Counters) (operation : Operation) (o : Outcome) : Counters :=
  (raised operation o).foldl (fun m c => increment c m) m

end Counters

end OrderDesk
