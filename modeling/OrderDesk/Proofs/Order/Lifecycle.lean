/-
# The life of an order

An order on its own, of whatever contents, on which `Order.pay` and `Order.cancel` are called over and
over. A call works on the record in place: if it is refused, or has nothing to do, the record stays as it
is. An order that waits for its payment is settled by the first call, whichever that is; a settled order
never changes again, and what a call is told depends on its status alone.

* `Order.Mutation`, `Order.mutate` : calls of `pay` and `cancel` in place, with what they return;
* `Order.trace` : calls one after the other, each with the order before and after it;
* `Order.mutate_of_pending`, `Order.mutate_of_settled` : what one call does;
* `Order.trace_of_settled` : a settled order and any calls;
* `order_lifecycle` : any order and any calls.
-/
import OrderDesk.Proofs.Order.Rules

namespace OrderDesk

namespace Order

/-! ## Calls in place -/

/-- A call of `pay` or `cancel` on an order, with the reading of the clock it takes. -/
inductive Mutation
  | pay (method : PaymentMethod) (transaction : TransactionId) (now : Instant)
  | cancel (now : Instant)
  deriving DecidableEq

/-- What the rules say about a call: the order to be written, or nothing when there is nothing to do. -/
def attempt (o : Order) : Mutation → Except RuleViolation (Option Order)
  | .pay method transaction now => (o.pay method transaction now).map some
  | .cancel now => o.cancel now

/-- A call on an order in place: whether it changed anything, as `cancel` returns it, or why it was
refused, and the order after it. -/
def mutate (o : Order) (d : Mutation) : Except RuleViolation Bool × Order :=
  match o.attempt d with
  | .ok (some written) => (.ok true, written)
  | .ok none => (.ok false, o)
  | .error v => (.error v, o)

/-- One call with the order before it, what it returned, and the order after it. -/
structure Step where
  before : Order
  mutation : Mutation
  reply : Except RuleViolation Bool
  after : Order

/-- The calls on an order, one after the other. -/
def trace (o : Order) : List Mutation → List Step
  | [] => []
  | d :: rest => ⟨o, d, (o.mutate d).1, (o.mutate d).2⟩ :: (o.mutate d).2.trace rest

theorem map_mutation_trace (o : Order) (mutations : List Mutation) :
    (o.trace mutations).map Step.mutation = mutations := by
  induction mutations generalizing o with
  | nil => rfl
  | cons d rest ih => rw [trace, List.map_cons, ih]

/-! ## One call -/

/-- The order as a call settles it: the status and the time of the change, and the payment of a call that
pays, which is what that call was given. -/
def settledBy (o : Order) : Mutation → Order
  | .pay method transaction now =>
      { o with status := .paid, payment := some ⟨method, transaction⟩, updatedAt := now }
  | .cancel now => { o with status := .cancelled, updatedAt := now }

/-- What a call is told when the order is settled already. -/
inductive Declines : OrderStatus → Mutation → Except RuleViolation Bool → Prop
  | pay {status : OrderStatus} {method : PaymentMethod} {transaction : TransactionId} {now : Instant} :
      Declines status (.pay method transaction now) (.error (.transition status .pay))
  | cancelPaid {now : Instant} :
      Declines .paid (.cancel now) (.error (.transition .paid .cancel))
  | cancelCancelled {now : Instant} : Declines .cancelled (.cancel now) (.ok false)

theorem Declines.of_pay {status : OrderStatus} {method : PaymentMethod} {transaction : TransactionId}
    {now : Instant} {reply : Except RuleViolation Bool}
    (h : Declines status (.pay method transaction now) reply) :
    reply = .error (.transition status .pay) := by
  cases h
  rfl

variable {o : Order}

theorem mutate_of_pending (h : o.status = .pending) (d : Mutation) :
    o.mutate d = (.ok true, o.settledBy d) := by
  have hattempt : o.attempt d = .ok (some (o.settledBy d)) := by
    cases d with
    | pay method transaction now =>
        have hpay : o.pay method transaction now = .ok (o.settledBy (.pay method transaction now)) :=
          pay_eq_ok_iff.2 ⟨h, rfl⟩
        rw [attempt, hpay]
        rfl
    | cancel now => exact cancel_eq_ok_some_iff.2 ⟨h, rfl⟩
  rw [mutate, hattempt]

theorem settledBy_status_ne (o : Order) (d : Mutation) : (o.settledBy d).status ≠ .pending := by
  cases d with
  | pay => exact OrderStatus.noConfusion
  | cancel => exact OrderStatus.noConfusion

/-- A call on a settled order is declined and leaves it alone. -/
theorem mutate_of_settled (h : o.status ≠ .pending) (d : Mutation) :
    Declines o.status d (o.mutate d).1 ∧ (o.mutate d).2 = o := by
  cases hstatus : o.status with
  | pending => exact absurd hstatus h
  | paid =>
      cases d with
      | pay => simp [mutate, attempt, pay, hstatus, OrderStatus.canPay, Except.map, Declines.pay]
      | cancel now =>
          simp [mutate, attempt, cancel_eq_error_iff.2 ⟨hstatus, rfl⟩, Declines.cancelPaid]
  | cancelled =>
      cases d with
      | pay => simp [mutate, attempt, pay, hstatus, OrderStatus.canPay, Except.map, Declines.pay]
      | cancel now =>
          simp [mutate, attempt, cancel_eq_ok_none_iff.2 hstatus, Declines.cancelCancelled]

/-- A call that is refused, or has nothing to do, leaves the order alone. -/
theorem mutate_of_reply_ne {d : Mutation} (h : (o.mutate d).1 ≠ .ok true) : (o.mutate d).2 = o := by
  by_cases hstatus : o.status = .pending
  · rw [mutate_of_pending hstatus] at h
    exact absurd rfl h
  · exact (mutate_of_settled hstatus d).2

/-! ## Many calls -/

/-- However often a settled order is called, every call is declined and leaves it alone. -/
theorem trace_of_settled (h : o.status ≠ .pending) (mutations : List Mutation) :
    ∀ e ∈ o.trace mutations, e.before = o ∧ e.after = o ∧ Declines o.status e.mutation e.reply := by
  induction mutations with
  | nil => simp [trace]
  | cons d rest ih =>
      obtain ⟨hreply, hafter⟩ := mutate_of_settled h d
      intro e he
      rw [trace, hafter, List.mem_cons] at he
      rcases he with rfl | he
      · exact ⟨rfl, rfl, hreply⟩
      · exact ih e he

theorem after_of_reply_ne (o : Order) (mutations : List Mutation) :
    ∀ e ∈ o.trace mutations, e.reply ≠ .ok true → e.after = e.before := by
  induction mutations generalizing o with
  | nil => simp [trace]
  | cons d rest ih =>
      intro e he
      rw [trace, List.mem_cons] at he
      rcases he with rfl | he
      · exact mutate_of_reply_ne
      · exact ih _ e he

end Order

open OrderDesk.Order in
/-- The life of an order, whatever is in its record. If it waits for its payment, the first call succeeds
and settles it: the status and the time of the change are written, and the payment of a call that pays,
and nothing else; no later call changes anything. If it does not wait, no call changes anything. In
either case a call that is refused or has nothing to do leaves the order as it is, and after the first
call every call is declined: a payment by the name of the status, and so is a cancellation of a paid
order, while that of a cancelled order has nothing to do. -/
theorem order_lifecycle (o : Order) (first : Mutation) (rest : List Mutation) :
    ∃ opening later, o.trace (first :: rest) = opening :: later ∧
      opening.before = o ∧ opening.mutation = first ∧ later.map Step.mutation = rest ∧
      (o.status = .pending →
        opening.reply = .ok true ∧ opening.after = o.settledBy first ∧ opening.after ≠ o ∧
          ∀ e ∈ later, e.before = opening.after ∧ e.after = opening.after) ∧
      (o.status ≠ .pending →
        ∀ e ∈ opening :: later, e.before = o ∧ e.after = o ∧ Declines o.status e.mutation e.reply) ∧
      (∀ e ∈ opening :: later, e.reply ≠ .ok true → e.after = e.before) ∧
      ∀ e ∈ later, Declines e.before.status e.mutation e.reply := by
  have hsettled : (o.mutate first).2.status ≠ .pending := by
    by_cases h : o.status = .pending
    · rw [mutate_of_pending h]
      exact settledBy_status_ne o first
    · rwa [(mutate_of_settled h first).2]
  have hlater := trace_of_settled hsettled rest
  refine ⟨_, _, rfl, rfl, rfl, map_mutation_trace _ rest, fun h => ?_,
    fun h => trace_of_settled h (first :: rest), after_of_reply_ne o (first :: rest), fun e he => ?_⟩
  · rw [mutate_of_pending h] at hlater ⊢
    refine ⟨rfl, rfl, fun heq => ?_, fun e he => ⟨(hlater e he).1, (hlater e he).2.1⟩⟩
    exact settledBy_status_ne o first ((congrArg Order.status heq).trans h)
  · obtain ⟨hbefore, -, hreply⟩ := hlater e he
    rwa [hbefore]

/-- A record that no desk would store: it waits for its payment and has one already, with a total below
zero, and was changed before it was placed. -/
def Order.oddOrder : Order where
  id := ⟨⟨1#128⟩⟩
  user := ⟨⟨2#128⟩⟩
  parts := []
  total := ⟨-5, by decide, by decide⟩
  status := .pending
  payment := some ⟨.sbp, ⟨⟨3#128⟩⟩⟩
  version := ⟨7⟩
  createdAt := ⟨⟨2023, 10, 5, by decide⟩, 36000, 25, by decide, by decide, by decide⟩
  updatedAt := ⟨⟨2023, 10, 4, by decide⟩, 72000, 50, by decide, by decide, by decide⟩

open OrderDesk.Order in
/-- The odd record is cancelled once, keeps its payment, and is not paid later on; as a paid one, it is
not cancelled. -/
theorem order_lifecycle_odd :
    let now : Instant := oddOrder.createdAt
    let paid : Order := { oddOrder with status := .paid }
    let cancelled : Order := { oddOrder with status := .cancelled, updatedAt := now }
    let mutations : List Mutation := [.cancel now, .pay .card ⟨⟨4#128⟩⟩ now]
    (oddOrder.status = .pending ∧
      ∀ e ∈ oddOrder.trace mutations, e.after = cancelled ∧
        (e.reply = .ok true ∨ e.reply = .error (.transition .cancelled .pay))) ∧
      paid.status ≠ .pending ∧ ∀ e ∈ paid.trace mutations, e.after = paid := by
  intro now paid cancelled mutations
  obtain ⟨opening, later, htrace, -, -, hlater, hpending, -, -, hdeclines⟩ :=
    order_lifecycle oddOrder (.cancel now) [.pay .card ⟨⟨4#128⟩⟩ now]
  obtain ⟨opening', later', htrace', -, -, -, -, hsettled, -, -⟩ :=
    order_lifecycle paid (.cancel now) [.pay .card ⟨⟨4#128⟩⟩ now]
  obtain ⟨hreply, hafter, -, hstays⟩ := hpending rfl
  refine ⟨⟨rfl, ?_⟩, by decide, ?_⟩
  · rw [htrace]
    intro e he
    rcases List.mem_cons.1 he with rfl | he
    · exact ⟨hafter, Or.inl hreply⟩
    · obtain ⟨hbefore, hsame⟩ := hstays e he
      have hmutation : e.mutation ∈ later.map Step.mutation := List.mem_map_of_mem he
      have hdecline := hdeclines e he
      rw [hlater, List.mem_singleton] at hmutation
      rw [hmutation, hbefore, hafter] at hdecline
      exact ⟨hsame.trans hafter, Or.inr hdecline.of_pay⟩
  · rw [htrace']
    exact fun e he => (hsettled (by decide) e he).2.1

end OrderDesk
