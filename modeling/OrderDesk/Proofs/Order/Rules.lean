/-
# What the rules write

Paying and cancelling are allowed from the waiting status only, and change nothing but the status, the
payment and the time of the last change. A placed order waits for its payment.
-/
import OrderDesk.Order.Basic

namespace OrderDesk.Order

/-- Paying writes the status, the payment and the time, and only on an order that waits. -/
theorem pay_eq_ok_iff {r o : Order} {m : PaymentMethod} {t : TransactionId} {now : Instant} :
    r.pay m t now = .ok o ↔
      r.status = .pending ∧
        o = { r with status := .paid, payment := some ⟨m, t⟩, updatedAt := now } := by
  unfold pay
  cases hs : r.status with
  | pending =>
      simp only [OrderStatus.canPay, if_true, Except.ok.injEq, true_and]
      exact eq_comm
  | paid => simp [OrderStatus.canPay]
  | cancelled => simp [OrderStatus.canPay]

/-- Cancelling writes the status and the time, and only on an order that waits. -/
theorem cancel_eq_ok_some_iff {r o : Order} {now : Instant} :
    r.cancel now = .ok (some o) ↔
      r.status = .pending ∧ o = { r with status := .cancelled, updatedAt := now } := by
  unfold cancel
  cases hs : r.status with
  | pending =>
      simp only [OrderStatus.canCancel, if_true, reduceCtorEq, if_false, Except.ok.injEq,
        Option.some.injEq, true_and]
      exact eq_comm
  | paid => simp [OrderStatus.canCancel]
  | cancelled => simp [OrderStatus.canCancel]

/-- There is nothing to cancel exactly in an order that is cancelled. -/
theorem cancel_eq_ok_none_iff {r : Order} {now : Instant} :
    r.cancel now = .ok none ↔ r.status = .cancelled := by
  unfold cancel
  cases r.status <;> simp [OrderStatus.canCancel]

/-- Cancelling is refused exactly in the one status that does not allow it. -/
theorem cancel_eq_error_iff {r : Order} {now : Instant} {v : RuleViolation} :
    r.cancel now = .error v ↔ r.status = .paid ∧ v = .transition .paid .cancel := by
  unfold cancel
  cases r.status <;> simp [OrderStatus.canCancel, eq_comm]

/-- A placed order has parts, is not negative, and waits for its payment at the initial version. -/
theorem place_eq_ok_iff {id : OrderId} {now : Instant} {user : UserId} {parts : List PartId}
    {total : Money} {o : Order} :
    place id now user parts total = .ok o ↔
      parts ≠ [] ∧ total.isNegative = false ∧
        o = ⟨id, user, parts, total, .pending, none, .initial, now, now⟩ := by
  unfold place
  by_cases hp : parts = []
  · simp [hp]
  · cases hn : total.isNegative with
    | true => simp [hp]
    | false =>
        simp only [hp, if_false, Bool.false_eq_true, Except.ok.injEq, not_false_eq_true, ne_eq,
          true_and]
        exact eq_comm

end OrderDesk.Order
