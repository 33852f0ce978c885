/-
# Exchanges

Between two steps a call asks for something and is answered: the store gives or writes a record, or one
of the services answers. An exchange is one such question with its answer; the log of a call lists those
that it has had.

* `Exchange.Honest` : an answer of the kind that is needed, as the store gives it where the store is
  asked;
* `Exchange.read?`, `Exchange.written?`, `Exchange.method?`, `Exchange.payment?` : what came of it.
-/
import OrderDesk.Desk.Basic
import OrderDesk.Payments

namespace OrderDesk

/-- A need of a call that was met: when, with which draw, and with which answer. -/
structure Exchange where
  time : Nat
  need : Need
  draw : Draw
  answer : Answer

namespace Exchange

/-- Whether an answer is one that the need can get. What the store answers speaks of the record that it
was asked for; everything else may answer as it likes. -/
def Honest (x : Exchange) : Prop :=
  match x.need, x.answer with
  | .record id, .record (.ok o) => o.id = id
  | .record id, .record (.error e) => e = .notFound id
  | .write _ v, .written (.ok v') => v' = v.next
  | .write o v, .written (.error e) => ∃ actual, actual ≠ v ∧ e = .conflict o.id v actual
  | .prices _, .prices _ | .method _, .method _ | .charge .., .charge _ => True
  | _, _ => False

/-- The record that was read. -/
def read? (x : Exchange) : Option Order :=
  match x.need, x.answer with
  | .record _, .record (.ok o) => some o
  | _, _ => none

/-- The record that was left in the store, if a write was accepted. -/
def written? (x : Exchange) : Option Order :=
  match x.need, x.answer with
  | .write o _, .written (.ok v) => some (o.withVersion v)
  | _, _ => none

/-- The method that a requested name was found to stand for. -/
def method? (x : Exchange) : Option PaymentMethod :=
  match x.need, x.answer with
  | .method _, .method (.ok m) => some m
  | _, _ => none

/-- The payment that was made. -/
def payment? (x : Exchange) : Option Payment :=
  match x.need, x.answer with
  | .charge user order m, .charge (.ok t) => some ⟨t, user, order, m⟩
  | _, _ => none

/-! ## The answers to a need -/

theorem Honest.prices {x : Exchange} {ids : List PartId} (hx : x.Honest)
    (hn : x.need = .prices ids) : ∃ r, x.answer = .prices r := by
  obtain ⟨time, need, draw, answer⟩ := x
  cases hn
  cases answer <;> simp only [Honest] at hx
  exact ⟨_, rfl⟩

theorem Honest.record {x : Exchange} {id : OrderId} (hx : x.Honest) (hn : x.need = .record id) :
    (∃ o, x.answer = .record (.ok o) ∧ o.id = id) ∨ x.answer = .record (.error (.notFound id)) := by
  obtain ⟨time, need, draw, answer⟩ := x
  cases hn
  cases answer <;> simp only [Honest] at hx
  rename_i r
  cases r with
  | error e => exact Or.inr (by rw [show e = .notFound id from hx])
  | ok o => exact Or.inl ⟨o, rfl, hx⟩

theorem Honest.method {x : Exchange} {requested : String} (hx : x.Honest)
    (hn : x.need = .method requested) : ∃ r, x.answer = .method r := by
  obtain ⟨time, need, draw, answer⟩ := x
  cases hn
  cases answer <;> simp only [Honest] at hx
  exact ⟨_, rfl⟩

theorem Honest.charge {x : Exchange} {user : UserId} {order : OrderId} {m : PaymentMethod}
    (hx : x.Honest) (hn : x.need = .charge user order m) : ∃ r, x.answer = .charge r := by
  obtain ⟨time, need, draw, answer⟩ := x
  cases hn
  cases answer <;> simp only [Honest] at hx
  exact ⟨_, rfl⟩

theorem Honest.write {x : Exchange} {o : Order} {v : Version} (hx : x.Honest)
    (hn : x.need = .write o v) :
    x.answer = .written (.ok v.next) ∨
      ∃ actual, actual ≠ v ∧ x.answer = .written (.error (.conflict o.id v actual)) := by
  obtain ⟨time, need, draw, answer⟩ := x
  cases hn
  cases answer <;> simp only [Honest] at hx
  rename_i r
  cases r with
  | error e =>
      obtain ⟨actual, hne, he⟩ := hx
      exact Or.inr ⟨actual, hne, by rw [he]⟩
  | ok v' => exact Or.inl (by rw [show v' = v.next from hx])

/-- A read asks for the record that it gets. -/
theorem need_of_read? {x : Exchange} {r : Order} (hx : x.Honest) (h : x.read? = some r) :
    x.need = .record r.id ∧ x.answer = .record (.ok r) := by
  obtain ⟨time, need, draw, answer⟩ := x
  cases need <;> cases answer <;> simp only [read?, reduceCtorEq] at h
  rename_i id result
  cases result with
  | error e => cases h
  | ok o =>
      cases h
      have hid : r.id = id := hx
      exact ⟨congrArg Need.record hid.symm, rfl⟩

/-- A record that an honest answer gives was read. -/
theorem read?_of_answer {x : Exchange} {r : Order} (hx : x.Honest)
    (h : x.answer = .record (.ok r)) : x.read? = some r := by
  obtain ⟨time, need, draw, answer⟩ := x
  cases h
  cases need <;> first | rfl | exact hx.elim

/-- A payment is what its charge asked for. -/
theorem need_of_payment? {x : Exchange} {p : Payment} (h : x.payment? = some p) :
    x.need = .charge p.user p.order p.method := by
  obtain ⟨time, need, draw, answer⟩ := x
  cases need <;> cases answer <;> simp only [payment?, reduceCtorEq] at h
  rename_i user order m result
  cases result with
  | error e => cases h
  | ok t =>
      cases h
      rfl

/-- A write that is accepted leaves its order at the version after the expected one. -/
theorem need_of_written? {x : Exchange} {w : Order} (hx : x.Honest) (h : x.written? = some w) :
    ∃ o v, x.need = .write o v ∧ w = o.withVersion v.next := by
  obtain ⟨time, need, draw, answer⟩ := x
  cases need <;> cases answer <;> simp only [written?, reduceCtorEq] at h
  rename_i o v result
  cases result with
  | error e => cases h
  | ok v' =>
      cases h
      have hv : v' = v.next := hx
      exact ⟨o, v, rfl, by rw [hv]⟩

theorem answer_of_method? {x : Exchange} {m : PaymentMethod} (h : x.method? = some m) :
    x.answer = .method (.ok m) := by
  obtain ⟨time, need, draw, answer⟩ := x
  cases need <;> cases answer <;> simp only [method?, reduceCtorEq] at h
  rename_i requested result
  cases result with
  | error e => cases h
  | ok k =>
      cases h
      rfl

/-- Only a read gets a record. -/
theorem read?_eq_none {x : Exchange} (h : ∀ id, x.need ≠ .record id) : x.read? = none := by
  obtain ⟨time, need, draw, answer⟩ := x
  cases need with
  | record id => exact absurd rfl (h id)
  | _ => rfl

/-- Only a write leaves a record. -/
theorem written?_eq_none {x : Exchange} (h : ∀ o v, x.need ≠ .write o v) : x.written? = none := by
  obtain ⟨time, need, draw, answer⟩ := x
  cases need with
  | write o v => exact absurd rfl (h o v)
  | _ => rfl

theorem written?_of_read? {x : Exchange} {r : Order} (h : x.read? = some r) : x.written? = none := by
  apply written?_eq_none
  intro o v hn
  simp [read?, hn] at h

theorem read?_of_method? {x : Exchange} {m : PaymentMethod} (h : x.method? = some m) :
    x.read? = none := by
  apply read?_eq_none
  intro id hn
  simp [method?, hn] at h

theorem written?_of_method? {x : Exchange} {m : PaymentMethod} (h : x.method? = some m) :
    x.written? = none := by
  apply written?_eq_none
  intro o v hn
  simp [method?, hn] at h

theorem read?_of_payment? {x : Exchange} {p : Payment} (h : x.payment? = some p) :
    x.read? = none := by
  apply read?_eq_none
  intro id hn
  simp [payment?, hn] at h

theorem written?_of_payment? {x : Exchange} {p : Payment} (h : x.payment? = some p) :
    x.written? = none := by
  apply written?_eq_none
  intro o v hn
  simp [payment?, hn] at h

end Exchange

end OrderDesk
