/-
# What payments are charged for

A payment is charged for once, after it has read a waiting order and learned its method. If the charge
is made, the payment succeeds or comes too late for its order; a payment that fails otherwise was not
charged for.

* `PayEnd.payments` : which ends of a payment leave a record;
* `PayEnd.answered_eq` : which ends come after a charge;
* `Course.payment_of_written?` : a paid record was left by a payment that was charged for.
-/
import OrderDesk.Proofs.Shop.Books

namespace OrderDesk

/-! ## Charges in the log -/

namespace Exchange

variable {x : Exchange}

theorem isCharge_of_read? {r : Order} (h : x.read? = some r) : x.need.isCharge = false := by
  cases hn : x.need with
  | charge user order m => simp [read?, hn] at h
  | _ => rfl

theorem isCharge_of_payment? {p : Payment} (h : x.payment? = some p) : x.need.isCharge = true := by
  rw [need_of_payment? h]
  rfl

theorem isCharge_of_written? {w : Order} (h : x.written? = some w) : x.need.isCharge = false := by
  cases hn : x.need with
  | charge user order m => simp [written?, hn] at h
  | _ => rfl

theorem payment?_eq_none (h : x.need.isCharge = false) : x.payment? = none := by
  rw [Option.eq_none_iff_forall_ne_some]
  intro p hp
  rw [isCharge_of_payment? hp] at h
  cases h

end Exchange

theorem Prepared.isCharge {id : OrderId} {requested : String} {r : Order} {m : PaymentMethod}
    {x y : Exchange} (h : Prepared id requested r m x y) :
    x.need.isCharge = false ∧ y.need.isCharge = false := by
  refine ⟨Exchange.isCharge_of_read? h.read, ?_⟩
  rw [h.asked]
  rfl

/-- A call that needs a charge is a payment. -/
theorem Underway.pay_of_isCharge {command : Command} {log : List Exchange} {c : Call} {n : Need}
    (h : Underway command log c) (hn : c.need = some n) (hcharge : n.isCharge = true) :
    ∃ id requested, command = .pay id requested := by
  cases c with
  | charging r m =>
      obtain ⟨requested, x, y, hcommand, -⟩ := h
      exact ⟨r.id, requested, hcommand⟩
  | finished o => exact h.elim
  | _ =>
      cases hn
      cases hcharge

/-- A call that has been answered about a charge is a payment. -/
theorem Course.pay_of_isCharge {command : Command} {log : List Exchange} {c : Call} {x : Exchange}
    (h : Course command log c) (hx : x ∈ log) (hcharge : x.need.isCharge = true) :
    ∃ id requested, command = .pay id requested := by
  induction h with
  | start => cases hx
  | next hbefore hn _ ih =>
      rcases List.mem_append.1 hx with hx | hx
      · exact ih hx
      · rw [List.mem_singleton] at hx
        subst hx
        exact (hbefore.underway (by simp [hn])).pay_of_isCharge hn hcharge

/-! ## What the ends of a payment leave -/

namespace PayEnd

variable {id : OrderId} {requested : String} {log : List Exchange} {o : Outcome}

/-- A payment leaves one record if it succeeds or comes too late, and none otherwise. -/
theorem payments (h : PayEnd id requested log o) :
    (∃ p, log.filterMap Exchange.payment? = [p] ∧ p.order = id ∧
        ((∃ receipt, o = .ok receipt) ∨
          ∃ expected actual, o = .error (.concurrentModification id expected actual))) ∨
      log.filterMap Exchange.payment? = [] ∧
        ∃ e, o = .error e ∧ e.kind ≠ .concurrentModification := by
  cases h with
  | @turnedAway x e hn _ hkind =>
      have hx := Exchange.payment?_eq_none (x := x) (by rw [hn]; rfl)
      exact Or.inr ⟨by simp [hx], e, rfl, hkind⟩
  | @unsupported r x y e hread _ hasked _ hkind =>
      have hx := Exchange.payment?_eq_none (Exchange.isCharge_of_read? hread)
      have hy := Exchange.payment?_eq_none (x := y) (by rw [hasked]; rfl)
      exact Or.inr ⟨by simp [hx, hy], e, rfl, hkind⟩
  | @declined r m x y z e hprepared _ hz hkind =>
      have hx := Exchange.payment?_eq_none hprepared.isCharge.1
      have hy := Exchange.payment?_eq_none hprepared.isCharge.2
      exact Or.inr ⟨by simp [hx, hy, hz], e, rfl, hkind⟩
  | @conflicted r m t x y z u expected actual hprepared hz hwrite =>
      obtain ⟨p, v, hu⟩ := hwrite
      have hx := Exchange.payment?_eq_none hprepared.isCharge.1
      have hy := Exchange.payment?_eq_none hprepared.isCharge.2
      have hu' := Exchange.payment?_eq_none (x := u) (by rw [hu]; rfl)
      exact Or.inl ⟨⟨t, r.user, id, m⟩, by simp [hx, hy, hz, hu'], rfl,
        Or.inr ⟨expected, actual, rfl⟩⟩
  | @paid r m t x y z u v hprepared hz hw =>
      have hx := Exchange.payment?_eq_none hprepared.isCharge.1
      have hy := Exchange.payment?_eq_none hprepared.isCharge.2
      have hu := Exchange.payment?_eq_none (Exchange.isCharge_of_written? hw)
      exact Or.inl ⟨⟨t, r.user, id, m⟩, by simp [hx, hy, hz, hu], rfl, Or.inl ⟨_, rfl⟩⟩

/-- A prepared payment read a waiting order and named a method that there is. -/
theorem eligible_of_prepared {r : Order} {m : PaymentMethod} {x y : Exchange}
    (h : Prepared id requested r m x y) (hx : x ∈ log)
    (hmethod : y.answer = .method (supportedMethod requested)) :
    ((log.filterMap Exchange.read?).any (·.status = .pending) &&
      (supportedMethod requested).isOk) = true := by
  have hanswer := Exchange.answer_of_method? h.method
  rw [hmethod, Answer.method.injEq] at hanswer
  have hread : (log.filterMap Exchange.read?).any (·.status = .pending) = true :=
    List.any_eq_true.2 ⟨r, List.mem_filterMap.2 ⟨x, hx, h.read⟩, by simp [h.waiting]⟩
  rw [hread, hanswer]
  rfl

/-- A payment was charged for exactly if it read a waiting order and named a method that there is. -/
theorem answered_eq (h : PayEnd id requested log o)
    (hmethods : ∀ x ∈ log, ∀ name, x.need = .method name →
      x.answer = .method (supportedMethod name)) :
    log.any (·.need.isCharge) =
      ((log.filterMap Exchange.read?).any (·.status = .pending) &&
        (supportedMethod requested).isOk) := by
  cases h with
  | @turnedAway x e hn hread _ =>
      have hcharge : x.need.isCharge = false := by rw [hn]; rfl
      have hnone : [x].filterMap Exchange.read? = [] ∨
          ∃ r, [x].filterMap Exchange.read? = [r] ∧ r.status ≠ .pending := by
        cases hr : x.read? with
        | none => exact Or.inl (by simp [hr])
        | some r => exact Or.inr ⟨r, by simp [hr], hread r hr⟩
      rcases hnone with hnone | ⟨r, hone, hstatus⟩
      · rw [hnone]
        simp [hcharge]
      · rw [hone]
        simp [hcharge, hstatus]
  | @unsupported r x y e hread _ hasked hm _ =>
      have hx := Exchange.isCharge_of_read? hread
      have hy : y.need.isCharge = false := by rw [hasked]; rfl
      -- the name was refused, so no method has it
      have hanswer := hmethods y (by simp) requested hasked
      have hno : (supportedMethod requested).isOk = false := by
        cases hs : supportedMethod requested with
        | error _ => rfl
        | ok m =>
            rw [Exchange.method?, hasked, hanswer, hs] at hm
            cases hm
      rw [hno]
      simp [hx, hy]
  | @declined r m x y z e hprepared hz _ _ =>
      rw [eligible_of_prepared hprepared (by simp) (hmethods y (by simp) _ hprepared.asked)]
      have hcharge : z.need.isCharge = true := by rw [hz]; rfl
      simp [hcharge]
  | @conflicted r m t x y z u _ _ hprepared hz _ =>
      rw [eligible_of_prepared hprepared (by simp) (hmethods y (by simp) _ hprepared.asked)]
      simp [Exchange.isCharge_of_payment? hz]
  | @paid r m t x y z u v hprepared hz _ =>
      rw [eligible_of_prepared hprepared (by simp) (hmethods y (by simp) _ hprepared.asked)]
      simp [Exchange.isCharge_of_payment? hz]

end PayEnd

/-- A paid record in the store was left by a payment, for which it was charged. -/
theorem Course.payment_of_written? {command : Command} {log : List Exchange} {c : Call} {x : Exchange}
    {w : Order} (h : Course command log c) (hx : x ∈ log) (hw : x.written? = some w)
    (hstatus : w.status = .paid) :
    ∃ m t, w.payment = some ⟨m, t⟩ ∧
      ⟨t, w.user, w.id, m⟩ ∈ log.filterMap Exchange.payment? := by
  obtain ⟨before, d, o, v, hlog, hunder, hneed, rfl⟩ := h.underway_of_written? hx hw
  rcases need_eq_write hneed with ⟨rfl, -⟩ | ⟨t, rfl, -⟩ | ⟨rfl, -⟩
  · obtain ⟨user, parts, _, _, _, -, -, -, -, -, hplace⟩ := hunder
    obtain ⟨-, -, rfl⟩ := Order.place_eq_ok_iff.1 hplace
    cases hstatus
  · obtain ⟨r, m, _, y, z, u, -, rfl, -, -, -, hp, hpay⟩ := hunder
    obtain ⟨-, rfl⟩ := Order.pay_eq_ok_iff.1 hpay
    exact ⟨m, t, rfl, List.mem_filterMap.2 ⟨u, by simp [hlog], hp⟩⟩
  · obtain ⟨r, y, -, -, -, hcancel⟩ := hunder
    obtain ⟨-, rfl⟩ := Order.cancel_eq_ok_some_iff.1 hcancel
    cases hstatus

end OrderDesk
