/-
# An order is paid at most once

However payments and cancellations of one order interleave, at most one payment succeeds. A payment that
succeeds and a cancellation that succeeds exclude each other, and the record is final from the write on:
paid with the method and the transaction of that payment, or cancelled and without any payment.
-/
import OrderDesk.Proofs.Desk.Settled

namespace OrderDesk

namespace Floor

variable {f : Floor} {j : Job} {id : OrderId}

/-- A payment that succeeded left a final record of its order. -/
theorem settles_of_paid (hf : f.Inv) (hj : j ∈ f.jobs) (hpaid : j.paid id = true) :
    j.settles id = true := by
  obtain ⟨requested, receipt, hcommand, hcall⟩ := Job.paid_iff.1 hpaid
  have hcourse := hf.course j hj
  rw [hcommand, hcall] at hcourse
  obtain ⟨r, m, t, x, y, z, u, v, -, hlog, hprepared, -, hw⟩ := hcourse.of_pay_succeeded
  rw [Job.settles, List.any_eq_true]
  exact ⟨_, List.mem_filterMap.2 ⟨u, by simp [hlog], hw⟩, by simp [hprepared.order]⟩

/-- Of all payments of an order, at most one succeeds. -/
theorem countP_paid_le_one (hf : f.Inv) (hs : f.Settled) : f.jobs.countP (·.paid id) ≤ 1 := by
  have hle : f.jobs.countP (·.paid id) ≤ f.jobs.countP (·.settles id) :=
    List.countP_mono_left fun j hj hpaid => settles_of_paid hf hj hpaid
  have hfinals := hs.census id
  have hone := f.store.finals_le_one id
  omega

/-- What a payment that succeeded was told and charged is what the store says of the order. -/
theorem exists_method_of_paid (hf : f.Inv) (hs : f.Settled) (hj : j ∈ f.jobs) {requested : String}
    {t : TransactionId} (hcommand : j.command = .pay id requested)
    (hcall : j.call = .succeeded (.paid t)) :
    ∃ m, (∃ x ∈ j.log, x.need = .method requested ∧ x.answer = .method (.ok m)) ∧
      ∃ o, f.store.get? id = some o ∧ o.status = .paid ∧ o.payment = some ⟨m, t⟩ := by
  obtain ⟨r, m, t', x, y, z, v, hreceipt, hprepared, hy, -, -, hget⟩ :=
    get?_of_pay_succeeded hf hs hj hcommand hcall
  cases hreceipt
  exact ⟨m, ⟨y, hy, hprepared.asked, Exchange.answer_of_method? hprepared.method⟩, _, hget, rfl, rfl⟩

/-- A cancellation that succeeded finds its order cancelled, and nothing was paid for it. -/
theorem get?_of_cancelled (hf : f.Inv) (hs : f.Settled) (hj : j ∈ f.jobs)
    (hcancelled : j.cancelled id = true) :
    ∃ o, f.store.get? id = some o ∧ o.status = .cancelled ∧ o.payment = none := by
  obtain ⟨receipt, hcommand, hcall⟩ := Job.cancelled_iff.1 hcancelled
  have hcourse := hf.course j hj
  rw [hcommand, hcall] at hcourse
  obtain ⟨o, changed, -, rfl, hstatus, x, hx, hsaw⟩ := hcourse.of_cancel_succeeded
  have hseen : o ∈ j.seen := by
    rcases hsaw with hread | hw
    · exact List.mem_append_left _ (List.mem_filterMap.2 ⟨x, hx, hread⟩)
    · exact List.mem_append_right _ (List.mem_filterMap.2 ⟨x, hx, hw⟩)
  have hget := hs.kept j hj o hseen (by simp [hstatus])
  exact ⟨o, hget, hstatus, hs.unpaid o.id o hget (by simp [hstatus])⟩

/-- A payment and a cancellation of one order do not both succeed. -/
theorem not_cancelled_of_paid (hf : f.Inv) (hs : f.Settled) (hj : j ∈ f.jobs)
    (hpaid : j.paid id = true) {k : Job} (hk : k ∈ f.jobs) : k.cancelled id = false := by
  obtain ⟨requested, receipt, hcommand, hcall⟩ := Job.paid_iff.1 hpaid
  have hcourse := hf.course j hj
  rw [hcommand, hcall] at hcourse
  obtain ⟨_, _, t, _, _, _, _, _, rfl, -⟩ := hcourse.of_pay_succeeded
  obtain ⟨m, -, o, hget, hstatus, -⟩ := exists_method_of_paid hf hs hj hcommand hcall
  rw [Bool.eq_false_iff]
  intro hcancelled
  -- the stored record of the order would have to be paid and cancelled at once
  obtain ⟨p, hget', hstatus', -⟩ := get?_of_cancelled hf hs hk hcancelled
  rw [hget] at hget'
  cases hget'
  rw [hstatus] at hstatus'
  cases hstatus'

end Floor

/-- In every run from an empty store in which only the desk writes, and whatever the services answer:
at most one payment of an order succeeds; after a payment that succeeded no cancellation ever does, and
the record is paid with its transaction and the method that it asked for; after a cancellation that
succeeded no payment ever does, and the record is cancelled without a payment. -/
theorem pay_exactly_once (moves : List Move) (hown : ∀ m ∈ moves, m.IsOwn) (id : OrderId) :
    let f := (Floor.opening .empty).run moves
    f.jobs.countP (·.paid id) ≤ 1 ∧
      (∀ j ∈ f.jobs, ∀ requested t, j.command = .pay id requested → j.call = .succeeded (.paid t) →
        ∃ m,
          (∃ x ∈ j.log, x.need = .method requested ∧ x.answer = .method (.ok m) ∧
            (x.answer = .method (supportedMethod requested) → m.name = requested)) ∧
          ∀ later : List Move, (∀ k ∈ later, k.IsOwn) →
            let g := f.run later
            (∃ o, g.store.get? id = some o ∧ o.status = .paid ∧ o.payment = some ⟨m, t⟩) ∧
              ∀ k ∈ g.jobs, k.cancelled id = false) ∧
      ∀ j ∈ f.jobs, j.cancelled id = true →
        ∀ later : List Move, (∀ k ∈ later, k.IsOwn) →
          let g := f.run later
          (∃ o, g.store.get? id = some o ∧ o.status = .cancelled ∧ o.payment = none) ∧
            ∀ k ∈ g.jobs, k.paid id = false := by
  intro f
  have hf : f.Inv := Floor.inv_run Floor.inv_opening_empty hown
  have hs : f.Settled := Floor.settled_run hown
  refine ⟨Floor.countP_paid_le_one hf hs, ?_, ?_⟩
  · intro j hj requested t hcommand hcall
    obtain ⟨m, ⟨x, hx, hneed, hanswer⟩, o, hget, hstatus, hpayment⟩ :=
      Floor.exists_method_of_paid hf hs hj hcommand hcall
    refine ⟨m, ⟨x, hx, hneed, hanswer, fun hsupported => ?_⟩, ?_⟩
    · rw [hanswer, Answer.method.injEq] at hsupported
      exact PaymentMethod.name_of_supportedMethod hsupported.symm
    · intro later hlater g
      have hg : g.Inv := Floor.inv_run hf hlater
      have hsg : g.Settled := Floor.settled_run_of hf hs hlater
      have hjg : j ∈ g.jobs := Floor.mem_run_of_finished hj (by simp [hcall, Call.need]) later
      have hstays := Floor.get?_run_of_final hf hlater hget (by simp [hstatus])
      refine ⟨⟨o, hstays, hstatus, hpayment⟩, fun k hk => ?_⟩
      exact Floor.not_cancelled_of_paid hg hsg hjg (Job.paid_iff.2 ⟨_, _, hcommand, hcall⟩) hk
  · intro j hj hcancelled later hlater g
    have hg : g.Inv := Floor.inv_run hf hlater
    have hsg : g.Settled := Floor.settled_run_of hf hs hlater
    obtain ⟨receipt, -, hcall⟩ := Job.cancelled_iff.1 hcancelled
    have hjg : j ∈ g.jobs := Floor.mem_run_of_finished hj (by simp [hcall, Call.need]) later
    refine ⟨Floor.get?_of_cancelled hg hsg hjg hcancelled, fun k hk => ?_⟩
    rw [Bool.eq_false_iff]
    intro hpaid
    have hnot := Floor.not_cancelled_of_paid hg hsg hk hpaid hjg
    rw [hcancelled] at hnot
    cases hnot

/-- In the race one payment succeeds, by card, and remains. If the order is cancelled instead, before
anybody pays, that remains. -/
theorem pay_exactly_once_race :
    let f := (Floor.opening .empty).run Floor.race
    let h := (Floor.opening .empty).run Floor.raceCancelled
    (f.jobs.countP (·.paid Floor.raceOrder) = 1 ∧
      ∀ later : List Move, (∀ k ∈ later, k.IsOwn) →
        (∃ o, (f.run later).store.get? Floor.raceOrder = some o ∧ o.status = .paid ∧
          o.payment = some ⟨.card, ⟨⟨11#128⟩⟩⟩) ∧
          ∀ k ∈ (f.run later).jobs, k.cancelled Floor.raceOrder = false) ∧
      ∀ later : List Move, (∀ k ∈ later, k.IsOwn) →
        (∃ o, (h.run later).store.get? Floor.raceOrder = some o ∧ o.status = .cancelled ∧
          o.payment = none) ∧
          ∀ k ∈ (h.run later).jobs, k.paid Floor.raceOrder = false := by
  intro f h
  obtain ⟨hone, hpaid, -⟩ := pay_exactly_once Floor.race (by decide) Floor.raceOrder
  obtain ⟨-, -, hcancelled⟩ := pay_exactly_once Floor.raceCancelled (by decide) Floor.raceOrder
  refine ⟨⟨by decide, ?_⟩,
    hcancelled (h.jobs.get ⟨1, by decide⟩) (List.get_mem _ _) (by decide)⟩
  obtain ⟨m, -, hlater⟩ :=
    hpaid (f.jobs.get ⟨1, by decide⟩) (List.get_mem _ _) "CARD" ⟨⟨11#128⟩⟩ rfl rfl
  obtain ⟨⟨o, hget, -, hpayment⟩, -⟩ := hlater [] (by simp)
  have hcard : f.store.get? Floor.raceOrder = some Floor.racePaid := by decide
  obtain rfl : Floor.racePaid = o := Option.some.inj (hcard.symm.trans hget)
  have hm : m = .card := by
    cases hpayment
    rfl
  rw [← hm]
  exact hlater

end OrderDesk
