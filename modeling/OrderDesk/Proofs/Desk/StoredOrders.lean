/-
# What holds of stored orders

Every stored order has parts and a total of at least zero. It has a payment exactly if it is paid, and
its version says whether it waits or is final: it was written once, or twice. If the clock never goes
back, no order was changed before it was placed.

* `Order.Lawful` : what status, payment and version have to do with each other;
* `Call.Passes.copy?` : where the copy of an order comes from that a call works on;
* `Floor.readings` : the clock readings that a run takes;
* `stored_orders_lawful` : what holds of every stored order after every run.
-/
import OrderDesk.Proofs.Desk.OnlyWriter

namespace OrderDesk

/-! ## Status, payment and version -/

/-- What holds of a stored order, whatever became of it. -/
structure Order.Lawful (o : Order) : Prop where
  parts : o.parts ≠ []
  total : 0 ≤ o.total.cents
  payment : o.payment.isSome ↔ o.status = .paid
  waiting : o.version.number = 1 ↔ o.status = .pending
  final : o.version.number = 2 ↔ o.status = .paid ∨ o.status = .cancelled

/-- All stored orders are lawful. -/
def Store.Lawful (s : Store) : Prop :=
  ∀ id o, s.get? id = some o → o.Lawful

theorem Store.lawful_empty : Store.empty.Lawful := by
  simp [Store.Lawful]

/-- What the desk puts in over lawful orders is lawful. -/
theorem Store.Entry.lawful {s : Store} {w : Order} (h : s.Entry w) (hs : s.Lawful) : w.Lawful := by
  cases h with
  | placed _ hparts htotal hstatus hpayment hversion =>
      exact {
        parts := hparts
        total := by simpa [Money.isNegative] using htotal
        payment := by simp [hpayment, hstatus]
        waiting := by simp [hversion, hstatus, Version.first]
        final := by simp [hversion, hstatus, Version.first] }
  | @paid r m t now hget hstatus =>
      -- a waiting order was written once, so this is the second write
      have hr : r.Lawful := hs r.id r hget
      have hv : r.version.number = 1 := hr.waiting.2 hstatus
      exact {
        parts := hr.parts
        total := hr.total
        payment := by simp
        waiting := by simp [Version.next, hv]
        final := by simp [Version.next, hv] }
  | @cancelled r now hget hstatus =>
      have hr : r.Lawful := hs r.id r hget
      have hv : r.version.number = 1 := hr.waiting.2 hstatus
      have hpayment : r.payment.isSome = false := by
        rw [Bool.eq_false_iff, ne_eq, hr.payment, hstatus]
        decide
      exact {
        parts := hr.parts
        total := hr.total
        payment := by simp [hpayment]
        waiting := by simp [Version.next, hv]
        final := by simp [Version.next, hv] }

namespace Floor

theorem lawful_step {f : Floor} {m : Move} (hf : f.Inv) (hm : m.IsOwn) (hs : f.store.Lawful) :
    (f.step m).store.Lawful := by
  rcases store_step_of_isOwn hf hm with hsame | ⟨w, hset, hw⟩
  · rw [hsame]
    exact hs
  · rw [hset]
    intro id o ho
    rw [Store.get?_set] at ho
    split at ho
    · obtain rfl := Option.some.inj ho
      exact hw.lawful hs
    · exact hs id o ho

/-- All stored orders are lawful after every run of the desk's own moves. -/
theorem lawful_run {moves : List Move} (hm : ∀ m ∈ moves, m.IsOwn) :
    ((opening .empty).run moves).store.Lawful :=
  run_of_step (p := fun f => f.store.Lawful) (fun _ _ hf hm hs => lawful_step hf hm hs)
    (inv_opening Store.sound_empty) Store.lawful_empty hm

end Floor

/-! ## Copies of orders -/

namespace Call

/-- The copy of an order that a call works on. -/
def copy? : Call → Option Order
  | inserting o | choosing o _ | charging o _ | updatingPaid o _ | updatingCancelled o => some o
  | _ => none

/-- The copy that a call has placed, paid or cancelled and is about to write. -/
def draft? : Call → Option Order
  | inserting o | updatingPaid o _ | updatingCancelled o => some o
  | _ => none

/-- A new call works on no copy. -/
@[simp] theorem copy?_start (command : Command) : (start command).copy? = none := by
  cases command with
  | create user parts => by_cases hparts : parts = [] <;> simp [start, hparts, copy?]
  | _ => rfl

theorem copy?_of_draft? {c : Call} {o : Order} (h : c.draft? = some o) : c.copy? = some o := by
  cases c with
  | inserting p => exact h
  | updatingPaid p t => exact h
  | updatingCancelled p => exact h
  | _ => cases h

/-- What is written is a draft. -/
theorem draft?_of_need_write {c : Call} {o : Order} {v : Version} (h : c.need = some (.write o v)) :
    c.draft? = some o := by
  rcases need_eq_write h with ⟨rfl, -⟩ | ⟨t, rfl, -⟩ | ⟨rfl, -⟩ <;> rfl

/-- The copy that a call goes on with is the one that it had, the record that it read, or a draft: a new
order, or a change of one of those, made at the reading of the clock. -/
theorem Passes.copy? {c d : Call} {x : Exchange} (h : c.Passes x d) {o : Order} (ho : d.copy? = some o) :
    c.copy? = some o ∨ x.read? = some o ∨
      (d.draft? = some o ∧ o.updatedAt = x.draw.now ∧
        (o.createdAt = x.draw.now ∨
          ∃ r, (c.copy? = some r ∨ x.read? = some r) ∧ o.createdAt = r.createdAt)) := by
  cases h with
  | placed _ _ _ hplace =>
      cases ho
      obtain ⟨-, -, rfl⟩ := Order.place_eq_ok_iff.1 hplace
      exact Or.inr (Or.inr ⟨rfl, rfl, Or.inl rfl⟩)
  | waiting hread _ =>
      cases ho
      exact Or.inr (Or.inl hread)
  | chosen _ _ => exact Or.inl ho
  | charged _ hpay =>
      cases ho
      obtain ⟨-, rfl⟩ := Order.pay_eq_ok_iff.1 hpay
      exact Or.inr (Or.inr ⟨rfl, rfl, Or.inr ⟨_, Or.inl rfl, rfl⟩⟩)
  | cancellable hread hcancel =>
      cases ho
      obtain ⟨-, rfl⟩ := Order.cancel_eq_ok_some_iff.1 hcancel
      exact Or.inr (Or.inr ⟨rfl, rfl, Or.inr ⟨_, Or.inr hread, rfl⟩⟩)
  | _ => cases ho

end Call

/-! ## The clock -/

namespace Floor

/-- The clock reading that a move takes: one for every draft that is made. -/
def reading? (f : Floor) : Move → Option Instant
  | .advance i draw outside =>
      ((f.advance i draw outside).jobs[i]?.bind (·.call.draft?)).map fun _ => draw.now
  | _ => none

/-- The clock readings that a run takes, in the order of its moves. -/
def readings (f : Floor) : List Move → List Instant
  | [] => []
  | m :: rest => (f.reading? m).toList ++ (f.step m).readings rest

end Floor

/-- An order that was not changed before it was placed, nor placed after any of these times. -/
structure Order.Timely (o : Order) (later : List Instant) : Prop where
  changed : o.createdAt ≤ o.updatedAt
  placed : ∀ t ∈ later, o.createdAt ≤ t

theorem Order.Timely.mono {o : Order} {xs ys : List Instant} (h : o.Timely (xs ++ ys)) :
    o.Timely ys :=
  ⟨h.changed, fun t ht => h.placed t (List.mem_append_right _ ht)⟩

/-- All stored orders, and all copies that are worked on, are timely before the readings to come. -/
structure Floor.Timely (f : Floor) (later : List Instant) : Prop where
  stored : ∀ id o, f.store.get? id = some o → o.Timely later
  copies : ∀ j ∈ f.jobs, ∀ o, j.call.copy? = some o → o.Timely later

/-- A job goes on with a timely copy; a draft of its own is made at the next reading of the clock. -/
theorem Turn.timely_copy {f g : Floor} {i : Nat} {j : Job} {x : Exchange} (h : Turn f i j x g)
    {now later : List Instant} (hf : f.Timely (now ++ later)) (hclock : (now ++ later).Pairwise (· ≤ ·))
    (hnow : (j.next x).call.draft? ≠ none → now = [x.draw.now]) {o : Order}
    (ho : (j.next x).call.copy? = some o) : o.Timely later := by
  rcases h.passes.copy? ho with hsame | hread | ⟨hdraft, hupdated, hcreated⟩
  · exact (hf.copies j h.mem o hsame).mono
  · exact (hf.stored o.id o (h.get?_of_read? hread)).mono
  · obtain rfl : now = [x.draw.now] := hnow (ne_of_eq_of_ne hdraft (Option.some_ne_none o))
    have hle : o.createdAt ≤ x.draw.now := by
      rcases hcreated with hnew | ⟨r, hr, hold⟩
      · exact Int.le_of_eq (congrArg Instant.rank hnew)
      · -- the draft is a change of a timely copy, so it was placed before this reading
        have hplaced : r.Timely ([x.draw.now] ++ later) := by
          rcases hr with hcopy | hread
          · exact hf.copies j h.mem r hcopy
          · exact hf.stored r.id r (h.get?_of_read? hread)
        rw [hold]
        exact hplaced.placed _ List.mem_cons_self
    refine ⟨hupdated ▸ hle, fun t ht => ?_⟩
    have hlater : x.draw.now ≤ t := List.rel_of_pairwise_cons hclock ht
    exact Int.le_trans hle hlater

namespace Floor

theorem timely_opening (later : List Instant) : (opening .empty).Timely later :=
  ⟨by simp, by simp⟩

/-- An own move keeps all orders and copies timely, and uses up its reading. -/
theorem timely_step {f : Floor} {m : Move} {later : List Instant} (hm : m.IsOwn)
    (hf : f.Timely ((f.reading? m).toList ++ later))
    (hclock : ((f.reading? m).toList ++ later).Pairwise (· ≤ ·)) : (f.step m).Timely later := by
  cases m with
  | ask command =>
      refine ⟨fun id o ho => ?_, fun j hj o ho => ?_⟩
      · rw [store_ask] at ho
        exact hf.stored id o ho
      · rcases List.mem_append.1 hj with hj | hj
        · exact hf.copies j hj o ho
        · rw [List.mem_singleton.1 hj, Call.copy?_start] at ho
          cases ho
  | intrude o expected => exact hm.elim
  | advance i draw outside =>
      rcases advance_cases f i draw outside with hsame | ⟨j, x, ht, rfl⟩
      · rw [step, hsame]
        exact ⟨fun id o ho => (hf.stored id o ho).mono, fun j hj o ho => (hf.copies j hj o ho).mono⟩
      · have hnow : (j.next x).call.draft? ≠ none →
            (f.reading? (.advance i x.draw outside)).toList = [x.draw.now] := by
          intro hdraft
          obtain ⟨o, ho⟩ := Option.ne_none_iff_exists'.1 hdraft
          simp only [reading?, ht.job_after, Option.bind_some, ho, Option.map_some, Option.toList_some]
        refine ⟨fun id o ho => ?_, fun k hk o ho => ?_⟩
        · cases hw : x.written? with
          | none =>
              rw [step, ht.store_of_none hw] at ho
              exact (hf.stored id o ho).mono
          | some w =>
              rw [step, ht.store_of_some hw, Store.get?_set] at ho
              split at ho
              · obtain rfl := Option.some.inj ho
                -- what was written was a copy of the job
                obtain ⟨p, hn, rfl⟩ := ht.need_of_written? hw
                have hcopy := Call.copy?_of_draft? (Call.draft?_of_need_write (hn ▸ ht.need))
                have htimely := (hf.copies j ht.mem p hcopy).mono
                exact ⟨htimely.changed, htimely.placed⟩
              · exact (hf.stored id o ho).mono
        · rw [step, ht.jobs] at hk
          rcases List.mem_or_eq_of_mem_set hk with hk | rfl
          · exact (hf.copies k hk o ho).mono
          · exact ht.timely_copy hf hclock hnow ho

/-- Along a run whose readings never go back all orders and copies stay timely. -/
theorem timely_run {f : Floor} {moves : List Move} {later : List Instant}
    (hm : ∀ m ∈ moves, m.IsOwn) (hf : f.Timely (f.readings moves ++ later))
    (hclock : (f.readings moves ++ later).Pairwise (· ≤ ·)) : (f.run moves).Timely later := by
  induction moves generalizing f with
  | nil => exact hf
  | cons m rest ih =>
      rw [readings, List.append_assoc] at hf hclock
      have hstep := timely_step (hm m List.mem_cons_self) hf hclock
      exact ih (fun k hk => hm k (List.mem_cons_of_mem m hk)) hstep
        (List.pairwise_append.1 hclock).2.1

end Floor

/-! ## Stored orders -/

/-- After every run from an empty store in which only the desk writes, and whatever the services answer:
a stored order is stored under its own identifier, it has parts and a total of at least zero, a payment
exactly if it is paid, version 1 exactly if it waits and version 2 exactly if it is paid or cancelled.
If the readings of the clock never go back, it was not changed before it was placed. -/
theorem stored_orders_lawful (moves : List Move) (hown : ∀ m ∈ moves, m.IsOwn) :
    let f := (Floor.opening .empty).run moves
    (∀ id o, f.store.get? id = some o → o.id = id ∧ o.Lawful) ∧
      (((Floor.opening .empty).readings moves).Pairwise (· ≤ ·) →
        ∀ id o, f.store.get? id = some o → o.createdAt ≤ o.updatedAt) := by
  intro f
  refine ⟨fun id o ho => ⟨Store.id_of_get? ho, Floor.lawful_run hown id o ho⟩, ?_⟩
  intro hclock id o ho
  have htimely : f.Timely [] := by
    apply Floor.timely_run hown (Floor.timely_opening _)
    rwa [List.append_nil]
  exact (htimely.stored id o ho).changed

/-- What a step may use a number of seconds after the race would have begun. -/
def Floor.lateDraw (seconds : Nat) : Draw :=
  ⟨raceOrder, (Instant.of? raceDraw.now.date (43200 + seconds) 0).getD raceDraw.now⟩

/-- The order of the race is placed and paid, one step a second. -/
def Floor.slowPayment : List Move :=
  [.ask (.create ⟨⟨1#128⟩⟩ [⟨⟨2#128⟩⟩]),
    .advance 0 (lateDraw 0) (.prices (.ok [⟨⟨⟨2#128⟩⟩, raceRecord.total⟩])),
    .advance 0 (lateDraw 1) (.prices (.ok [])), .ask (.pay raceOrder "CARD"),
    .advance 1 (lateDraw 2) (.prices (.ok [])), .advance 1 (lateDraw 3) (.method (.ok .card)),
    .advance 1 (lateDraw 4) (.charge (.ok ⟨⟨11#128⟩⟩)), .advance 1 (lateDraw 5) (.prices (.ok []))]

/-- The order is paid then, and was changed after it was placed. -/
theorem stored_orders_lawful_slowPayment :
    let f := (Floor.opening .empty).run Floor.slowPayment
    ∃ o, f.store.get? Floor.raceOrder = some o ∧ o.status = .paid ∧ o.Lawful ∧
      o.createdAt ≤ o.updatedAt ∧ o.createdAt ≠ o.updatedAt := by
  intro f
  obtain ⟨hlawful, htimes⟩ := stored_orders_lawful Floor.slowPayment (by decide)
  have hstored : (f.store.get? Floor.raceOrder).any
      (fun o => o.status = .paid && o.createdAt ≠ o.updatedAt) = true := by
    decide
  obtain ⟨o, ho, hfacts⟩ := (Option.any_eq_true _ _).1 hstored
  simp only [Bool.and_eq_true, decide_eq_true_eq] at hfacts
  exact ⟨o, ho, hfacts.1, (hlawful Floor.raceOrder o ho).2, htimes (by decide) Floor.raceOrder o ho,
    hfacts.2⟩

end OrderDesk
