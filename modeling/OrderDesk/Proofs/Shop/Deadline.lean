/-
# The deadline of a command

What the deadline of a shop means for a command on its own. A service that takes no longer than the
deadline is as good as one without a deadline: the same shop is left, after the same time, with the same
result. A service that takes longer is given up when the deadline passes, and has noticed the call but
done nothing.

* `Shop.latencyOf`, `Shop.latencyFor` : how long the service of a call or a command takes;
* `Shop.finish_in_time` : in time, a call ends as it would without a deadline;
* `Shop.millis_finish_le` : no call takes longer than its service, or than the deadline;
* `Shop.finish_late` : a call whose service is too slow ends with the deadline;
* `deadline_bounds_waiting` : what becomes of a command by its latency and the deadline.
-/
import OrderDesk.Proofs.Shop.Dues
import OrderDesk.Proofs.Shop.NewOrders

namespace OrderDesk

namespace Shop

/-! ## Another deadline -/

/-- The same shop with another deadline, or without one. -/
def withDeadline (s : Shop) (deadline : Option Span) : Shop :=
  { s with deadline }

variable (s : Shop) (c : Call) (deadline : Option Span)

theorem deliver_withDeadline (t : Ticket) :
    (s.withDeadline deadline).deliver c t =
      ((s.deliver c t).1.withDeadline deadline, (s.deliver c t).2) := by
  unfold deliver
  split <;> rfl

theorem consult?_withDeadline :
    (s.withDeadline deadline).consult? c =
      (s.consult? c).map fun told => (told.1.withDeadline deadline, told.2) := by
  unfold consult?
  split <;> rfl

end Shop

/-- The same point of a call, in a shop with another deadline. -/
def Reached.withDeadline (r : Reached) (deadline : Option Span) : Reached :=
  { r with shop := r.shop.withDeadline deadline }

/-- A shop without a deadline is left again when the deadline that it was given is taken away. -/
theorem Reached.withDeadline_none_of_eq {r t : Reached} {deadline : Option Span}
    (h : r = t.withDeadline deadline) (ht : t.shop.deadline = none) :
    r.shop.withDeadline none = t.shop := by
  rw [h]
  exact congrArg t.shop.withDeadline ht.symm

namespace Shop

/-! ## How long a service takes -/

/-- What no call changes: the deadline, and how long the services take. -/
def setup (s : Shop) : Option Span × Span × Span :=
  (s.deadline, s.inventory.latency, s.payments.latency)

/-- How long the service takes that a call may still ask; nothing if it will ask none. -/
def latencyOf (s : Shop) : Call → Span
  | .pricing .. => s.inventory.latency
  | .checking .. | .choosing .. | .charging .. => s.payments.latency
  | _ => ⟨0⟩

variable {s : Shop} {c : Call}

theorem setup_deliver (s : Shop) (c : Call) (t : Ticket) : (s.deliver c t).1.setup = s.setup := by
  unfold deliver
  split
  · rfl
  · rename_i user order m hn
    rcases s.payments.charge_cases s.nextId user order m with ⟨reason, h⟩ | h <;> rw [h] <;> rfl
  · rfl

theorem setup_expire (s : Shop) (c : Call) (limit : Span) : (s.expire c limit).1.setup = s.setup := by
  unfold expire
  split <;> rfl

/-- The ticket of a call says how long its service takes. -/
theorem latency_of_consult? {asked : Shop} {t : Ticket} (h : s.consult? c = some (asked, t)) :
    t.latency = s.latencyOf c := by
  cases c <;> cases h <;> rfl

theorem setup_of_consult? {asked : Shop} {t : Ticket} (h : s.consult? c = some (asked, t)) :
    asked.setup = s.setup := by
  cases c <;> cases h <;> rfl

theorem deadline_of_consult? {asked : Shop} {t : Ticket} (h : s.consult? c = some (asked, t)) :
    asked.deadline = s.deadline :=
  congrArg Prod.fst (setup_of_consult? h)

theorem setup_advance (s : Shop) (c : Call) : (s.advance c).shop.setup = s.setup := by
  unfold advance
  split
  · rename_i asked t hconsult
    rw [← setup_of_consult? hconsult]
    unfold await
    repeat' split
    · exact asked.setup_deliver c t
    · exact asked.setup_deliver c t
    · exact asked.setup_expire c _
  · rfl

theorem deadline_advance (s : Shop) (c : Call) : (s.advance c).shop.deadline = s.deadline :=
  congrArg Prod.fst (s.setup_advance c)

theorem setup_finish (s : Shop) (c : Call) : (s.finish c).shop.setup = s.setup := by
  induction hleft : c.left using Nat.strongRecOn generalizing s c with
  | ind left ih =>
      subst hleft
      by_cases hneed : c.need = none
      · cases c <;> first | rfl | cases hneed
      · rw [finish_of_need s hneed]
        exact (ih _ (s.left_advance hneed) _ _ rfl).trans (s.setup_advance c)

theorem latencyOf_of_setup {t : Shop} (h : t.setup = s.setup) (c : Call) :
    t.latencyOf c = s.latencyOf c := by
  obtain ⟨-, hinventory, hpayments⟩ := Prod.ext_iff.1 h |>.imp_right Prod.ext_iff.1
  cases c <;> first | rfl | exact hinventory | exact hpayments

/-- A call that goes on may ask the same service as before, or none any more. -/
theorem latencyOf_passes (s : Shop) {c d : Call} {x : Exchange} (h : c.Passes x d) :
    s.latencyOf d = s.latencyOf c ∨ s.latencyOf d = ⟨0⟩ := by
  cases h with
  | waiting => exact Or.inl rfl
  | chosen => exact Or.inl rfl
  | _ => exact Or.inr rfl

/-- The latency that a call still has to reckon with only gets less. -/
theorem latencyOf_advance (s : Shop) (c : Call) :
    ((s.advance c).shop.latencyOf (s.advance c).call).timerMillis ≤ (s.latencyOf c).timerMillis := by
  rw [latencyOf_of_setup (s.setup_advance c)]
  cases hn : c.need with
  | none =>
      have hadvance : s.advance c = ⟨0, (s.step c (known c)).1, (s.step c (known c)).2⟩ :=
        advance_at_once (by simp [Call.consults, hn])
      have hstays : (s.step c (known c)).2 = c := by
        simp [step, Desk.step, hn]
      rw [hadvance]
      exact Nat.le_of_eq (congrArg (fun d => (s.latencyOf d).timerMillis) hstays)
  | some n =>
      obtain ⟨millis, shop, outside, hadvance, -, htakes⟩ := s.advance_eq hn
      rw [hadvance]
      change (s.latencyOf (shop.desk.step c shop.draw outside).2).timerMillis ≤ _
      rcases s.latencyOf_passes (Desk.passes_step hn shop.draw htakes) with h | h <;> rw [h]
      exact Nat.zero_le _

/-! ## In time -/

/-- The service that a call may still ask takes no longer than the deadline. -/
def InTime (s : Shop) (c : Call) : Prop :=
  ∀ limit, s.deadline = some limit → (s.latencyOf c).timerMillis ≤ limit.timerMillis

/-- What is in time stays in time. -/
theorem InTime.advance (h : s.InTime c) : (s.advance c).shop.InTime (s.advance c).call := by
  intro limit hlimit
  rw [deadline_advance] at hlimit
  exact Nat.le_trans (s.latencyOf_advance c) (h limit hlimit)

/-- In time, a need is met as it would be without a deadline. -/
theorem advance_in_time (h : s.InTime c) :
    s.advance c = ((s.withDeadline none).advance c).withDeadline s.deadline := by
  cases hconsult : s.consult? c with
  | none =>
      simp only [Shop.advance, consult?_withDeadline, hconsult, Option.map_none]
      rfl
  | some told =>
      obtain ⟨asked, t⟩ := told
      have hdeadline := deadline_of_consult? hconsult
      have hkept : (asked.deliver c t).1.deadline = s.deadline :=
        (congrArg Prod.fst (asked.setup_deliver c t)).trans hdeadline
      have hsooner : ∀ limit, asked.deadline = some limit →
          t.latency.timerMillis ≤ limit.timerMillis := by
        rw [latency_of_consult? hconsult, hdeadline]
        exact h
      have hunbounded : ∀ limit, (asked.withDeadline none).deadline = some limit →
          t.latency.timerMillis ≤ limit.timerMillis := by
        intro limit hnone
        cases hnone
      simp only [Shop.advance, consult?_withDeadline, hconsult, Option.map_some]
      rw [await_in_time hsooner, await_in_time hunbounded, deliver_withDeadline, ← hkept]
      rfl

/-- In time, a call ends as it would without a deadline. -/
theorem finish_in_time (h : s.InTime c) :
    s.finish c = ((s.withDeadline none).finish c).withDeadline s.deadline := by
  induction hleft : c.left using Nat.strongRecOn generalizing s c with
  | ind left ih =>
      subst hleft
      by_cases hneed : c.need = none
      · cases c <;> first | rfl | cases hneed
      · have hnext : s.advance c = ((s.withDeadline none).advance c).withDeadline s.deadline :=
          advance_in_time h
        have hrest := ih _ (s.left_advance hneed) h.advance rfl
        -- without a deadline the call goes on in the same shop
        have hfree : (s.advance c).shop.withDeadline none = ((s.withDeadline none).advance c).shop :=
          Reached.withDeadline_none_of_eq hnext (deadline_advance _ c)
        rw [deadline_advance, hfree] at hrest
        rw [finish_of_need s hneed, finish_of_need (s.withDeadline none) hneed, hrest, hnext]
        rfl

/-! ## How long a call takes -/

/-- A wait is no longer than the latency of the service, and no longer than the deadline. -/
theorem millis_advance_le (s : Shop) (c : Call) :
    (s.advance c).millis ≤ (s.latencyOf c).timerMillis ∧
      ∀ limit, s.deadline = some limit → (s.advance c).millis ≤ limit.timerMillis := by
  cases hconsult : s.consult? c with
  | none =>
      simp only [Shop.advance, hconsult]
      exact ⟨Nat.zero_le _, fun _ _ => Nat.zero_le _⟩
  | some told =>
      obtain ⟨asked, t⟩ := told
      simp only [Shop.advance, hconsult]
      rw [← latency_of_consult? hconsult, ← deadline_of_consult? hconsult]
      by_cases hlate : ∃ limit, asked.deadline = some limit ∧ limit.timerMillis < t.latency.timerMillis
      · obtain ⟨limit, hlimit, hlate⟩ := hlate
        rw [await_late hlimit hlate]
        refine ⟨Nat.le_of_lt hlate, fun other hother => ?_⟩
        obtain rfl := Option.some.inj (hlimit.symm.trans hother)
        exact Nat.le_refl _
      · have hsooner : ∀ limit, asked.deadline = some limit →
            t.latency.timerMillis ≤ limit.timerMillis :=
          fun limit hlimit => Nat.not_lt.1 fun h => hlate ⟨limit, hlimit, h⟩
        rw [await_in_time hsooner]
        exact ⟨Nat.le_refl _, hsooner⟩

/-- No call takes longer than the service that it may still ask, and none takes longer than the deadline.
-/
theorem millis_finish_le (s : Shop) (c : Call) :
    (s.finish c).millis ≤ (s.latencyOf c).timerMillis ∧
      ∀ limit, s.deadline = some limit → (s.finish c).millis ≤ limit.timerMillis := by
  induction hleft : c.left using Nat.strongRecOn generalizing s c with
  | ind left ih =>
      subst hleft
      by_cases hneed : c.need = none
      · have hwaits : c.waits = 0 := by cases c <;> first | rfl | cases hneed
        rw [(s.finish_of_waits hwaits).1]
        exact ⟨Nat.zero_le _, fun _ _ => Nat.zero_le _⟩
      · rw [finish_of_need s hneed]
        cases hconsults : c.consults with
        | true =>
            -- this is the one wait of the call
            have hrest := ((s.advance c).shop.finish_of_waits (s.waits_advance hconsults)).1
            have hmillis : (((s.advance c).shop.finish (s.advance c).call).after
                (s.advance c).millis).millis = (s.advance c).millis :=
              (congrArg ((s.advance c).millis + ·) hrest).trans (Nat.add_zero _)
            rw [hmillis]
            exact s.millis_advance_le c
        | false =>
            have hatonce : (s.advance c).millis = 0 := by rw [advance_at_once hconsults]
            obtain ⟨hlatency, hlimit⟩ := ih _ (s.left_advance hneed) (s.advance c).shop _ rfl
            rw [deadline_advance] at hlimit
            rw [hatonce, Reached.after_zero]
            exact ⟨Nat.le_trans hlatency (s.latencyOf_advance c), hlimit⟩

/-- A call that has to ask a service that is too slow ends when the deadline passes. -/
theorem finish_late (hconsults : c.consults = true) {limit : Span} (hdeadline : s.deadline = some limit)
    (hlate : limit.timerMillis < (s.latencyOf c).timerMillis) :
    (s.finish c).millis = limit.timerMillis := by
  have hneed : c.need ≠ none := by
    rcases Call.need_of_consults hconsults with ⟨ids, hn⟩ | ⟨user, order, m, hn⟩ <;> simp [hn]
  have hrest := ((s.advance c).shop.finish_of_waits (s.waits_advance hconsults)).1
  have hwait : (s.advance c).millis = limit.timerMillis := by
    cases hconsult : s.consult? c with
    | none =>
        rw [consult?_eq_none hconsult] at hconsults
        cases hconsults
    | some told =>
        obtain ⟨asked, t⟩ := told
        have hlimit : asked.deadline = some limit := (deadline_of_consult? hconsult).trans hdeadline
        rw [← latency_of_consult? hconsult] at hlate
        simp only [Shop.advance, hconsult]
        rw [await_late hlimit hlate]
  rw [finish_of_need s hneed, ← hwait]
  exact (congrArg ((s.advance c).millis + ·) hrest).trans (Nat.add_zero _)

/-! ## Commands -/

/-- How long the service takes that a command is for; nothing if it is for none. -/
def latencyFor (s : Shop) : Command → Span
  | .create .. => s.inventory.latency
  | .pay .. => s.payments.latency
  | .fetch _ | .cancel _ => ⟨0⟩

/-- How often the service was called that a command is for. -/
def calledFor (s : Shop) : Command → Nat
  | .create .. => s.inventory.calls
  | .pay .. => s.payments.calls
  | .fetch _ | .cancel _ => 0

/-- Whether a command comes to ask its service: there are parts to be priced, or a payment is due. -/
inductive Asks (s : Shop) : Command → Prop
  | prices {user : UserId} {parts : List PartId} : parts ≠ [] → Asks s (.create user parts)
  | charge {id : OrderId} {requested : String} {r : Order} {m : PaymentMethod} :
      s.desk.store.Due id requested r m → Asks s (.pay id requested)

theorem latencyOf_start (s : Shop) (command : Command) :
    ((s.start command).1.latencyOf (s.start command).2).timerMillis ≤
      (s.latencyFor command).timerMillis := by
  cases command with
  | create user parts =>
      by_cases hparts : parts = []
      · have hcall : (s.start (.create user parts)).2 = .failed .noParts := if_pos hparts
        rw [hcall]
        change (⟨0⟩ : Span).timerMillis ≤ s.inventory.latency.timerMillis
        exact Nat.zero_le _
      · have hcall : (s.start (.create user parts)).2 = .pricing user parts := if_neg hparts
        rw [hcall]
        exact Nat.le_refl _
  | fetch id => exact Nat.le_refl _
  | pay id requested => exact Nat.le_refl _
  | cancel id => exact Nat.le_refl _

/-- In time, a command is carried out as it would be without a deadline. -/
theorem carryOut_in_time {limit : Span} (hdeadline : s.deadline = some limit) {command : Command}
    (h : (s.latencyFor command).timerMillis ≤ limit.timerMillis) :
    s.carryOut command = ((s.withDeadline none).carryOut command).withDeadline (some limit) := by
  have hstart : (s.start command).1.InTime (s.start command).2 := by
    intro other hother
    obtain rfl := Option.some.inj (hdeadline.symm.trans hother)
    exact Nat.le_trans (s.latencyOf_start command) h
  have hfinish := finish_in_time hstart
  rw [show (s.start command).1.deadline = some limit from hdeadline] at hfinish
  exact hfinish

/-- A command takes no longer than its service, and no longer than the deadline. -/
theorem millis_carryOut_le {limit : Span} (hdeadline : s.deadline = some limit) (command : Command) :
    (s.carryOut command).millis ≤
      min (s.latencyFor command).timerMillis limit.timerMillis := by
  obtain ⟨hlatency, hlimit⟩ := (s.start command).1.millis_finish_le (s.start command).2
  exact Nat.le_min.2 ⟨Nat.le_trans hlatency (s.latencyOf_start command), hlimit limit hdeadline⟩

/-- A command calls its service once if it comes to ask it, and else not at all. -/
theorem calledFor_carryOut (s : Shop) (command : Command) :
    (s.Asks command → (s.carryOut command).shop.calledFor command = s.calledFor command + 1) ∧
      (¬s.Asks command → (s.carryOut command).shop.calledFor command = s.calledFor command) := by
  cases command with
  | create user parts =>
      have hcalls := s.calls_carryOut_create user parts
      constructor
      · rintro ⟨hparts⟩
        rw [if_neg hparts] at hcalls
        exact hcalls
      · intro hno
        have hparts : parts = [] := by
          by_contra hparts
          exact hno (.prices hparts)
        rw [if_pos hparts] at hcalls
        exact hcalls
  | pay id requested =>
      constructor
      · intro hasks
        cases hasks with
        | @charge _ _ r m hdue =>
            obtain ⟨t, hstored, hpayments, -, hcharging⟩ := carryOut_pay_due hdue
            have hcalls := (t.finish_charging hstored hdue.waiting m).1
            rw [← hcharging, hpayments] at hcalls
            exact hcalls
      · intro hno
        rcases s.desk.store.due_or_forbids id requested with ⟨r, m, hdue⟩ | ⟨e, hforbids⟩
        · exact absurd (.charge hdue) hno
        · exact congrArg Payments.calls (carryOut_pay_forbidden hforbids).2
  | fetch id => exact ⟨fun hasks => (nomatch hasks), fun _ => rfl⟩
  | cancel id => exact ⟨fun hasks => (nomatch hasks), fun _ => rfl⟩

section Late

variable {limit : Span}

/-- A command for a new order whose inventory is too slow fails when the deadline passes. -/
theorem carryOut_create_given_up (hdeadline : s.deadline = some limit)
    (hlate : limit.timerMillis < s.inventory.latency.timerMillis) (user : UserId)
    {parts : List PartId} (hparts : parts ≠ []) :
    let r := s.carryOut (.create user parts)
    r.millis = limit.timerMillis ∧ r.shop.payments = s.payments ∧
      r.call = .failed (.inventoryUnavailable (GatewayError.deadlineExceeded limit).message) := by
  intro r
  have hstart : r = s.finish (.pricing user parts) := by
    rw [s.finish_of_need (by simp [Call.need])]
    exact s.carryOut_create user hparts
  refine ⟨?_, ?_, carryOut_create_late hdeadline hlate user hparts⟩
  · rw [hstart]
    exact finish_late rfl hdeadline hlate
  · have hwaits : (s.advance (.pricing user parts)).call.waits = 0 := s.waits_advance rfl
    obtain ⟨-, hpayments⟩ := (s.advance (.pricing user parts)).shop.services_finish hwaits
    obtain ⟨-, hasked⟩ := s.services_advance_prices (c := .pricing user parts) rfl
    rw [hstart, s.finish_of_need (by simp [Call.need])]
    exact hpayments.trans hasked

/-- A payment that is due and whose payment service is too slow fails when the deadline passes, and
nothing is recorded. -/
theorem carryOut_pay_given_up (hdeadline : s.deadline = some limit)
    (hlate : limit.timerMillis < s.payments.latency.timerMillis) {id : OrderId} {requested : String}
    {o : Order} {m : PaymentMethod} (hdue : s.desk.store.Due id requested o m) :
    let r := s.carryOut (.pay id requested)
    r.millis = limit.timerMillis ∧ r.shop.payments.recorded = s.payments.recorded ∧
      r.call = .failed (.paymentFailed (GatewayError.deadlineExceeded limit).message) := by
  intro r
  obtain ⟨t, hstored, hpayments, hsame, hcharging⟩ := carryOut_pay_due hdue
  have hlimit : t.deadline = some limit := hsame.trans hdeadline
  have hslow : limit.timerMillis < t.payments.latency.timerMillis := by rwa [hpayments]
  obtain ⟨-, hfails, hrecorded⟩ := t.finish_charging hstored hdue.waiting m
  rw [← hcharging] at hfails hrecorded
  have hfailed := hfails limit hlimit hslow
  refine ⟨?_, ?_, hfailed⟩
  · rw [show r = t.finish (.charging o m) from hcharging]
    exact finish_late rfl hlimit hslow
  · rcases hrecorded with ⟨-, hrecorded⟩ | ⟨transaction, hsucceeded, -⟩
    · exact hrecorded.trans (congrArg Payments.recorded hpayments)
    · rw [hfailed] at hsucceeded
      cases hsucceeded

end Late

end Shop

/-! ## Answered or given up -/

/-- In a shop with a deadline, a command served on its own comes to its end, and never takes longer than
its service or the deadline. If the service takes no longer than the deadline, the shop that is left, the
time and the outcome are those of the same shop without a deadline. If it takes longer and the command
comes to ask it, the command fails exactly when the deadline passes, with its wording: the service has
been called once more, and the stored orders and the payments are as they were. -/
theorem deadline_bounds_waiting (s : Shop) (limit : Span) (hdeadline : s.deadline = some limit)
    (command : Command) :
    ∃ (after : Shop) (time : Nat) (outcome : Outcome),
      s.serve [(0, .command command)] =
          (after, time, [⟨time, .finished (some outcome) after.desk⟩]) ∧
        time ≤ min (s.latencyFor command).timerMillis limit.timerMillis ∧
        (s.Asks command → after.calledFor command = s.calledFor command + 1) ∧
        (¬s.Asks command → after.calledFor command = s.calledFor command) ∧
        ((s.latencyFor command).timerMillis ≤ limit.timerMillis →
          (s.withDeadline none).serve [(0, .command command)] =
            (after.withDeadline none, time, [⟨time, .finished (some outcome) after.desk⟩])) ∧
        (limit.timerMillis < (s.latencyFor command).timerMillis → s.Asks command →
          time = limit.timerMillis ∧ after.desk.store = s.desk.store ∧
            after.payments.recorded = s.payments.recorded ∧
            (∀ user parts, command = .create user parts →
              outcome = .error (.inventoryUnavailable ("Deadline of " ++ limit.text ++ " exceeded"))) ∧
            ∀ id requested, command = .pay id requested →
              outcome = .error (.paymentFailed ("Deadline of " ++ limit.text ++ " exceeded"))) := by
  obtain ⟨o, hcall, hserve⟩ := s.serve_carryOut command
  obtain ⟨hasked, hnot⟩ := s.calledFor_carryOut command
  refine ⟨_, _, o, hserve, Shop.millis_carryOut_le hdeadline command, hasked, hnot, ?_, ?_⟩
  · intro hsooner
    have hsame := Shop.carryOut_in_time hdeadline hsooner
    obtain ⟨p, hcall', hserve'⟩ := (s.withDeadline none).serve_carryOut command
    have hkept : ((s.withDeadline none).carryOut command).shop.deadline = none :=
      congrArg Prod.fst (Shop.setup_finish _ _)
    obtain rfl : p = o := by
      rw [hsame] at hcall
      exact Call.finished.inj (hcall'.symm.trans hcall)
    have hfree : (s.carryOut command).shop.withDeadline none =
        ((s.withDeadline none).carryOut command).shop :=
      Reached.withDeadline_none_of_eq hsame hkept
    rw [hserve', ← hfree, hsame]
    rfl
  · intro hlate hasks
    cases hasks with
    | @prices user parts hparts =>
        obtain ⟨htime, hpayments, hfailed⟩ :=
          Shop.carryOut_create_given_up hdeadline hlate user hparts
        rw [hfailed] at hcall
        cases hcall
        refine ⟨htime, Shop.store_of_failed hfailed, congrArg Payments.recorded hpayments, ?_, ?_⟩
        · intro _ _ _
          rfl
        · intro _ _ h
          cases h
    | @charge id requested r m hdue =>
        obtain ⟨htime, hrecorded, hfailed⟩ := Shop.carryOut_pay_given_up hdeadline hlate hdue
        rw [hfailed] at hcall
        cases hcall
        refine ⟨htime, Shop.store_of_failed hfailed, hrecorded, ?_, ?_⟩
        · intro _ _ h
          cases h
        · intro _ _ _
          rfl

/-- The shop with the order of the race, a deadline of 10 ms, and a payment service that takes so long. -/
def Shop.slowPayments (millis : Nat) : Shop :=
  { Shop.withRace Floor.raceRecord with
    deadline := some (.ofMillis 10)
    payments := { Payments.empty with latency := .ofMillis millis } }

/-- A payment service that takes just as long as the deadline is waited for, and one that takes a
millisecond longer is not. -/
theorem deadline_bounds_waiting_edge :
    (∃ (after : Shop) (time : Nat) (outcome : Outcome),
      (Shop.slowPayments 10).serve [(0, .command (.pay Floor.raceOrder "CARD"))] =
          (after, time, [⟨time, .finished (some outcome) after.desk⟩]) ∧
        ((Shop.slowPayments 10).withDeadline none).serve
            [(0, .command (.pay Floor.raceOrder "CARD"))] =
          (after.withDeadline none, time, [⟨time, .finished (some outcome) after.desk⟩])) ∧
      ∃ after : Shop,
        (Shop.slowPayments 11).serve [(0, .command (.pay Floor.raceOrder "CARD"))] =
            (after, 10, [⟨10, .finished (some (.error (.paymentFailed
              ("Deadline of " ++ (Span.ofMillis 10).text ++ " exceeded")))) after.desk⟩]) ∧
          after.payments.recorded = [] ∧ after.payments.calls = 1 := by
  constructor
  · obtain ⟨after, time, outcome, hserve, -, -, -, hsame, -⟩ := deadline_bounds_waiting
      (Shop.slowPayments 10) (.ofMillis 10) rfl (.pay Floor.raceOrder "CARD")
    exact ⟨after, time, outcome, hserve, hsame (by decide)⟩
  · obtain ⟨after, time, outcome, hserve, -, hcalled, -, -, hlate⟩ := deadline_bounds_waiting
      (Shop.slowPayments 11) (.ofMillis 10) rfl (.pay Floor.raceOrder "CARD")
    have hasks : (Shop.slowPayments 11).Asks (.pay Floor.raceOrder "CARD") :=
      .charge (r := Floor.raceRecord) (m := .card) ⟨rfl, rfl, rfl⟩
    obtain ⟨rfl, -, hrecorded, -, houtcome⟩ := hlate (by decide) hasks
    obtain rfl := houtcome _ _ rfl
    exact ⟨after, hserve, hrecorded, hcalled hasks⟩

end OrderDesk
