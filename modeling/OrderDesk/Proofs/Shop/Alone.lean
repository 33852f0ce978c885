/-
# A command on its own

What a command does in a shop where nothing else happens, as one computation without clients and rounds:
the call goes on from need to need, and where it asks a service it waits for the answer or for the
deadline, whichever comes first. Serving the command on its own comes to exactly this.

* `Shop.advance` : one need of a call is met while nothing else happens;
* `Shop.finish` : a call goes on to its end;
* `Shop.finish_of_need` : need by need;
* `Shop.carryOut` : a command from its start to its end;
* `Desk.store_step_or_succeeds` : a step that changes the store is the last one, and succeeds;
* `Shop.serve_carryOut` : the schedule serves a command on its own by carrying it out.
-/
import OrderDesk.Proofs.Shop.SingleClient

namespace OrderDesk

/-- How far a call has come: after how many milliseconds, in which shop, and where it stands. -/
structure Reached where
  millis : Nat
  shop : Shop
  call : Call

/-- The same, so many milliseconds later. -/
def Reached.after (millis : Nat) (r : Reached) : Reached :=
  { r with millis := millis + r.millis }

@[simp] theorem Reached.after_zero (r : Reached) : r.after 0 = r := by
  simp [after]

theorem Reached.after_after (r : Reached) (m n : Nat) : (r.after n).after m = r.after (m + n) := by
  simp [after, Nat.add_assoc]

/-- A step that changes the store is the last one of its call, which succeeds. -/
theorem Desk.store_step_or_succeeds (d : Desk) (c : Call) (draw : Draw) (outside : Answer) :
    (d.step c draw outside).1.store = d.store ∨
      ∃ receipt, (d.step c draw outside).2 = .succeeded receipt := by
  cases hn : c.need with
  | none => exact Or.inl (by simp [step, hn])
  | some n =>
      obtain ⟨hstore, hnext⟩ := step_of_need (d := d) hn draw outside
      have hserve := store_serve d n outside 0 draw
      cases hw : Exchange.written? ⟨0, n, draw, (d.serve n outside).2⟩ with
      | none =>
          rw [hw] at hserve
          exact Or.inl (hstore.trans hserve)
      | some w =>
          obtain ⟨receipt, hreceipt⟩ :=
            resume_of_written? (x := ⟨0, n, draw, (d.serve n outside).2⟩) hn hw
          exact Or.inr ⟨receipt, hnext.trans hreceipt⟩

namespace Shop

/-! ## From need to need -/

/-- A call that has asked a service is answered, or the deadline passes if that is sooner. -/
def await (s : Shop) (c : Call) (t : Ticket) : Reached :=
  let answered : Reached := ⟨t.latency.timerMillis, (s.deliver c t).1, (s.deliver c t).2⟩
  match s.deadline with
  | none => answered
  | some limit =>
      if t.latency.timerMillis ≤ limit.timerMillis then answered
      else ⟨limit.timerMillis, (s.expire c limit).1, (s.expire c limit).2⟩

/-- The next need of a call is met, with nothing else going on. -/
def advance (s : Shop) (c : Call) : Reached :=
  match s.consult? c with
  | some (asked, t) => asked.await c t
  | none => ⟨0, (s.stepAtOnce c).1, (s.stepAtOnce c).2⟩

/-- A call goes on by so many needs, or to its end. -/
def goOnBy : Nat → Shop → Call → Reached
  | 0, s, c => ⟨0, s, c⟩
  | left + 1, s, c =>
      if c.need = none then ⟨0, s, c⟩
      else ((s.advance c).shop.goOnBy left (s.advance c).call).after (s.advance c).millis

/-- A call goes on to its end. -/
def finish (s : Shop) (c : Call) : Reached :=
  s.goOnBy c.left c

/-- A command is carried out. -/
def carryOut (s : Shop) (command : Command) : Reached :=
  (s.start command).1.finish (s.start command).2

/-- A wait that would be longer than the deadline ends with it. -/
theorem await_late {s : Shop} {limit : Span} (hdeadline : s.deadline = some limit) {t : Ticket}
    (hlate : limit.timerMillis < t.latency.timerMillis) (c : Call) :
    s.await c t = ⟨limit.timerMillis, (s.expire c limit).1, (s.expire c limit).2⟩ := by
  simp only [await, hdeadline, if_neg (Nat.not_le.2 hlate)]

/-- A wait that is no longer than the deadline, or has none, ends with the answer. -/
theorem await_in_time {s : Shop} {t : Ticket}
    (hsooner : ∀ limit, s.deadline = some limit → t.latency.timerMillis ≤ limit.timerMillis) (c : Call) :
    s.await c t = ⟨t.latency.timerMillis, (s.deliver c t).1, (s.deliver c t).2⟩ := by
  cases hdeadline : s.deadline with
  | none => simp only [await, hdeadline]
  | some limit => simp only [await, hdeadline, if_pos (hsooner limit hdeadline)]

/-- Waiting is one step in a shop with the same desk, with an answer that the call takes. -/
theorem await_eq (s : Shop) {c : Call} {n : Need} (t : Ticket) (hn : c.need = some n)
    (hconsults : c.consults = true) :
    ∃ (millis : Nat) (shop : Shop) (outside : Answer),
      s.await c t = ⟨millis, (shop.step c outside).1, (shop.step c outside).2⟩ ∧
      shop.desk = s.desk ∧ n.takes (shop.desk.serve n outside).2 = true := by
  by_cases hlate : ∃ limit, s.deadline = some limit ∧ limit.timerMillis < t.latency.timerMillis
  · obtain ⟨limit, hdeadline, hlate⟩ := hlate
    refine ⟨limit.timerMillis, s, expiry c limit, ?_, rfl, ?_⟩
    · rw [await_late hdeadline hlate, expire_eq hconsults]
    · rcases Call.need_of_consults hconsults with ⟨ids, h⟩ | ⟨user, order, m, h⟩ <;>
        (rw [hn] at h; cases h; simp [expiry, hn, Desk.serve, Need.takes])
  · have hsooner : ∀ limit, s.deadline = some limit →
        t.latency.timerMillis ≤ limit.timerMillis :=
      fun limit hdeadline => Nat.not_lt.1 fun h => hlate ⟨limit, hdeadline, h⟩
    refine ⟨t.latency.timerMillis, (s.delivery c t).1, (s.delivery c t).2, ?_,
      desk_delivery s c t, ?_⟩
    · rw [await_in_time hsooner, deliver_eq hconsults]
    · rcases Call.need_of_consults hconsults with ⟨ids, h⟩ | ⟨user, order, m, h⟩ <;>
        (rw [hn] at h; cases h; simp [delivery, hn, Desk.serve, Need.takes])

/-- Meeting a need is one step in a shop with the same desk, with an answer that the call takes. -/
theorem advance_eq (s : Shop) {c : Call} {n : Need} (hn : c.need = some n) :
    ∃ (millis : Nat) (shop : Shop) (outside : Answer),
      s.advance c = ⟨millis, (shop.step c outside).1, (shop.step c outside).2⟩ ∧
      shop.desk = s.desk ∧ n.takes (shop.desk.serve n outside).2 = true := by
  cases hconsult : s.consult? c with
  | some told =>
      obtain ⟨asked, t⟩ := told
      obtain ⟨hconsults, hdesk⟩ := consults_of_consult? hconsult
      obtain ⟨millis, shop, outside, hawait, hsame, htakes⟩ := asked.await_eq t hn hconsults
      exact ⟨millis, shop, outside, by simp only [advance, hconsult, hawait], hsame.trans hdesk, htakes⟩
  | none =>
      refine ⟨0, s, known c, ?_, rfl, takes_known hn (consult?_eq_none hconsult)⟩
      simp only [advance, hconsult]
      rfl

/-- A call that waits for no service goes on at once. -/
theorem advance_at_once {s : Shop} {c : Call} (h : c.consults = false) :
    s.advance c = ⟨0, (s.step c (known c)).1, (s.step c (known c)).2⟩ := by
  cases hconsult : s.consult? c with
  | some told =>
      obtain ⟨asked, t⟩ := told
      rw [(consults_of_consult? hconsult).1] at h
      cases h
  | none =>
      simp only [advance, hconsult]
      rfl

/-- Meeting a need leaves a call less to do. -/
theorem left_advance (s : Shop) {c : Call} (h : c.need ≠ none) : (s.advance c).call.left < c.left := by
  obtain ⟨n, hn⟩ := Option.ne_none_iff_exists'.1 h
  obtain ⟨millis, shop, outside, hadvance, -, htakes⟩ := s.advance_eq hn
  have hless := (Desk.passes_step hn shop.draw htakes).fewer.1
  rw [hadvance]
  exact Nat.lt_of_le_of_lt (Nat.le_add_right _ _) hless

/-! ## To the end -/

/-- A call that may go on by as many needs as it has left comes to its end. -/
theorem goOnBy_eq_finish {left : Nat} {s : Shop} {c : Call} (h : c.left ≤ left) :
    s.goOnBy left c = s.finish c := by
  suffices hmore : ∀ (left : Nat) (s : Shop) (c : Call), c.left ≤ left →
      s.goOnBy (left + 1) c = s.goOnBy left c by
    induction h with
    | refl => rfl
    | @step left hle ih => exact (hmore left s c hle).trans ih
  intro left
  induction left with
  | zero =>
      intro s c hleft
      by_cases hnone : c.need = none
      · simp only [goOnBy, if_pos hnone]
      · exact absurd (s.left_advance hnone) (by omega)
  | succ left ih =>
      intro s c hleft
      by_cases hnone : c.need = none
      · simp only [goOnBy, if_pos hnone]
      · have hless := s.left_advance hnone
        have hrest := ih (s.advance c).shop (s.advance c).call (by omega)
        rw [goOnBy, if_neg hnone, hrest, goOnBy, if_neg hnone]

/-- A call comes to its end by meeting its next need, and from there. -/
theorem finish_of_need (s : Shop) {c : Call} (h : c.need ≠ none) :
    s.finish c =
      ((s.advance c).shop.finish (s.advance c).call).after (s.advance c).millis := by
  have hless := s.left_advance h
  obtain ⟨left, hleft⟩ : ∃ left, c.left = left + 1 := ⟨c.left - 1, by omega⟩
  rw [finish, hleft, goOnBy, if_neg h, goOnBy_eq_finish (by omega)]

/-- A call that waits for no service comes to its end by one step, and from there. -/
theorem finish_at_once (s : Shop) {c : Call} (h : c.need ≠ none) (hconsults : c.consults = false) :
    s.finish c = (s.step c (known c)).1.finish (s.step c (known c)).2 := by
  rw [finish_of_need s h, advance_at_once hconsults, Reached.after_zero]

/-- A call that has something read or looked up on the spot comes to its end by going on with that, in a
shop with the same store, services and deadline. -/
theorem finish_of_read (s : Shop) {c : Call} {n : Need} (hn : c.need = some n)
    (hconsults : c.consults = false) (hread : ∀ o v, n ≠ .write o v) :
    ∃ t : Shop, t.desk.store = s.desk.store ∧ t.payments = s.payments ∧ t.deadline = s.deadline ∧
      s.finish c = t.finish (c.resume s.draw (s.desk.serve n (known c)).2) := by
  obtain ⟨hstore, hnext⟩ := Desk.step_of_need (d := s.desk) hn s.draw (known c)
  have hserve : (s.desk.serve n (known c)).1.store = s.desk.store := by
    cases n with
    | write o v => exact absurd rfl (hread o v)
    | _ => rfl
  refine ⟨(s.step c (known c)).1, hstore.trans hserve, rfl, rfl, ?_⟩
  rw [finish_at_once s (by simp [hn]) hconsults, ← hnext]
  rfl

/-- A call that comes to its end has left the store alone, or it has succeeded. -/
theorem store_finish (s : Shop) (c : Call) :
    (s.finish c).shop.desk.store = s.desk.store ∨ ∃ receipt, (s.finish c).call = .succeeded receipt := by
  induction hleft : c.left using Nat.strongRecOn generalizing s c with
  | ind left ih =>
      subst hleft
      cases hn : c.need with
      | none =>
          refine Or.inl ?_
          cases c <;> first | rfl | cases hn
      | some n =>
          have hneed : c.need ≠ none := by simp [hn]
          obtain ⟨millis, shop, outside, hadvance, hdesk, -⟩ := s.advance_eq hn
          have hless := s.left_advance hneed
          rw [finish_of_need s hneed]
          rcases Desk.store_step_or_succeeds shop.desk c shop.draw outside with hsame | ⟨receipt, hnext⟩
          · have hstore : (s.advance c).shop.desk.store = s.desk.store := by
              rw [hadvance, ← hdesk]
              exact hsame
            have hend := ih _ hless (s.advance c).shop (s.advance c).call rfl
            rw [hstore] at hend
            exact hend
          · have hsucceeds : (s.advance c).call = .succeeded receipt := by
              rw [hadvance]
              exact hnext
            rw [hsucceeds]
            exact Or.inr ⟨receipt, rfl⟩

theorem store_carryOut (s : Shop) (command : Command) :
    (s.carryOut command).shop.desk.store = s.desk.store ∨
      ∃ receipt, (s.carryOut command).call = .succeeded receipt := by
  have hstart : (s.start command).1.desk.store = s.desk.store := Desk.store_start s.desk command
  rw [← hstart]
  exact (s.start command).1.store_finish (s.start command).2

/-- A command that fails leaves the store as it was. -/
theorem store_of_failed {s : Shop} {command : Command} {e : OrderError}
    (h : (s.carryOut command).call = .failed e) :
    (s.carryOut command).shop.desk.store = s.desk.store := by
  rcases s.store_carryOut command with hsame | ⟨receipt, hsucceeded⟩
  · exact hsame
  · rw [h] at hsucceeded
    cases hsucceeded

/-! ### The services -/

/-- A call that has asked a service will ask no other. -/
theorem waits_advance (s : Shop) {c : Call} (h : c.consults = true) : (s.advance c).call.waits = 0 := by
  obtain ⟨hleft, hwaits, hextra⟩ := Call.left_of_consults h
  have hneed : c.need ≠ none := by
    rcases Call.need_of_consults h with ⟨ids, hn⟩ | ⟨user, order, m, hn⟩ <;> simp [hn]
  obtain ⟨n, hn⟩ := Option.ne_none_iff_exists'.1 hneed
  obtain ⟨millis, shop, outside, hadvance, -, htakes⟩ := s.advance_eq hn
  have hless := (Desk.passes_step hn shop.draw htakes).fewer.2
  rw [hadvance]
  change ((shop.desk.step c shop.draw outside).2).waits = 0
  omega

/-- A call that will ask no service takes no time and leaves the services alone. -/
theorem finish_of_waits (s : Shop) {c : Call} (h : c.waits = 0) :
    (s.finish c).millis = 0 ∧ (s.finish c).shop.inventory = s.inventory ∧
      (s.finish c).shop.payments = s.payments := by
  induction hleft : c.left using Nat.strongRecOn generalizing s c with
  | ind left ih =>
      subst hleft
      by_cases hneed : c.need = none
      · cases c <;> first | exact ⟨rfl, rfl, rfl⟩ | cases hneed
      · have hconsults : c.consults = false := by
          rw [Bool.eq_false_iff]
          intro hconsults
          have hone := (Call.left_of_consults hconsults).2.1
          omega
        have hless := s.left_advance hneed
        obtain ⟨n, hn⟩ := Option.ne_none_iff_exists'.1 hneed
        have htakes := takes_known (d := s.desk) hn hconsults
        have hfewer := (Desk.passes_step hn s.draw htakes).fewer.2
        rw [advance_at_once hconsults] at hless
        rw [finish_at_once s hneed hconsults]
        exact ih _ hless _ (by change ((s.desk.step c s.draw (known c)).2).waits = 0; omega) rfl

theorem services_finish (s : Shop) {c : Call} (h : c.waits = 0) :
    (s.finish c).shop.inventory = s.inventory ∧ (s.finish c).shop.payments = s.payments :=
  (s.finish_of_waits h).2

/-- Asking for prices is noticed by the inventory and by nobody else. -/
theorem services_advance_prices (s : Shop) {c : Call} {ids : List PartId}
    (hn : c.need = some (.prices ids)) :
    (s.advance c).shop.inventory = s.inventory.arrive ∧ (s.advance c).shop.payments = s.payments := by
  simp only [advance, consult?, hn, await]
  repeat' split
  all_goals simp only [deliver, expire, hn]
  all_goals exact ⟨rfl, rfl⟩

/-- Asking for a charge is counted. If the payment service takes longer than the deadline, that is all;
otherwise the call goes on with the answer. -/
theorem advance_charge (s : Shop) {c : Call} {user : UserId} {order : OrderId} {m : PaymentMethod}
    (hn : c.need = some (.charge user order m)) :
    let charged := s.payments.arrive.charge s.nextId user order m
    (s.advance c).shop.desk.store = s.desk.store ∧
      ((∃ limit, s.deadline = some limit ∧ limit.timerMillis < s.payments.latency.timerMillis ∧
          (s.advance c).call = c.resume s.draw (.charge (.error (.deadlineExceeded limit))) ∧
          (s.advance c).shop.payments = s.payments.arrive) ∨
        ((∀ limit, s.deadline = some limit →
            s.payments.latency.timerMillis ≤ limit.timerMillis) ∧
          ∃ draw, (s.advance c).call = c.resume draw (.charge charged.2) ∧
            (s.advance c).shop.payments = charged.1)) := by
  intro charged
  let asked : Shop := { s with payments := s.payments.arrive }
  let told : Shop := { asked with payments := charged.1 }.spend
  have hstep : ∀ (t : Shop) (r : Except GatewayError TransactionId),
      (t.step c (.charge r)).1.desk.store = t.desk.store ∧
        (t.step c (.charge r)).2 = c.resume t.draw (.charge r) :=
    fun t r => Desk.step_of_need hn t.draw (.charge r)
  have hconsult : s.advance c = asked.await c ⟨false, s.payments.latency⟩ := by
    simp only [advance, consult?, hn]
    rfl
  have hdeliver : asked.deliver c ⟨false, s.payments.latency⟩ = told.step c (.charge charged.2) := by
    simp only [deliver, hn]
    rfl
  by_cases hlate : ∃ limit, s.deadline = some limit ∧
      limit.timerMillis < s.payments.latency.timerMillis
  · obtain ⟨limit, hdeadline, hlate⟩ := hlate
    have hexpire : asked.expire c limit = asked.step c (.charge (.error (.deadlineExceeded limit))) := by
      simp only [expire, hn]
    rw [hconsult, await_late (s := asked) hdeadline hlate, hexpire]
    exact ⟨(hstep asked _).1, Or.inl ⟨limit, hdeadline, hlate, (hstep asked _).2, rfl⟩⟩
  · have hsooner : ∀ limit, s.deadline = some limit →
        s.payments.latency.timerMillis ≤ limit.timerMillis :=
      fun limit hdeadline => Nat.not_lt.1 fun h => hlate ⟨limit, hdeadline, h⟩
    rw [hconsult, await_in_time (s := asked) hsooner, hdeliver]
    exact ⟨(hstep told _).1, Or.inr ⟨hsooner, told.draw, (hstep told _).2, rfl⟩⟩

/-! ## Served on its own -/

/-- A client is on its way to an end, if it is left alone. -/
def HeadsFor (r : Reached) (s : Shop) (v : Client) : Prop :=
  match v.stage with
  | .arriving .look => False
  | .arriving (.command command) => (s.carryOut command).after v.due = r
  | .ready c => (s.finish c).after v.due = r
  | .delivering c t => ((s.deliver c t).1.finish (s.deliver c t).2).after v.due = r
  | .expiring c limit => ((s.expire c limit).1.finish (s.expire c limit).2).after v.due = r
  | .finished outcome desk => ∃ o, outcome = some o ∧ desk = s.desk ∧ r = ⟨v.due, s, .finished o⟩

theorem headsFor_goOn {r : Reached} {s : Shop} {now : Nat} {c : Call}
    (h : (s.finish c).after now = r) : HeadsFor r (s.goOn now c).1 (s.goOn now c).2 := by
  rcases goOn_cases s now c with ⟨o, rfl, hgoOn⟩ | ⟨-, hgoOn⟩
  · rw [hgoOn]
    exact ⟨o, rfl, rfl, h.symm⟩
  · rw [hgoOn]
    exact h

theorem headsFor_wait {r : Reached} {s : Shop} {now : Nat} {c : Call} {t : Ticket}
    (h : (((s.await c t).shop.finish (s.await c t).call).after (s.await c t).millis).after now = r) :
    HeadsFor r s (wait s.deadline now c t) := by
  rw [Reached.after_after] at h
  cases hdeadline : s.deadline with
  | none =>
      simp only [await, hdeadline] at h
      exact h
  | some limit =>
      by_cases hsooner : t.latency.timerMillis ≤ limit.timerMillis
      · simp only [await, hdeadline, if_pos hsooner] at h
        simp only [wait, if_pos hsooner]
        exact h
      · simp only [await, hdeadline, if_neg hsooner] at h
        simp only [wait, if_neg hsooner]
        exact h

/-- Whatever a client does when it is due, it stays on its way. -/
theorem keeps_headsFor (r : Reached) : Keeps (HeadsFor r) := by
  intro s v hapt hopen h
  obtain ⟨due, stage⟩ := v
  cases stage with
  | arriving activity =>
      cases activity with
      | look => exact h.elim
      | command command => exact headsFor_goOn h
  | ready c =>
      change (s.finish c).after due = r at h
      rw [finish_of_need s hapt] at h
      cases hconsult : s.consult? c with
      | some told =>
          obtain ⟨asked, t⟩ := told
          simp only [advance, hconsult] at h
          have hact : s.act due ⟨due, .ready c⟩ = (asked, wait asked.deadline due c t) := by
            have hsame : asked.deadline = s.deadline := by
              unfold consult? at hconsult
              split at hconsult <;> cases hconsult <;> rfl
            simp only [act, hconsult, hsame]
          rw [hact]
          exact headsFor_wait h
      | none =>
          have hact : s.act due ⟨due, .ready c⟩ =
              (s.stepAtOnce c).1.goOn due (s.stepAtOnce c).2 := by
            simp only [act, hconsult]
          simp only [advance, hconsult, Reached.after_zero] at h
          rw [hact]
          exact headsFor_goOn h
  | delivering c t => exact headsFor_goOn h
  | expiring c limit => exact headsFor_goOn h
  | finished outcome desk => cases hopen

/-- A command that is served on its own is carried out: the shop, the time and the outcome are those. -/
theorem serve_carryOut (s : Shop) (command : Command) :
    ∃ o, (s.carryOut command).call = .finished o ∧
      s.serve [(0, .command command)] = ((s.carryOut command).shop, (s.carryOut command).millis,
        [⟨(s.carryOut command).millis, .finished (some o) (s.carryOut command).shop.desk⟩]) := by
  have hstart : HeadsFor (s.carryOut command) s ⟨0, .arriving (.command command)⟩ :=
    Reached.after_zero _
  obtain ⟨after, time, outcome, desk, hserve, hend⟩ := serve_keeps (keeps_headsFor _) hstart
  obtain ⟨o, rfl, rfl, hreached⟩ := hend
  rw [hreached]
  exact ⟨o, rfl, hserve⟩

end Shop

end OrderDesk
