/-
# The hall

The shop with every command that was ever given to it. Here the services in memory have a say of their own:
a call that needs `list_parts` or `pay_order` is first noticed by the service and waits, and is answered
later or given up at the deadline of `bounded`. A task is a job with the ticket that it waits with. Between
any two events of one task all other tasks may go on, and the switches of the services may be turned. How
long anything takes is left open, so a run stands for every order that latencies can give.

* `Event` : what can happen next in the hall;
* `Hall.floor` : the hall without tickets and services, where tasks are jobs;
* `Hall.Noted` : all that changes when a task goes on by one need;
* `Hall.step_cases` : the four things that an event can do.
-/
import OrderDesk.Desk.Shop
import OrderDesk.Proofs.Desk.Floor

namespace OrderDesk

/-! ## What a call is told -/

/-- Whether a call needs a service. -/
def Call.consults (c : Call) : Bool :=
  match c.need with
  | some (.prices _) | some (.charge ..) => true
  | _ => false

/-- A call that needs a service needs prices or a charge. -/
theorem Call.need_of_consults {c : Call} (h : c.consults = true) :
    (∃ ids, c.need = some (.prices ids)) ∨
      ∃ user order m, c.need = some (.charge user order m) := by
  unfold consults at h
  split at h
  · rename_i ids hn
    exact Or.inl ⟨ids, hn⟩
  · rename_i user order m hn
    exact Or.inr ⟨user, order, m, hn⟩
  · cases h

namespace Shop

/-- What is known on the spot: the method that a name stands for. -/
def known (c : Call) : Answer :=
  let requested :=
    match c.need with
    | some (.method requested) => requested
    | _ => ""
  .method (supportedMethod requested)

/-- A call that needs no service takes what it is told on the spot. -/
theorem takes_known {c : Call} {n : Need} {d : Desk} (hn : c.need = some n)
    (hc : c.consults = false) : n.takes (d.serve n (known c)).2 = true := by
  cases n with
  | prices ids => simp [Call.consults, hn] at hc
  | charge user order m => simp [Call.consults, hn] at hc
  | record id => rfl
  | method requested => rfl
  | write o v =>
      rw [Desk.serve_write]
      split <;> rfl

/-- The answer of a service to a call with a ticket, and the shop by then. -/
def delivery (s : Shop) (c : Call) (t : Ticket) : Shop × Answer :=
  match c.need with
  | some (.prices ids) => (s, .prices (s.inventory.answer t.fails ids))
  | some (.charge user order m) =>
      let (payments, result) := s.payments.charge s.nextId user order m
      ({ s with payments }.spend, .charge result)
  | _ => (s, known c)

/-- What stands for the answer of a service when the deadline has passed. -/
def expiry (c : Call) (limit : Span) : Answer :=
  match c.need with
  | some (.prices _) => .prices (.error (.deadlineExceeded limit))
  | some (.charge ..) => .charge (.error (.deadlineExceeded limit))
  | _ => known c

/-- A deadline that passes is a step with the answer that stands for it. -/
theorem expire_eq {s : Shop} {c : Call} {limit : Span} (h : c.consults = true) :
    s.expire c limit = s.step c (expiry c limit) := by
  rcases Call.need_of_consults h with ⟨ids, hn⟩ | ⟨user, order, m, hn⟩ <;>
    simp only [expire, expiry, hn]

end Shop

/-! ## Tasks and events -/

/-- A job, with its ticket while it waits for a service. -/
structure Task where
  job : Job
  ticket : Option Ticket

/-- The shop with all that it was ever asked. The time is the number of exchanges so far; no step depends on
it or on the logs. -/
structure Hall where
  shop : Shop
  tasks : List Task
  time : Nat

/-- What can happen next: a command is given, a task goes on by itself or up to a service, a service
answers, a deadline passes, or somebody turns the switches of a service. -/
inductive Event
  | ask (command : Command)
  | goOn (task : Nat)
  | deliver (task : Nat)
  | expire (task : Nat)
  | setPayments (fails : Bool) (latency : Span)
  | setInventory (inventory : Inventory)

namespace Hall

/-- The hall at the opening of the shop. -/
def opening (inventory : Inventory) (deadline : Option Span) (random : Nat → BitVec 128)
    (clock : Nat → Instant) : Hall :=
  ⟨Shop.opening inventory deadline random clock, [], 0⟩

/-- The jobs of the tasks. -/
def jobs (h : Hall) : List Job :=
  h.tasks.map Task.job

/-- The hall without tickets and services. -/
def floor (h : Hall) : Floor :=
  ⟨h.shop.desk, h.jobs, h.time⟩

/-- A command is given. -/
def ask (h : Hall) (command : Command) : Hall :=
  let (shop, call) := h.shop.start command
  { h with shop, tasks := h.tasks ++ [⟨⟨command, call, []⟩, none⟩] }

/-- A task has gone on by one need: it was answered when the shop had come so far, and `next` is the
shop with the call afterwards. -/
def note (h : Hall) (i : Nat) (j : Job) (s : Shop) (outside : Answer) (next : Shop × Call) : Hall :=
  match j.call.need with
  | none => h
  | some n =>
      let x : Exchange := ⟨h.time, n, s.draw, (s.desk.serve n outside).2⟩
      ⟨next.1, h.tasks.set i ⟨⟨j.command, next.2, j.log ++ [x]⟩, none⟩, h.time + 1⟩

/-- A task that does not wait goes on: to a service, where it gets a ticket, or by one need. -/
def goOn (h : Hall) (i : Nat) : Hall :=
  match h.tasks[i]? with
  | some ⟨j, none⟩ =>
      match h.shop.consult? j.call with
      | some (shop, ticket) => { h with shop, tasks := h.tasks.set i ⟨j, some ticket⟩ }
      | none => h.note i j h.shop (Shop.known j.call) (h.shop.stepAtOnce j.call)
  | _ => h

/-- A service answers a task that waits. -/
def deliver (h : Hall) (i : Nat) : Hall :=
  match h.tasks[i]? with
  | some ⟨j, some ticket⟩ =>
      let (s, outside) := h.shop.delivery j.call ticket
      h.note i j s outside (h.shop.deliver j.call ticket)
  | _ => h

/-- The deadline of a task that waits passes. -/
def expire (h : Hall) (i : Nat) : Hall :=
  match h.tasks[i]?, h.shop.deadline with
  | some ⟨j, some _⟩, some limit =>
      h.note i j h.shop (Shop.expiry j.call limit) (h.shop.expire j.call limit)
  | _, _ => h

/-- The hall after an event. -/
def step (h : Hall) : Event → Hall
  | .ask command => h.ask command
  | .goOn i => h.goOn i
  | .deliver i => h.deliver i
  | .expire i => h.expire i
  | .setPayments fails latency =>
      { h with shop := { h.shop with payments := { h.shop.payments with fails, latency } } }
  | .setInventory inventory => { h with shop := { h.shop with inventory } }

/-- The hall after a run. -/
def run (h : Hall) : List Event → Hall
  | [] => h
  | e :: rest => (h.step e).run rest

/-- Only tasks that need a service wait. -/
def Waiting (h : Hall) : Prop :=
  ∀ t ∈ h.tasks, t.ticket ≠ none → t.job.call.consults = true

/-! ## One event -/

/-- All that changes when a task goes on by one need: its job takes a turn, a payment is recorded
exactly if one is made, and the payment service notices nothing new. -/
structure Noted (h : Hall) (i : Nat) (j : Job) (k : Option Ticket) (x : Exchange) (g : Hall) :
    Prop where
  task : h.tasks[i]? = some ⟨j, k⟩
  turn : Turn h.floor i j x g.floor
  move : ∃ draw outside, g.floor = h.floor.advance i draw outside
  tasks : g.tasks = h.tasks.set i ⟨j.next x, none⟩
  recorded : g.shop.payments.recorded = h.shop.payments.recorded ++ x.payment?.toList
  calls : g.shop.payments.calls = h.shop.payments.calls
  method : ∀ requested, x.need = .method requested → x.answer = .method (supportedMethod requested)
  waited : j.call.consults = true → k ≠ none

/-- A task that was answered in a shop with the same desk has gone on by one need. -/
theorem noted_note {h : Hall} {i : Nat} {j : Job} {k : Option Ticket} {n : Need} {s : Shop}
    {outside : Answer} (htask : h.tasks[i]? = some ⟨j, k⟩) (hn : j.call.need = some n)
    (hdesk : s.desk = h.shop.desk) (htakes : n.takes (s.desk.serve n outside).2 = true)
    (hrecorded : s.payments.recorded = h.shop.payments.recorded ++
      (Exchange.payment? ⟨h.time, n, s.draw, (s.desk.serve n outside).2⟩).toList)
    (hcalls : s.payments.calls = h.shop.payments.calls)
    (hmethod : ∀ requested, n = .method requested → outside = .method (supportedMethod requested))
    (hwaited : j.call.consults = true → k ≠ none) :
    Noted h i j k ⟨h.time, n, s.draw, (s.desk.serve n outside).2⟩
      (h.note i j s outside (s.step j.call outside)) := by
  have hjob : h.floor.jobs[i]? = some j := by
    simp [floor, jobs, htask]
  obtain ⟨-, hcall⟩ := Desk.step_of_need (d := s.desk) hn s.draw outside
  have hnote : h.note i j s outside (s.step j.call outside) =
      ⟨(s.step j.call outside).1,
        h.tasks.set i ⟨j.next ⟨h.time, n, s.draw, (s.desk.serve n outside).2⟩, none⟩,
        h.time + 1⟩ := by
    simp only [note, hn, Shop.step, hcall, Job.next]
  rw [hdesk] at htakes
  have hfloor : (h.note i j s outside (s.step j.call outside)).floor =
      h.floor.advance i s.draw outside := by
    rw [hnote, Floor.advance_eq hjob hn htakes]
    simp [floor, jobs, List.map_set, Shop.step, Shop.spend, hdesk]
  have hturn := Floor.turn_advance hjob hn htakes s.draw
  refine ⟨htask, ?_, ⟨s.draw, outside, hfloor⟩, ?_, ?_, ?_, ?_, hwaited⟩
  · rw [hfloor, hdesk]
    exact hturn
  · rw [hnote]
  · rw [hnote]
    exact hrecorded
  · rw [hnote]
    exact hcalls
  · intro requested hasked
    subst hasked
    exact hmethod requested rfl

/-- A task that goes on without a service goes on by one need. -/
theorem noted_goOn {h : Hall} {i : Nat} {j : Job} {n : Need} (htask : h.tasks[i]? = some ⟨j, none⟩)
    (hn : j.call.need = some n) (hconsults : j.call.consults = false) :
    ∃ x, Noted h i j none x (h.note i j h.shop (Shop.known j.call) (h.shop.stepAtOnce j.call)) := by
  have hstep : h.shop.stepAtOnce j.call = h.shop.step j.call (Shop.known j.call) := rfl
  rw [hstep]
  refine ⟨_, noted_note htask hn rfl (Shop.takes_known hn hconsults) ?_ rfl ?_ (by simp [hconsults])⟩
  · have hpayment : Exchange.payment? ⟨h.time, n, h.shop.draw,
        (h.shop.desk.serve n (Shop.known j.call)).2⟩ = none := by
      cases n with
      | charge user order m => simp [Call.consults, hn] at hconsults
      | _ => rfl
    rw [hpayment]
    simp
  · rintro requested rfl
    simp [Shop.known, hn]

/-- A task that is answered by a service goes on by one need. -/
theorem noted_deliver {h : Hall} {i : Nat} {j : Job} {ticket : Ticket}
    (htask : h.tasks[i]? = some ⟨j, some ticket⟩) (hconsults : j.call.consults = true) :
    ∃ x, Noted h i j (some ticket) x (h.deliver i) := by
  rcases Call.need_of_consults hconsults with ⟨ids, hn⟩ | ⟨user, order, m, hn⟩
  · have hdeliver : h.deliver i =
        h.note i j h.shop (.prices (h.shop.inventory.answer ticket.fails ids))
          (h.shop.step j.call (.prices (h.shop.inventory.answer ticket.fails ids))) := by
      simp only [deliver, htask, Shop.delivery, Shop.deliver, hn]
    rw [hdeliver]
    exact ⟨_, noted_note htask hn rfl rfl (by simp [Exchange.payment?]) rfl (by simp) (by simp)⟩
  · -- the payment service draws the transaction, so the call goes on in a shop one draw further
    have hdeliver : h.deliver i =
        h.note i j (h.shop.delivery j.call ticket).1 (h.shop.delivery j.call ticket).2
          ((h.shop.delivery j.call ticket).1.step j.call (h.shop.delivery j.call ticket).2) := by
      simp only [deliver, htask, Shop.delivery, Shop.deliver, hn]
    rw [hdeliver]
    refine ⟨_, noted_note htask hn ?_ ?_ ?_ ?_ (by simp) (by simp)⟩
    · simp [Shop.delivery, hn, Shop.spend]
    · simp [Shop.delivery, hn, Desk.serve, Need.takes]
    · cases hfails : h.shop.payments.fails <;>
        simp [Shop.delivery, hn, Desk.serve, Payments.charge, hfails, Shop.spend,
          Exchange.payment?]
    · cases hfails : h.shop.payments.fails <;>
        simp [Shop.delivery, hn, Payments.charge, hfails, Shop.spend]

/-- A task whose deadline passes goes on by one need, and no payment is made. -/
theorem noted_expire {h : Hall} {i : Nat} {j : Job} {ticket : Ticket} (limit : Span)
    (htask : h.tasks[i]? = some ⟨j, some ticket⟩) (hconsults : j.call.consults = true) :
    ∃ x, Noted h i j (some ticket) x
      (h.note i j h.shop (Shop.expiry j.call limit) (h.shop.expire j.call limit)) := by
  rw [Shop.expire_eq hconsults]
  rcases Call.need_of_consults hconsults with ⟨ids, hn⟩ | ⟨user, order, m, hn⟩
  · exact ⟨_, noted_note htask hn rfl (by simp [Shop.expiry, hn, Desk.serve, Need.takes])
      (by simp [Exchange.payment?]) rfl (by simp) (by simp)⟩
  · exact ⟨_, noted_note htask hn rfl (by simp [Shop.expiry, hn, Desk.serve, Need.takes])
      (by simp [Shop.expiry, hn, Desk.serve, Exchange.payment?]) rfl (by simp) (by simp)⟩

/-- What an event can do: nothing that is kept here, give a command, let a task be noticed by a
service, or let a task go on by one need. -/
theorem step_cases {h : Hall} (hwaiting : h.Waiting) (e : Event) :
    (∃ shop : Shop, h.step e = { h with shop } ∧ shop.desk = h.shop.desk ∧
        shop.payments.recorded = h.shop.payments.recorded ∧
        shop.payments.calls = h.shop.payments.calls) ∨
      (∃ command, h.step e = h.ask command) ∨
      (∃ i j shop ticket, h.tasks[i]? = some ⟨j, none⟩ ∧
        h.shop.consult? j.call = some (shop, ticket) ∧
        h.step e = { h with shop, tasks := h.tasks.set i ⟨j, some ticket⟩ }) ∨
      ∃ i j k x, Noted h i j k x (h.step e) := by
  have hnothing : ∀ g : Hall, g = h →
      ∃ shop : Shop, g = { h with shop } ∧ shop.desk = h.shop.desk ∧
        shop.payments.recorded = h.shop.payments.recorded ∧
        shop.payments.calls = h.shop.payments.calls := by
    rintro g rfl
    exact ⟨g.shop, rfl, rfl, rfl, rfl⟩
  have hconsults : ∀ (i : Nat) (j : Job) (ticket : Ticket),
      h.tasks[i]? = some ⟨j, some ticket⟩ → j.call.consults = true := by
    intro i j ticket htask
    exact hwaiting ⟨j, some ticket⟩ (List.mem_of_getElem? htask) (by simp)
  cases e with
  | ask command => exact Or.inr (Or.inl ⟨command, rfl⟩)
  | goOn i =>
      cases htask : h.tasks[i]? with
      | none => exact Or.inl (hnothing _ (by simp only [step, goOn, htask]))
      | some t =>
          obtain ⟨j, k⟩ := t
          cases k with
          | some ticket => exact Or.inl (hnothing _ (by simp only [step, goOn, htask]))
          | none =>
              cases hconsult : h.shop.consult? j.call with
              | some told =>
                  obtain ⟨shop, ticket⟩ := told
                  refine Or.inr (Or.inr (Or.inl ⟨i, j, shop, ticket, htask, hconsult, ?_⟩))
                  simp only [step, goOn, htask, hconsult]
              | none =>
                  have hgoOn : h.step (.goOn i) =
                      h.note i j h.shop (Shop.known j.call) (h.shop.stepAtOnce j.call) := by
                    simp only [step, goOn, htask, hconsult]
                  rw [hgoOn]
                  -- no service is needed, so the call is over or is met on the spot
                  cases hn : j.call.need with
                  | none => exact Or.inl (hnothing _ (by simp only [note, hn]))
                  | some n =>
                      have hno : j.call.consults = false := by
                        unfold Shop.consult? at hconsult
                        cases n <;> simp_all [Call.consults]
                      obtain ⟨x, hx⟩ := noted_goOn htask hn hno
                      exact Or.inr (Or.inr (Or.inr ⟨i, j, none, x, hx⟩))
  | deliver i =>
      cases htask : h.tasks[i]? with
      | none => exact Or.inl (hnothing _ (by simp only [step, deliver, htask]))
      | some t =>
          obtain ⟨j, k⟩ := t
          cases k with
          | none => exact Or.inl (hnothing _ (by simp only [step, deliver, htask]))
          | some ticket =>
              obtain ⟨x, hx⟩ := noted_deliver htask (hconsults i j ticket htask)
              exact Or.inr (Or.inr (Or.inr ⟨i, j, some ticket, x, hx⟩))
  | expire i =>
      cases htask : h.tasks[i]? with
      | none => exact Or.inl (hnothing _ (by simp only [step, expire, htask]))
      | some t =>
          obtain ⟨j, k⟩ := t
          cases k with
          | none => exact Or.inl (hnothing _ (by simp only [step, expire, htask]))
          | some ticket =>
              cases hdeadline : h.shop.deadline with
              | none => exact Or.inl (hnothing _ (by simp only [step, expire, htask, hdeadline]))
              | some limit =>
                  obtain ⟨x, hx⟩ := noted_expire limit htask (hconsults i j ticket htask)
                  refine Or.inr (Or.inr (Or.inr ⟨i, j, some ticket, x, ?_⟩))
                  simp only [step, expire, htask, hdeadline]
                  exact hx
  | setPayments fails latency => exact Or.inl ⟨_, rfl, rfl, rfl, rfl⟩
  | setInventory inventory => exact Or.inl ⟨_, rfl, rfl, rfl, rfl⟩

end Hall

end OrderDesk
