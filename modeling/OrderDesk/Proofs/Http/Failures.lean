/-
# Failures leave no trace

A call that fails has written nothing, however far it came: other calls have the same results without
it, and the same records are written. So a request that is answered with a failure leaves the store as
it was.

* `Shop.serve_command` : a command that is served on its own changes the store only if it succeeds;
* `Api.answers_plan` : every command of a request is answered by its result;
* `failures_leave_no_trace` : what failures leave behind, at the desk and over HTTP.
-/
import OrderDesk.Http.Api
import OrderDesk.Proofs.Desk.Absence
import OrderDesk.Proofs.Shop.Alone

namespace OrderDesk

/-! ## Failed calls -/

/-- A call that fails is not missed: without it the others have the same results, and the same records
are written. -/
theorem Floor.misses_of_failed {f : Floor} {command : Command} {after : List Move} {j : Job}
    {e : OrderError} (hj : ((f.step (.ask command)).run after).jobs[f.jobs.length]? = some j)
    (hcall : j.call = .failed e) :
    f.journal (after.filterMap (·.without? f.jobs.length)) = f.journal (.ask command :: after) ∧
      (f.run (.ask command :: after)).Misses
        (f.run (after.filterMap (·.without? f.jobs.length))) f.jobs.length := by
  apply misses_run (misses_ask f command)
  intro k hk
  obtain rfl : j = k := Option.some.inj (hj.symm.trans hk)
  rw [Bool.eq_false_iff, ne_eq, Job.succeeded_iff]
  rintro ⟨receipt, hsucceeded⟩
  rw [hcall] at hsucceeded
  cases hsucceeded

/-! ## Clients -/

namespace Shop

/-- A look at the desk is over at once. -/
theorem serve_look (s : Shop) : s.serve [(0, .look)] = (s, 0, [⟨0, .finished none s.desk⟩]) :=
  rfl

/-- A command that is served on its own comes to its end, and changes the store only if it succeeds. -/
theorem serve_command (s : Shop) (command : Command) :
    ∃ after time due outcome desk,
      s.serve [(0, .command command)] = (after, time, [⟨due, .finished outcome desk⟩]) ∧
        (after.desk.store = s.desk.store ∨ ∃ receipt, outcome = some (.ok receipt)) := by
  obtain ⟨o, hcall, hserve⟩ := s.serve_carryOut command
  refine ⟨_, _, _, _, _, hserve, ?_⟩
  rcases s.store_carryOut command with hstore | ⟨receipt, hsucceeded⟩
  · exact Or.inl hstore
  · rw [hcall] at hsucceeded
    cases hsucceeded
    exact Or.inr ⟨receipt, rfl⟩

end Shop

/-! ## Requests -/

namespace Response

@[simp] theorem status_withHeader (r : Response) (name value : String) :
    (r.withHeader name value).status = r.status := rfl

@[simp] theorem status_withoutBody (r : Response) : r.withoutBody.status = r.status := by
  unfold withoutBody
  split <;> rfl

@[simp] theorem status_forAnyOrigin (r : Response) : r.forAnyOrigin.status = r.status := rfl

end Response

/-- The status of a response is that of the answer of its plan. -/
theorem Request.status_response (r : Request) (outcome : Option Outcome) (d : Desk) :
    (r.response outcome d).status = ((Api.plan r).response outcome d).status := by
  unfold response
  split <;> simp

/-- Every command of a plan is answered by its result. -/
def Plan.Answers (p : Plan) : Prop :=
  ∀ c view, p = .command c view → view = Api.answer

namespace Api

/-- A success is no failure. -/
theorem status_answer_ok (receipt : Receipt) : (answer (.ok receipt)).status < 400 := by
  cases receipt <;> simp [answer, Response.json, Response.bare]

theorem answers_reply (r : Response) : (Plan.reply r).Answers := by
  intro c view h
  cases h

theorem answers_look (view : Desk → Response) : (Plan.look view).Answers := by
  intro c view h
  cases h

theorem answers_planOf (c : Except ApiError Command) : (planOf c).Answers := by
  intro command view h
  cases c with
  | error e => cases h
  | ok c =>
      cases h
      rfl

theorem answers_withOrder (segment : List Char) {plan : String → Plan}
    (h : ∀ text, (plan text).Answers) : (withOrder segment plan).Answers := by
  unfold withOrder
  split
  · exact h _
  · exact answers_reply _

theorem answers_withContent {α : Type} [Wire α] (r : Request) {plan : α → Plan}
    (h : ∀ a, (plan a).Answers) : (withContent r plan).Answers := by
  unfold withContent
  split
  · exact h _
  · exact answers_reply _

theorem answers_serve (r : Request) (resource : Resource) : (serve r resource).Answers := by
  cases resource with
  | health => exact answers_look _
  | metrics => exact answers_look _
  | orders => exact answers_withContent r fun _ => answers_planOf _
  | order segment => exact answers_withOrder segment fun _ => answers_planOf _
  | payment segment =>
      exact answers_withOrder segment fun _ => answers_withContent r fun _ => answers_planOf _
  | cancellation segment => exact answers_withOrder segment fun _ => answers_planOf _

/-- Every command of a request is answered by its result. -/
theorem answers_plan (r : Request) : (plan r).Answers := by
  unfold plan
  simp only
  repeat' split
  · exact answers_reply _
  · exact answers_reply _
  · exact answers_serve r _
  · exact answers_reply _

end Api

/-- A request that is served on its own is answered, and if with a failure, the store is what it was. -/
theorem Request.served_alone (r : Request) (s : Shop) :
    ∃ after time due outcome desk,
      s.serve [(0, (Api.plan r).activity)] = (after, time, [⟨due, .finished outcome desk⟩]) ∧
        (400 ≤ (r.response outcome desk).status → after.desk.store = s.desk.store) := by
  cases hplan : Api.plan r with
  | reply response => exact ⟨s, 0, 0, none, s.desk, s.serve_look, fun _ => rfl⟩
  | look view => exact ⟨s, 0, 0, none, s.desk, s.serve_look, fun _ => rfl⟩
  | command c view =>
      obtain rfl : view = Api.answer := Api.answers_plan r c view hplan
      obtain ⟨after, time, due, outcome, desk, hserve, hend⟩ := s.serve_command c
      refine ⟨after, time, due, outcome, desk, hserve, fun hfailure => ?_⟩
      rcases hend with hstore | ⟨receipt, rfl⟩
      · exact hstore
      · rw [status_response, hplan] at hfailure
        exact absurd hfailure (Nat.not_le.2 (Api.status_answer_ok receipt))

/-! ## What failures leave behind -/

/-- Over any store, whatever is answered from outside and whoever else writes: a call that fails has
written nothing, and without it the same records are written, the store ends the same, and all other
calls stand where they stood. Over HTTP, whatever is requested of whatever shop: a request on its own is
answered, and if its answer is a failure, the store and so the number of its orders is what it was. -/
theorem failures_leave_no_trace :
    (∀ (s : Store) (before after : List Move) (command : Command),
      let opened := Floor.opening s
      let i := (opened.run before).jobs.length
      let moves := before ++ .ask command :: after
      let others := before ++ after.filterMap (·.without? i)
      ∃ j, (opened.run moves).jobs[i]? = some j ∧ j.command = command ∧
        ∀ e, j.call = .failed e →
          j.writes = [] ∧ opened.journal others = opened.journal moves ∧
            (opened.run others).store = (opened.run moves).store ∧
            (opened.run others).calls = (opened.run moves).calls.eraseIdx i) ∧
      ∀ (s : Shop) (r : Request), ∃ after time due outcome desk,
        s.serve [(0, (Api.plan r).activity)] = (after, time, [⟨due, .finished outcome desk⟩]) ∧
          (400 ≤ (r.response outcome desk).status →
            after.desk.store = s.desk.store ∧ after.desk.store.size = s.desk.store.size) := by
  constructor
  · intro s before after command opened i moves others
    have hrun : opened.run moves = ((opened.run before).step (.ask command)).run after := by
      rw [Floor.run_append]
      rfl
    obtain ⟨j, hj, hcommand⟩ : ∃ j, (opened.run moves).jobs[i]? = some j ∧ j.command = command := by
      rw [hrun]
      refine Floor.exists_job_run ⟨⟨command, Call.start command, []⟩, ?_, rfl⟩ after
      rw [Floor.jobs_ask]
      exact List.getElem?_concat_length
    refine ⟨j, hj, hcommand, fun e hcall => ?_⟩
    have hwrites : j.writes = [] :=
      Job.writes_eq_nil_of_failed (Floor.course_run s moves j (List.mem_of_getElem? hj)) hcall
    rw [hrun] at hj
    obtain ⟨hjournal, hmisses⟩ := Floor.misses_of_failed hj hcall
    have hsame : opened.journal others = opened.journal moves := by
      rw [Floor.journal_append, Floor.journal_append, hjournal]
    refine ⟨hwrites, hsame, ?_, ?_⟩
    · rw [Floor.store_run, Floor.store_run, hsame]
    · rw [Floor.run_append, Floor.run_append]
      exact hmisses.calls
  · intro s r
    obtain ⟨after, time, due, outcome, desk, hserve, hfailure⟩ := r.served_alone s
    refine ⟨after, time, due, outcome, desk, hserve, fun hstatus => ?_⟩
    have hstore := hfailure hstatus
    exact ⟨hstore, by rw [hstore]⟩

/-- The order of the race is cancelled while it is charged for, so that the payment comes too late. -/
def Floor.lateCharge : List Move :=
  [raceStep 1 (.prices (.ok [])), raceStep 0 (.prices (.ok [])), raceStep 0 (.prices (.ok [])),
    raceStep 1 (.method (.ok .card)), raceStep 1 (.charge (.ok ⟨⟨11#128⟩⟩)),
    raceStep 1 (.prices (.ok []))]

/-- A shop with the order of the race, paid. -/
def Shop.paidRace : Shop :=
  { Shop.opening .empty none (fun _ => 5#128) (fun _ => Floor.raceDraw.now) with
    desk := ⟨Store.empty.set Floor.racePaid, []⟩ }

/-- A request to cancel that order. -/
def Request.cancelRace : Request :=
  ⟨"POST", "/api/v1/orders/00000000-0000-0000-0000-000000000007/cancel", [], ""⟩

/-- The late payment is not missed, and the paid order is not cancelled. -/
theorem failures_leave_no_trace_lateCharge :
    let opened := Floor.opening (Store.empty.after [.insertNew Floor.raceRecord])
    opened.journal [.ask (.cancel Floor.raceOrder), Floor.raceStep 0 (.prices (.ok [])),
        Floor.raceStep 0 (.prices (.ok []))] =
      opened.journal ([.ask (.cancel Floor.raceOrder)] ++
        .ask (.pay Floor.raceOrder "CARD") :: Floor.lateCharge) ∧
      ∃ after time due outcome desk,
        Shop.paidRace.serve [(0, (Api.plan Request.cancelRace).activity)] =
            (after, time, [⟨due, .finished outcome desk⟩]) ∧
          (Request.cancelRace.response outcome desk).status = 409 ∧
          after.desk.store = Shop.paidRace.desk.store := by
  intro opened
  obtain ⟨hcalls, hrequests⟩ := failures_leave_no_trace
  constructor
  · obtain ⟨j, hj, -, hfails⟩ := hcalls (Store.empty.after [.insertNew Floor.raceRecord])
      [.ask (.cancel Floor.raceOrder)] Floor.lateCharge (.pay Floor.raceOrder "CARD")
    obtain rfl := Option.some.inj hj
    exact (hfails _ rfl).2.1
  · obtain ⟨after, time, due, outcome, desk, hserve, hfailure⟩ :=
      hrequests Shop.paidRace Request.cancelRace
    have hrefused : (Shop.paidRace.serve [(0, (Api.plan Request.cancelRace).activity)]).2.2 =
        [⟨0, .finished (some (.error (.alreadyPaid Floor.raceOrder)))
          (Shop.paidRace.serve [(0, (Api.plan Request.cancelRace).activity)]).1.desk⟩] := by
      rfl
    rw [hserve] at hrefused
    obtain rfl : outcome = some (.error (.alreadyPaid Floor.raceOrder)) := by
      simp only [List.cons.injEq, Client.mk.injEq, Stage.finished.injEq] at hrefused
      exact hrefused.1.2.1
    have hstatus : (Request.cancelRace.response
        (some (.error (.alreadyPaid Floor.raceOrder))) desk).status = 409 := by
      rw [Request.status_response]
      rfl
    exact ⟨after, time, due, _, desk, hserve, hstatus, (hfailure (by rw [hstatus]; decide)).1⟩

end OrderDesk
