/-
# Server errors are faults of others

The status 500 never speaks of an order or of a request. Whatever is stored, whatever the inventory and
the payment service answer, and however the calls interleave, it means that one of these two gave an
error, let its time run out, or answered with a negative price.

* `Exchange.faulty` : whether an exchange shows such a fault;
* `Cause.faulty_of_status` : a failure with this status has one behind it;
* `server_errors_are_faults` : what the failures of calls and the status of their responses can be.
-/
import OrderDesk.Proofs.Desk.Causes
import OrderDesk.Proofs.Http.Failures

namespace OrderDesk

/-- Whether a gateway was at fault: it gave an error, which may be that its time was up, or it answered
with a negative price. -/
def Exchange.faulty (x : Exchange) : Bool :=
  match x.answer with
  | .prices (.ok snapshots) => snapshots.any (·.price.isNegative)
  | .prices (.error _) | .method (.error _) | .charge (.error _) => true
  | _ => false

/-- The command of a request that could be read. -/
def Plan.command? : Plan → Option Command
  | .command c _ => some c
  | _ => none

/-- A failure that is answered with the status 500 has a fault of a gateway behind it. -/
theorem Cause.faulty_of_status {command : Command} {log : List Exchange} {e : OrderError}
    (h : Cause command log e) (hstatus : e.status = 500) : ∃ x ∈ log, x.faulty = true := by
  cases h with
  | @inventory _ _ x _ _ _ ha => exact ⟨x, by simp, by simp [Exchange.faulty, ha]⟩
  | @pricing _ _ x snapshots _ _ _ ha htotal =>
      rcases Pricing.of_total_eq_error htotal with ⟨bad, hbad, hnegative, -⟩ | rfl | rfl
      · refine ⟨x, by simp, ?_⟩
        simp only [Exchange.faulty, ha, List.any_eq_true]
        exact ⟨bad, hbad, hnegative⟩
      · cases hstatus
      · cases hstatus
  | @method _ _ x y _ _ _ _ ha => exact ⟨y, by simp, by simp [Exchange.faulty, ha]⟩
  | @charge _ _ _ x y z _ _ _ ha => exact ⟨z, by simp, by simp [Exchange.faulty, ha]⟩
  | _ => cases hstatus

/-- The status of the response to a command is that of its result. -/
theorem Request.status_of_command {r : Request} {c : Command} (h : (Api.plan r).command? = some c)
    (o : Outcome) (d : Desk) : (r.response (some o) d).status = (Api.answer o).status := by
  rw [status_response]
  cases hplan : Api.plan r with
  | command c view =>
      obtain rfl : view = Api.answer := Api.answers_plan r c view hplan
      rfl
  | reply response => simp [hplan, Plan.command?] at h
  | look view => simp [hplan, Plan.command?] at h

/-- Over any store, whatever is answered from outside and whoever else writes: no call fails by a
violated rule; a cancellation fails only if there is no record, if that is paid, or by another write;
and a request that could be read is answered with the status 500 only if one of its exchanges shows a
fault of a gateway. -/
theorem server_errors_are_faults (s : Store) (moves : List Move) :
    ∀ j ∈ ((Floor.opening s).run moves).jobs,
      (∀ violation, j.call ≠ .failed (.rule violation)) ∧
      (∀ id e, j.command = .cancel id → j.call = .failed e →
        e = .notFound id ∨ e = .alreadyPaid id ∨
          ∃ expected actual, e = .concurrentModification id expected actual) ∧
      ∀ (r : Request) o d, (Api.plan r).command? = some j.command → j.call = .finished o →
        (r.response (some o) d).status = 500 → ∃ x ∈ j.log, x.faulty = true := by
  intro j hj
  have hcourse := Floor.course_run s moves j hj
  have hcause : ∀ e, j.call = .failed e → Cause j.command j.log e := by
    intro e hcall
    rw [hcall] at hcourse
    exact hcourse.cause
  refine ⟨?_, ?_, ?_⟩
  · intro violation hcall
    exact (hcause _ hcall).kind_ne_rule rfl
  · intro id e hcommand hcall
    have hcancel := hcause e hcall
    rw [hcommand] at hcancel
    exact hcancel.of_cancel
  · intro r o d hplan hcall hstatus
    rw [Request.status_of_command hplan] at hstatus
    cases o with
    | ok receipt =>
        have hsuccess := Api.status_answer_ok receipt
        omega
    | error e => exact (hcause e hcall).faulty_of_status hstatus

/-- The card is declined, and another order that is to be cancelled does not exist. -/
def Floor.declined : List Move :=
  [.ask (.pay raceOrder "CARD"), .ask (.cancel ⟨⟨8#128⟩⟩), raceStep 1 (.prices (.ok [])),
    raceStep 0 (.prices (.ok [])), raceStep 0 (.method (.ok .card)),
    raceStep 0 (.charge (.error (.declined "no funds")))]

/-- A request to pay for the order of the race. -/
def Request.payRace : Request :=
  ⟨"POST", "/api/v1/orders/00000000-0000-0000-0000-000000000007/pay",
    [("content-type", "application/json")], "\x7b\"payment_method\":\"CARD\"\x7d"⟩

/-- The declined card is a server error with a fault behind it, and the cancellation finds nothing. -/
theorem server_errors_are_faults_declined :
    let f := (Floor.opening (Store.empty.after [.insertNew Floor.raceRecord])).run Floor.declined
    (∃ j, f.jobs[0]? = some j ∧ (∀ violation, j.call ≠ .failed (.rule violation)) ∧
        ∃ o, j.call = .finished o ∧ (Request.payRace.response (some o) f.desk).status = 500 ∧
          ∃ x ∈ j.log, x.faulty = true) ∧
      ∃ j e, f.jobs[1]? = some j ∧ j.command = .cancel ⟨⟨8#128⟩⟩ ∧ j.call = .failed e ∧
        (e = .notFound ⟨⟨8#128⟩⟩ ∨ e = .alreadyPaid ⟨⟨8#128⟩⟩ ∨
          ∃ expected actual, e = .concurrentModification ⟨⟨8#128⟩⟩ expected actual) := by
  intro f
  have hfaults := server_errors_are_faults (Store.empty.after [.insertNew Floor.raceRecord])
    Floor.declined
  have hplan : (Api.plan Request.payRace).command? = some (.pay Floor.raceOrder "CARD") := by
    decide +kernel
  constructor
  · obtain ⟨hrule, -, hfault⟩ := hfaults _ (List.mem_of_getElem? (i := 0) rfl)
    have hstatus : ∀ d, (Request.payRace.response
        (some (.error (.ofPayment (.declined "no funds")))) d).status = 500 :=
      fun d => Request.status_of_command hplan _ d
    exact ⟨_, rfl, hrule, _, rfl, hstatus f.desk, hfault _ _ f.desk hplan rfl (hstatus f.desk)⟩
  · obtain ⟨-, hcancel, -⟩ := hfaults _ (List.mem_of_getElem? (i := 1) rfl)
    exact ⟨_, _, rfl, rfl, rfl, hcancel _ _ rfl rfl⟩

end OrderDesk
