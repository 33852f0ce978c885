/-
# Runs are serializable

However the calls of a run interleave, those that succeeded could have been made one at a time: there
is an order of them, each at its point, in which every one gives the same result and the store ends the
same. What fails leaves no trace in the store.
-/
import OrderDesk.Proofs.Desk.Absence
import OrderDesk.Proofs.Desk.Serial

namespace OrderDesk

/-- A step of a call that does not succeed in the end leaves the store as it is. -/
theorem Floor.store_advance_of_not_succeeded (f : Floor) (i : Nat) (draw : Draw) (outside : Answer)
    (later : List Move)
    (hno : ∀ j, ((f.advance i draw outside).run later).jobs[i]? = some j → j.succeeded = false) :
    (f.advance i draw outside).store = f.store := by
  have hstore := Floor.store_step f (.advance i draw outside)
  rwa [Floor.left?_of_not_succeeded hno] at hstore

/-- Over any store that a history of actions can leave, and with any answers from outside: the jobs of
a run that succeeded have an order by their points in which, done one at a time from the same store and
with the same answers, identifiers and times, each has the same result, and the store at the end is the
same. No step of a job that does not succeed changes the store. -/
theorem serializable (actions : List StoreAction) (hsmall : Store.empty.SmallAlong actions)
    (moves : List Move) (hown : ∀ m ∈ moves, m.IsOwn) :
    let opened := Floor.opening (Store.empty.after actions)
    let f := opened.run moves
    (∃ order : List Job,
      order.Perm (f.jobs.filter Job.succeeded) ∧ order.Pairwise Job.Before ∧
        (opened.desk.serially order).2 = order.map Job.call ∧
        (opened.desk.serially order).1.store = f.store) ∧
      ∀ before i draw outside later, moves = before ++ .advance i draw outside :: later →
        (∀ j, f.jobs[i]? = some j → j.succeeded = false) →
        ((opened.run before).advance i draw outside).store = (opened.run before).store := by
  intro opened f
  have hopened : opened.Inv := Floor.inv_opening (Store.sound_after hsmall)
  constructor
  · obtain ⟨order, hserial⟩ := Floor.exists_serial_run hopened hown (Floor.serial_opening _)
    exact ⟨order, hserial.perm, hserial.sorted, hserial.ends, hserial.store⟩
  · rintro before i draw outside later rfl hno
    apply Floor.store_advance_of_not_succeeded (opened.run before) i draw outside later
    intro j hj
    apply hno j
    rw [show f = opened.run (before ++ .advance i draw outside :: later) from rfl,
      Floor.run_append]
    exact hj

/-- A payment, a cancellation and a look at one order: all three read it, and the cancellation is
written while the payment is charged. -/
def Floor.raceAgain : List Move :=
  [.ask (.pay raceOrder "CARD"), .ask (.cancel raceOrder), .ask (.fetch raceOrder),
    raceStep 0 (.prices (.ok [])), raceStep 1 (.prices (.ok [])), raceStep 0 (.method (.ok .card)),
    raceStep 1 (.prices (.ok [])), raceStep 0 (.charge (.ok ⟨⟨11#128⟩⟩)), raceStep 2 (.prices (.ok [])),
    raceStep 0 (.prices (.ok []))]

/-- The cancellation and the look have an order, and the payment, which comes too late, changes
nothing. -/
theorem serializable_raceAgain :
    let opened := Floor.opening (Store.empty.after [.insertNew Floor.raceRecord])
    let f := opened.run Floor.raceAgain
    (∃ order : List Job, order.length = 2 ∧ order.Pairwise Job.Before ∧
      (opened.desk.serially order).2 = order.map Job.call ∧
      (opened.desk.serially order).1.store = f.store) ∧
      ((opened.run (Floor.raceAgain.take 9)).advance 0 Floor.raceDraw (.prices (.ok []))).store =
        (opened.run (Floor.raceAgain.take 9)).store := by
  obtain ⟨⟨order, hperm, hsorted, hends, hstore⟩, hfails⟩ :=
    serializable [.insertNew Floor.raceRecord] (by decide) Floor.raceAgain (by decide)
  refine ⟨⟨order, ?_, hsorted, hends, hstore⟩,
    hfails (Floor.raceAgain.take 9) 0 Floor.raceDraw (.prices (.ok [])) [] rfl ?_⟩
  · rw [hperm.length_eq]
    decide
  · decide

end OrderDesk
