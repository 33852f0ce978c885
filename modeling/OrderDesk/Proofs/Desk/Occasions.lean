/-
# One command among others

A command on any floor, from the moment it is given. Its job goes on need by need, and before each of its
moves the others may do what they like: give commands, go on with theirs, or write to the store. What the
job does is told occasion by occasion.

* `Occasion` : what the others do, and then one move of the job;
* `Floor.served` : the floor after a command was given and its job has gone on so many times;
* `Floor.getElem?_run_of_spares` : others leave a job as it is;
* `Floor.turn_served`, `Floor.told_served` : what one more occasion does;
* `Floor.exists_course_run` : a job only ever adds to what it has behind it;
* `Job.pricesAsked`, `Job.chargesAsked` : what a job has asked of the services.
-/
import OrderDesk.Proofs.Desk.Floor

namespace OrderDesk

/-! ## Occasions -/

/-- What happens until a job has gone on once more: moves of others, and then its own, with this draw and
with this answer where the store does not answer. -/
structure Occasion where
  others : List Move
  draw : Draw
  outside : Answer

/-- Whether a move is of anything but this job. -/
def Move.Spares (i : Nat) : Move → Prop
  | .advance n .. => n ≠ i
  | _ => True

instance (i : Nat) : DecidablePred (Move.Spares i)
  | .ask _ => .isTrue trivial
  | .advance n .. => inferInstanceAs (Decidable (n ≠ i))
  | .intrude .. => .isTrue trivial

namespace Occasion

/-- Whether the others let this job be. -/
def Spares (i : Nat) (x : Occasion) : Prop :=
  ∀ m ∈ x.others, m.Spares i

instance (i : Nat) (x : Occasion) : Decidable (x.Spares i) :=
  inferInstanceAs (Decidable (∀ m ∈ x.others, m.Spares i))

/-- The moves of an occasion for this job. -/
def moves (i : Nat) (x : Occasion) : List Move :=
  x.others ++ [.advance i x.draw x.outside]

end Occasion

namespace Floor

variable {f : Floor} {i : Nat}

/-- A command is given, and its job goes on once on every occasion. -/
def served (f : Floor) (command : Command) (xs : List Occasion) : Floor :=
  (f.step (.ask command)).run (xs.flatMap (·.moves f.jobs.length))

theorem served_nil (f : Floor) (command : Command) : f.served command [] = f.step (.ask command) :=
  rfl

theorem served_append (f : Floor) (command : Command) (xs ys : List Occasion) :
    f.served command (xs ++ ys) =
      (f.served command xs).run (ys.flatMap (·.moves f.jobs.length)) := by
  rw [served, List.flatMap_append, run_append]
  rfl

theorem served_concat (f : Floor) (command : Command) (xs : List Occasion) (x : Occasion) :
    f.served command (xs ++ [x]) =
      ((f.served command xs).run x.others).advance f.jobs.length x.draw x.outside := by
  rw [served_append, List.flatMap_singleton, Occasion.moves, run_append]
  rfl

/-- A job is where it was after moves of others. -/
theorem getElem?_run_of_spares {moves : List Move} (hmoves : ∀ m ∈ moves, m.Spares i) {j : Job}
    (hj : f.jobs[i]? = some j) : (f.run moves).jobs[i]? = some j := by
  induction moves generalizing f with
  | nil => exact hj
  | cons m rest ih =>
      refine ih (fun k hk => hmoves k (List.mem_cons_of_mem m hk)) ?_
      cases m with
      | ask command =>
          obtain ⟨hi, -⟩ := List.getElem?_eq_some_iff.1 hj
          rw [jobs_ask, List.getElem?_append_left hi]
          exact hj
      | intrude o expected => exact hj
      | advance n draw outside =>
          have hn : n ≠ i := hmoves _ List.mem_cons_self
          rw [step, getElem?_advance_ne hn]
          exact hj

/-- A command that was just given has its job in the last place. -/
theorem getElem?_served_nil (f : Floor) (command : Command) :
    (f.served command []).jobs[f.jobs.length]? = some ⟨command, Call.start command, []⟩ := by
  rw [served_nil, jobs_ask]
  exact List.getElem?_concat_length

/-- A job has at any later time what it had behind it, and perhaps more. -/
theorem exists_course_run {j : Job} (hj : f.jobs[i]? = some j)
    (hcourse : Course j.command j.log j.call) (moves : List Move) :
    ∃ k rest, (f.run moves).jobs[i]? = some k ∧ k.command = j.command ∧ k.log = j.log ++ rest ∧
      Course j.command k.log k.call := by
  suffices h : ∃ k, (f.run moves).jobs[i]? = some k ∧ k.command = j.command ∧
      (∃ rest, k.log = j.log ++ rest) ∧ Course j.command k.log k.call by
    obtain ⟨k, hk, hcommand, ⟨rest, hlog⟩, hc⟩ := h
    exact ⟨k, rest, hk, hcommand, hlog, hc⟩
  have hstart : ∃ k, f.jobs[i]? = some k ∧ k.command = j.command ∧
      (∃ rest, k.log = j.log ++ rest) ∧ Course j.command k.log k.call :=
    ⟨j, hj, rfl, ⟨[], (List.append_nil _).symm⟩, hcourse⟩
  clear hj
  induction moves generalizing f with
  | nil => exact hstart
  | cons m rest ih =>
      refine ih (exists_getElem?_step (p := fun k => k.command = j.command ∧
        (∃ rest, k.log = j.log ++ rest) ∧ Course j.command k.log k.call) m hstart ?_)
      rintro k y ht ⟨hcommand, ⟨more, hlog⟩, hc⟩
      exact ⟨hcommand, ⟨more ++ [y], by rw [Job.log_next, hlog, List.append_assoc]⟩,
        hc.next ht.need ht.honest⟩

section Served

variable {command : Command} {xs : List Occasion} {x : Occasion} {j : Job}

/-- On the next occasion a job takes a turn, if it is given what it needs. -/
theorem turn_served (hx : x.Spares f.jobs.length)
    (hj : (f.served command xs).jobs[f.jobs.length]? = some j) {n : Need} (hn : j.call.need = some n)
    (htakes : n.takes (((f.served command xs).run x.others).desk.serve n x.outside).2 = true) :
    Turn ((f.served command xs).run x.others) f.jobs.length j
      ⟨((f.served command xs).run x.others).time, n, x.draw,
        (((f.served command xs).run x.others).desk.serve n x.outside).2⟩
      (f.served command (xs ++ [x])) := by
  rw [served_concat]
  exact turn_advance (getElem?_run_of_spares hx hj) hn htakes x.draw

/-- On the next occasion a job that needs something from outside goes on with what it is told there, and
the store is left alone. -/
theorem told_served (hx : x.Spares f.jobs.length)
    (hj : (f.served command xs).jobs[f.jobs.length]? = some j) {n : Need} (hn : j.call.need = some n)
    (houtside : ∀ d : Desk, d.serve n x.outside = (d, x.outside)) (htakes : n.takes x.outside = true) :
    (∃ t, (f.served command (xs ++ [x])).jobs[f.jobs.length]? =
        some (j.next ⟨t, n, x.draw, x.outside⟩)) ∧
      (f.served command (xs ++ [x])).store = ((f.served command xs).run x.others).store := by
  have hturn := turn_served hx hj hn (by rw [houtside]; exact htakes)
  have hstore := hturn.store.trans (Desk.store_serve _ _ _ _ _).symm
  rw [houtside] at hturn hstore
  exact ⟨⟨_, hturn.job_after⟩, hstore⟩

/-- The next occasion is nothing to a job that is over, which leaves the floor to the others. -/
theorem served_of_finished (hj : (f.served command xs).jobs[f.jobs.length]? = some j)
    (hdone : j.call.need = none) (x : Occasion) :
    f.served command (xs ++ [x]) = (f.served command xs).run x.others := by
  rw [served_concat]
  exact advance_of_finished (getElem?_run_of_finished hj hdone x.others) hdone x.draw x.outside

/-- A job that is over stays as it is on all further occasions. -/
theorem getElem?_served_of_finished (hj : (f.served command xs).jobs[f.jobs.length]? = some j)
    (hdone : j.call.need = none) (ys : List Occasion) :
    (f.served command (xs ++ ys)).jobs[f.jobs.length]? = some j := by
  rw [served_append]
  exact getElem?_run_of_finished hj hdone _

/-- A job has had the exchanges that its call shows. -/
theorem course_served (hj : (f.served command xs).jobs[f.jobs.length]? = some j) :
    Course command j.log j.call := by
  obtain ⟨k, rest, hk, -, -, hcourse⟩ := exists_course_run (f.getElem?_served_nil command) .start
    (xs.flatMap (·.moves f.jobs.length))
  rw [← served_append, List.nil_append] at hk
  obtain rfl := Option.some.inj (hk.symm.trans hj)
  exact hcourse

end Served

end Floor

/-! ## What is asked of the services -/

/-- The parts whose prices were asked for. -/
def Exchange.pricesAsked? (x : Exchange) : Option (List PartId) :=
  match x.need with
  | .prices ids => some ids
  | _ => none

/-- The charge that was asked for. -/
def Exchange.chargeAsked? (x : Exchange) : Option (UserId × OrderId × PaymentMethod) :=
  match x.need with
  | .charge user order m => some (user, order, m)
  | _ => none

namespace Job

/-- What a job has asked of the inventory, call by call. -/
def pricesAsked (j : Job) : List (List PartId) :=
  j.log.filterMap Exchange.pricesAsked?

/-- What a job has asked of the payment service, call by call. -/
def chargesAsked (j : Job) : List (UserId × OrderId × PaymentMethod) :=
  j.log.filterMap Exchange.chargeAsked?

theorem chargesAsked_next (j : Job) (x : Exchange) :
    (j.next x).chargesAsked = j.chargesAsked ++ x.chargeAsked?.toList := by
  cases h : x.chargeAsked? <;> simp [chargesAsked, h]

end Job

end OrderDesk
