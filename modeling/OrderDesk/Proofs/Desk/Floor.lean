/-
# The floor

Any number of `create_order`, `get_order`, `pay_order` and `cancel_order` at once, over one store. The floor
is the desk with every command that was ever given to it. A run is a list of moves: a command is given, a
call goes on by one need, or somebody else writes to the store by `put`. Calls interleave at every await,
and whatever the inventory or the payment service answers is part of the move, so they may answer
anything.

* `Turn` : all that one need of one call changes on the floor;
* `Floor.advance_cases` : a call that is told to go on takes a turn, or nothing happens;
* `Floor.mem_run_of_finished` : a finished job stays as it is;
* `Floor.course_run` : every job has had the exchanges that its call shows.
-/
import OrderDesk.Proofs.Store.History
import OrderDesk.Proofs.Desk.Course

namespace OrderDesk

/-! ## Jobs and moves -/

/-- Whether an answer is of the kind that a need asks for. -/
def Need.takes : Need → Answer → Bool
  | .prices _, .prices _ | .record _, .record _ | .method _, .method _ | .charge .., .charge _
  | .write .., .written _ => true
  | _, _ => false

/-- A command that was given to the desk, the call at work on it, and what that call has exchanged. -/
structure Job where
  command : Command
  call : Call
  log : List Exchange

/-- The job after one more exchange. -/
def Job.next (j : Job) (x : Exchange) : Job :=
  ⟨j.command, j.call.resume x.draw x.answer, j.log ++ [x]⟩

@[simp] theorem Job.command_next (j : Job) (x : Exchange) : (j.next x).command = j.command := rfl

@[simp] theorem Job.call_next (j : Job) (x : Exchange) :
    (j.next x).call = j.call.resume x.draw x.answer := rfl

@[simp] theorem Job.log_next (j : Job) (x : Exchange) : (j.next x).log = j.log ++ [x] := rfl

/-- The desk with all that it was ever asked. The time is the number of exchanges so far; no step depends on
it or on the logs. -/
structure Floor where
  desk : Desk
  jobs : List Job
  time : Nat

/-- What can happen next: a command is given, a job goes on, or another writer writes an order. -/
inductive Move
  | ask (command : Command)
  | advance (job : Nat) (draw : Draw) (outside : Answer)
  | intrude (order : Order) (expected : Option Version)

/-- Whether a move is one of the desk itself. -/
def Move.IsOwn : Move → Prop
  | intrude .. => False
  | _ => True

instance : DecidablePred Move.IsOwn
  | .ask _ => .isTrue trivial
  | .advance .. => .isTrue trivial
  | .intrude .. => .isFalse id

namespace Floor

/-- The floor before the first command, over a store that may hold records already. -/
def opening (s : Store) : Floor :=
  ⟨⟨s, []⟩, [], 0⟩

/-- The order store. -/
abbrev store (f : Floor) : Store :=
  f.desk.store

@[simp] theorem store_opening (s : Store) : (opening s).store = s := rfl

@[simp] theorem jobs_opening (s : Store) : (opening s).jobs = [] := rfl

/-- A command is given to the desk. -/
def ask (f : Floor) (command : Command) : Floor :=
  let (desk, call) := f.desk.start command
  { f with desk, jobs := f.jobs ++ [⟨command, call, []⟩] }

/-- A job goes on by one need. Nothing happens if there is no such job, if it needs nothing, or if the
answer from outside is of another kind. -/
def advance (f : Floor) (i : Nat) (draw : Draw) (outside : Answer) : Floor :=
  match f.jobs[i]? with
  | none => f
  | some j =>
      match j.call.need with
      | none => f
      | some n =>
          let answer := (f.desk.serve n outside).2
          if n.takes answer then
            let (desk, call) := f.desk.step j.call draw outside
            ⟨desk, f.jobs.set i ⟨j.command, call, j.log ++ [⟨f.time, n, draw, answer⟩]⟩, f.time + 1⟩
          else f

/-- Another writer writes an order. -/
def intrude (f : Floor) (o : Order) (expected : Option Version) : Floor :=
  { f with desk := (f.desk.put o expected).1 }

/-- The floor after a move. -/
def step (f : Floor) : Move → Floor
  | .ask command => f.ask command
  | .advance i draw outside => f.advance i draw outside
  | .intrude o expected => f.intrude o expected

/-- The floor after a run. -/
def run (f : Floor) : List Move → Floor
  | [] => f
  | m :: rest => (f.step m).run rest

theorem run_append (f : Floor) (xs ys : List Move) : f.run (xs ++ ys) = (f.run xs).run ys := by
  induction xs generalizing f with
  | nil => rfl
  | cons m rest ih => exact ih (f.step m)

end Floor

/-! ## The desk in one step -/

namespace Desk

@[simp] theorem store_conclude (d : Desk) (operation : Option Operation) (c : Call) :
    (d.conclude operation c).store = d.store := by
  unfold conclude
  split <;> rfl

@[simp] theorem store_start (d : Desk) (command : Command) : (d.start command).1.store = d.store :=
  store_conclude d _ _

/-- A write is accepted exactly if the stored version is the expected one. -/
theorem serve_write (d : Desk) (o : Order) (v : Version) (outside : Answer) :
    d.serve (.write o v) outside =
      if d.store.versionOf o.id = v then
        ({ d with store := d.store.set (o.withVersion v.next) }, .written (.ok v.next))
      else
        ({ d with counters := d.counters.increment .conflicts },
          .written (.error (.conflict o.id v (d.store.versionOf o.id)))) := by
  by_cases hv : d.store.versionOf o.id = v
  · subst hv
    simp [serve, Desk.put, Store.put]
  · simp [serve, Desk.put, Store.put, hv]

/-- A step meets the need of the call and lets the call go on with the answer. -/
theorem step_of_need {d : Desk} {c : Call} {n : Need} (hn : c.need = some n) (draw : Draw)
    (outside : Answer) :
    (d.step c draw outside).1.store = (d.serve n outside).1.store ∧
      (d.step c draw outside).2 = c.resume draw (d.serve n outside).2 := by
  simp [step, hn]

/-- What an answer means for the store: only an accepted write puts in a record. -/
theorem store_serve (d : Desk) (n : Need) (outside : Answer) (t : Nat) (draw : Draw) :
    (d.serve n outside).1.store =
      ((Exchange.written? ⟨t, n, draw, (d.serve n outside).2⟩).map d.store.set).getD d.store := by
  cases n with
  | write o v =>
      rw [serve_write]
      split <;> rfl
  | prices ids => rfl
  | record id => rfl
  | method requested => rfl
  | charge user order m => rfl

/-- The answers of the store are honest, and so are all others of the right kind. -/
theorem honest_serve {d : Desk} {n : Need} {outside : Answer} (t : Nat) (draw : Draw)
    (h : n.takes (d.serve n outside).2 = true) :
    Exchange.Honest ⟨t, n, draw, (d.serve n outside).2⟩ := by
  cases n with
  | record id =>
      simp only [serve, Exchange.Honest, Store.get]
      cases hs : d.store.get? id with
      | none => rfl
      | some o => exact Store.id_of_get? hs
  | write o v =>
      rw [serve_write]
      split <;> rename_i hv
      · rfl
      · exact ⟨_, hv, rfl⟩
  | prices ids =>
      cases outside with
      | prices r => trivial
      | _ => cases h
  | method requested =>
      cases outside with
      | method r => trivial
      | _ => cases h
  | charge user order m =>
      cases outside with
      | charge r => trivial
      | _ => cases h

/-- What a call comes to by a step in which it is given an answer of the kind that it needs. -/
theorem passes_step {d : Desk} {c : Call} {n : Need} {outside : Answer} (hn : c.need = some n)
    (draw : Draw) (htakes : n.takes (d.serve n outside).2 = true) :
    c.Passes ⟨0, n, draw, (d.serve n outside).2⟩ (d.step c draw outside).2 := by
  rw [(step_of_need hn draw outside).2]
  exact Call.passes_resume hn (honest_serve 0 draw htakes)

end Desk

/-! ## Turns -/

/-- Replacing one member of a list changes the count of a kind by these two members. -/
theorem countP_set_of_getElem? {α : Type} {l : List α} {i : Nat} {a : α} (h : l[i]? = some a) (b : α)
    (p : α → Bool) :
    (l.set i b).countP p + (if p a then 1 else 0) = l.countP p + if p b then 1 else 0 := by
  obtain ⟨hi, ha⟩ := List.getElem?_eq_some_iff.1 h
  have hle : (if p l[i] then 1 else 0) ≤ l.countP p := List.boole_getElem_le_countP hi
  rw [List.countP_set hi]
  rw [ha] at hle ⊢
  omega

/-- All that one exchange of one job changes: the job goes on, and the store takes a record in if the
exchange is a write at the stored version. -/
structure Turn (f : Floor) (i : Nat) (j : Job) (x : Exchange) (g : Floor) : Prop where
  job : f.jobs[i]? = some j
  need : j.call.need = some x.need
  honest : x.Honest
  time : x.time = f.time
  jobs : g.jobs = f.jobs.set i (j.next x)
  store : g.store = (x.written?.map f.store.set).getD f.store
  clock : g.time = f.time + 1
  served : ∃ outside, x.answer = (f.desk.serve x.need outside).2

namespace Turn

variable {f g : Floor} {i : Nat} {j : Job} {x : Exchange}

theorem mem (h : Turn f i j x g) : j ∈ f.jobs :=
  List.mem_of_getElem? h.job

/-- What the call of a job comes to in its turn. -/
theorem passes (h : Turn f i j x g) : j.call.Passes x (j.next x).call :=
  Call.passes_resume h.need h.honest

theorem job_after (h : Turn f i j x g) : g.jobs[i]? = some (j.next x) := by
  rw [h.jobs, List.getElem?_set_self]
  exact (List.getElem?_eq_some_iff.1 h.job).1

theorem store_of_none (h : Turn f i j x g) (hw : x.written? = none) : g.store = f.store := by
  rw [h.store, hw]
  rfl

theorem store_of_some (h : Turn f i j x g) {w : Order} (hw : x.written? = some w) :
    g.store = f.store.set w := by
  rw [h.store, hw]
  rfl

/-- A record that is read is the stored one. -/
theorem get?_of_read? (h : Turn f i j x g) {r : Order} (hr : x.read? = some r) :
    f.store.get? r.id = some r := by
  obtain ⟨hn, ha⟩ := Exchange.need_of_read? h.honest hr
  obtain ⟨outside, hs⟩ := h.served
  rw [hn, ha] at hs
  simp only [Desk.serve, Store.get, Answer.record.injEq] at hs
  cases hget : f.desk.store.get? r.id with
  | none =>
      rw [hget] at hs
      cases hs
  | some o =>
      rw [hget] at hs
      cases hs
      rfl

/-- A record is written exactly if the version expected is the stored one. -/
theorem written?_of_need (h : Turn f i j x g) {o : Order} {v : Version}
    (hn : x.need = .write o v) :
    x.written? = if f.store.versionOf o.id = v then some (o.withVersion v.next) else none := by
  obtain ⟨outside, hs⟩ := h.served
  rw [hn, Desk.serve_write] at hs
  by_cases hv : f.store.versionOf o.id = v
  · rw [if_pos hv] at hs ⊢
    rw [Exchange.written?, hn, hs]
  · rw [if_neg hv] at hs ⊢
    rw [Exchange.written?, hn, hs]

/-- A turn changes the count of the jobs of a kind by the one job that takes it. -/
theorem countP_jobs (h : Turn f i j x g) (p : Job → Bool) :
    g.jobs.countP p + (if p j then 1 else 0) =
      f.jobs.countP p + if p (j.next x) then 1 else 0 := by
  rw [h.jobs]
  exact countP_set_of_getElem? h.job _ p

end Turn

namespace Floor

/-- The floor after a job whose need is met. -/
theorem advance_eq {f : Floor} {i : Nat} {j : Job} {n : Need} {outside : Answer}
    (hj : f.jobs[i]? = some j) (hn : j.call.need = some n)
    (htakes : n.takes (f.desk.serve n outside).2 = true) (draw : Draw) :
    f.advance i draw outside =
      ⟨(f.desk.step j.call draw outside).1,
        f.jobs.set i (j.next ⟨f.time, n, draw, (f.desk.serve n outside).2⟩), f.time + 1⟩ := by
  obtain ⟨-, hcall⟩ := Desk.step_of_need (d := f.desk) hn draw outside
  simp only [advance, hj, hn, htakes, if_true, hcall, Job.next]

/-- A job whose need is met takes a turn. -/
theorem turn_advance {f : Floor} {i : Nat} {j : Job} {n : Need} {outside : Answer}
    (hj : f.jobs[i]? = some j) (hn : j.call.need = some n)
    (htakes : n.takes (f.desk.serve n outside).2 = true) (draw : Draw) :
    Turn f i j ⟨f.time, n, draw, (f.desk.serve n outside).2⟩ (f.advance i draw outside) := by
  obtain ⟨hstore, -⟩ := Desk.step_of_need (d := f.desk) hn draw outside
  rw [advance_eq hj hn htakes]
  exact {
    job := hj
    need := hn
    honest := Desk.honest_serve f.time draw htakes
    time := rfl
    jobs := rfl
    store := hstore.trans (Desk.store_serve f.desk n outside f.time draw)
    clock := rfl
    served := ⟨outside, rfl⟩ }

/-- A job that is over does not go on. -/
theorem advance_of_finished {f : Floor} {i : Nat} {j : Job} (hj : f.jobs[i]? = some j)
    (hdone : j.call.need = none) (draw : Draw) (outside : Answer) : f.advance i draw outside = f := by
  simp only [advance, hj, hdone]

/-- A call that is told to go on takes a turn, or nothing happens. -/
theorem advance_cases (f : Floor) (i : Nat) (draw : Draw) (outside : Answer) :
    f.advance i draw outside = f ∨
      ∃ j x, Turn f i j x (f.advance i draw outside) ∧ x.draw = draw := by
  cases hj : f.jobs[i]? with
  | none => exact Or.inl (by simp only [advance, hj])
  | some j =>
      cases hn : j.call.need with
      | none => exact Or.inl (by simp only [advance, hj, hn])
      | some n =>
          cases htakes : n.takes (f.desk.serve n outside).2 with
          | false => exact Or.inl (by simp [advance, hj, hn, htakes])
          | true => exact Or.inr ⟨j, _, turn_advance hj hn htakes draw, rfl⟩

/-! ## Jobs along a run -/

theorem jobs_ask (f : Floor) (command : Command) :
    (f.step (.ask command)).jobs = f.jobs ++ [⟨command, Call.start command, []⟩] := rfl

/-- A command that is given leaves the store alone. -/
theorem store_ask (f : Floor) (command : Command) : (f.step (.ask command)).store = f.store :=
  Desk.store_start f.desk command

/-- A job is where it was when another one goes on. -/
theorem getElem?_advance_ne {f : Floor} {n i : Nat} (h : n ≠ i) (draw : Draw) (outside : Answer) :
    (f.advance n draw outside).jobs[i]? = f.jobs[i]? := by
  rcases advance_cases f n draw outside with hsame | ⟨j, x, ht, -⟩
  · rw [hsame]
  · rw [ht.jobs, List.getElem?_set_ne h]

/-- What holds of a job, and survives its turns, holds of it after any move. -/
theorem exists_getElem?_step {f : Floor} {i : Nat} {p : Job → Prop} (m : Move)
    (h : ∃ j, f.jobs[i]? = some j ∧ p j)
    (hturn : ∀ j x, Turn f i j x (f.step m) → p j → p (j.next x)) :
    ∃ j, (f.step m).jobs[i]? = some j ∧ p j := by
  obtain ⟨j, hj, hp⟩ := h
  cases m with
  | ask command =>
      obtain ⟨hi, -⟩ := List.getElem?_eq_some_iff.1 hj
      refine ⟨j, ?_, hp⟩
      rw [jobs_ask, List.getElem?_append_left hi]
      exact hj
  | intrude o expected => exact ⟨j, hj, hp⟩
  | advance n draw outside =>
      by_cases hn : n = i
      · subst hn
        rcases advance_cases f n draw outside with hsame | ⟨k, x, ht, -⟩
        · rw [step, hsame]
          exact ⟨j, hj, hp⟩
        · obtain rfl : k = j := Option.some.inj (ht.job.symm.trans hj)
          exact ⟨k.next x, ht.job_after, hturn k x ht hp⟩
      · rw [step, getElem?_advance_ne hn]
        exact ⟨j, hj, hp⟩

/-- What holds of some job, and survives the turns of that job, holds of some job after any move. -/
theorem exists_mem_step {f : Floor} {p : Job → Prop} (m : Move) (h : ∃ j ∈ f.jobs, p j)
    (hturn : ∀ i j x, Turn f i j x (f.step m) → p j → p (j.next x)) :
    ∃ j ∈ (f.step m).jobs, p j := by
  obtain ⟨j, hj, hp⟩ := h
  obtain ⟨i, hi⟩ := List.mem_iff_getElem?.1 hj
  obtain ⟨k, hk, hpk⟩ := exists_getElem?_step m ⟨j, hi, hp⟩ (hturn i)
  exact ⟨k, List.mem_of_getElem? hk, hpk⟩

/-- A finished job takes no more turns. -/
theorem getElem?_step_of_finished {f : Floor} {i : Nat} {j : Job} (hj : f.jobs[i]? = some j)
    (hdone : j.call.need = none) (m : Move) : (f.step m).jobs[i]? = some j := by
  obtain ⟨k, hk, rfl⟩ := exists_getElem?_step (p := fun k => k = j) m ⟨j, hj, rfl⟩ (by
    rintro k x ht rfl
    have hneed := ht.need
    rw [hdone] at hneed
    cases hneed)
  exact hk

theorem getElem?_run_of_finished {f : Floor} {i : Nat} {j : Job} (hj : f.jobs[i]? = some j)
    (hdone : j.call.need = none) (moves : List Move) : (f.run moves).jobs[i]? = some j := by
  induction moves generalizing f with
  | nil => exact hj
  | cons m rest ih => exact ih (getElem?_step_of_finished hj hdone m)

theorem mem_run_of_finished {f : Floor} {j : Job} (hj : j ∈ f.jobs) (hdone : j.call.need = none)
    (moves : List Move) : j ∈ (f.run moves).jobs := by
  obtain ⟨i, hi⟩ := List.mem_iff_getElem?.1 hj
  exact List.mem_of_getElem? (getElem?_run_of_finished hi hdone moves)

/-- What holds of every job when it is given and after each of its turns holds of every job, whatever
that has to do with its number. -/
theorem forall_getElem?_step {f : Floor} {p : Nat → Job → Prop} (m : Move)
    (h : ∀ i j, f.jobs[i]? = some j → p i j)
    (hstart : ∀ command, p f.jobs.length ⟨command, Call.start command, []⟩)
    (hturn : ∀ i j x, Turn f i j x (f.step m) → p i j → p i (j.next x)) :
    ∀ i j, (f.step m).jobs[i]? = some j → p i j := by
  intro i j hj
  cases m with
  | ask command =>
      rw [jobs_ask, List.getElem?_append] at hj
      split at hj
      · exact h i j hj
      · rename_i hi
        obtain ⟨hlast, rfl⟩ := List.getElem?_eq_some_iff.1 hj
        rw [List.length_singleton] at hlast
        obtain rfl : i = f.jobs.length := by omega
        simpa using hstart command
  | intrude o expected => exact h i j hj
  | advance n draw outside =>
      rcases advance_cases f n draw outside with hf | ⟨k, x, ht, -⟩
      · rw [step, hf] at hj
        exact h i j hj
      · by_cases hn : n = i
        · subst hn
          obtain rfl : k.next x = j := Option.some.inj (ht.job_after.symm.trans hj)
          exact hturn n k x ht (h n k ht.job)
        · rw [step, getElem?_advance_ne hn] at hj
          exact h i j hj

theorem forall_mem_step {f : Floor} {p : Job → Prop} (m : Move) (h : ∀ j ∈ f.jobs, p j)
    (hstart : ∀ command, p ⟨command, Call.start command, []⟩)
    (hturn : ∀ i j x, Turn f i j x (f.step m) → p j → p (j.next x)) :
    ∀ j ∈ (f.step m).jobs, p j := by
  intro j hj
  obtain ⟨i, hi⟩ := List.mem_iff_getElem?.1 hj
  exact forall_getElem?_step (p := fun _ => p) m (fun _ k hk => h k (List.mem_of_getElem? hk)) hstart
    hturn i j hi

/-- Every job has had the exchanges that its call shows. -/
theorem course_step {f : Floor} (m : Move) (h : ∀ j ∈ f.jobs, Course j.command j.log j.call) :
    ∀ j ∈ (f.step m).jobs, Course j.command j.log j.call :=
  forall_mem_step m h (fun _ => Course.start) fun _ _ _ ht hj => Course.next hj ht.need ht.honest

theorem course_run (s : Store) (moves : List Move) :
    ∀ j ∈ ((opening s).run moves).jobs, Course j.command j.log j.call := by
  suffices h : ∀ f : Floor, (∀ j ∈ f.jobs, Course j.command j.log j.call) →
      ∀ j ∈ (f.run moves).jobs, Course j.command j.log j.call by
    exact h (opening s) (by simp)
  induction moves with
  | nil => exact fun f hf => hf
  | cons m rest ih => exact fun f hf => ih (f.step m) (course_step m hf)

/-! ## A race

Two payments and a cancellation of one order that all read it before any of them writes. -/

/-- The order that is raced for. -/
def raceOrder : OrderId := ⟨⟨7#128⟩⟩

/-- What every step of the race may use. -/
def raceDraw : Draw :=
  ⟨raceOrder, ⟨⟨2026, 1, 1, by decide⟩, 43200, 0, by decide, by decide, by decide⟩⟩

/-- The order as it is placed. -/
def raceRecord : Order :=
  ⟨raceOrder, ⟨⟨1#128⟩⟩, [⟨⟨2#128⟩⟩], ⟨500, by decide, by decide⟩, .pending, none, .first,
    raceDraw.now, raceDraw.now⟩

/-- The order as it is paid. -/
def racePaid : Order :=
  { raceRecord with
    status := .paid, payment := some ⟨.card, ⟨⟨11#128⟩⟩⟩, version := Version.first.next }

/-- The job goes on; where the store does not answer, this does. -/
def raceStep (i : Nat) (outside : Answer) : Move :=
  .advance i raceDraw outside

/-- The order is placed, two payments and a cancellation read it, and the first payment wins. -/
def race : List Move :=
  [.ask (.create ⟨⟨1#128⟩⟩ [⟨⟨2#128⟩⟩]),
    raceStep 0 (.prices (.ok [⟨⟨⟨2#128⟩⟩, ⟨500, by decide, by decide⟩⟩])),
    raceStep 0 (.prices (.ok [])),
    .ask (.pay raceOrder "CARD"), .ask (.pay raceOrder "SBP"), .ask (.cancel raceOrder),
    raceStep 1 (.prices (.ok [])), raceStep 2 (.prices (.ok [])), raceStep 3 (.prices (.ok [])),
    raceStep 1 (.method (.ok .card)), raceStep 2 (.method (.ok .sbp)),
    raceStep 1 (.charge (.ok ⟨⟨11#128⟩⟩)), raceStep 2 (.charge (.ok ⟨⟨12#128⟩⟩)),
    raceStep 1 (.prices (.ok [])), raceStep 2 (.prices (.ok [])), raceStep 3 (.prices (.ok []))]

/-- The order is placed and cancelled, and then somebody tries to pay for it. -/
def raceCancelled : List Move :=
  race.take 3 ++
    [.ask (.cancel raceOrder), raceStep 1 (.prices (.ok [])), raceStep 1 (.prices (.ok [])),
      .ask (.pay raceOrder "CARD"), raceStep 2 (.prices (.ok []))]

end Floor

end OrderDesk
