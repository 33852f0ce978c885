/-
# The history of an order

No stored order is ever deleted, and its terms never change. It waits until it is paid or cancelled, and
stays as it is from then on. A new order whose identifier turns out to be in use is refused, and the
order that is stored under it is left alone.

* `Order.MayBecome` : what a stored record may have become later;
* `Floor.mayBecome_run` : nothing else becomes of a record in a run;
* `Floor.Collides` : a new order under an identifier in use, which waits to be written or was refused;
* `order_history` : what two moments of a run have to do with each other.
-/
import OrderDesk.Proofs.Desk.OnlyWriter

namespace OrderDesk

/-! ## Two moments of an order -/

/-- What a stored record may have become later: its terms are what they were, it was paid or cancelled
at most if it waited, and a final record is what it was in every field. -/
structure Order.MayBecome (r o : Order) : Prop where
  id : o.id = r.id
  user : o.user = r.user
  parts : o.parts = r.parts
  total : o.total = r.total
  createdAt : o.createdAt = r.createdAt
  status : o.status = r.status ∨ r.status = .pending ∧ (o.status = .paid ∨ o.status = .cancelled)
  final : r.status = .paid ∨ r.status = .cancelled → o = r

namespace Order.MayBecome

variable {r o p : Order}

theorem refl (r : Order) : r.MayBecome r :=
  ⟨rfl, rfl, rfl, rfl, rfl, Or.inl rfl, fun _ => rfl⟩

theorem trans (h : r.MayBecome o) (h' : o.MayBecome p) : r.MayBecome p where
  id := h'.id.trans h.id
  user := h'.user.trans h.user
  parts := h'.parts.trans h.parts
  total := h'.total.trans h.total
  createdAt := h'.createdAt.trans h.createdAt
  status := by
    rcases h.status with hsame | ⟨hwaiting, hfinal⟩
    · rw [← hsame]
      exact h'.status
    · rw [h'.final hfinal]
      exact Or.inr ⟨hwaiting, hfinal⟩
  final := by
    intro hfinal
    obtain rfl : o = r := h.final hfinal
    exact h'.final hfinal

end Order.MayBecome

/-- What the desk puts in over a record is what that one may become. -/
theorem Store.Entry.mayBecome {s : Store} {w r : Order} (h : s.Entry w)
    (hr : s.get? w.id = some r) : r.MayBecome w := by
  cases h with
  | placed hnone =>
      rw [hnone] at hr
      cases hr
  | paid m t now hget hwaiting =>
      rw [hget] at hr
      cases hr
      exact ⟨rfl, rfl, rfl, rfl, rfl, Or.inr ⟨hwaiting, Or.inl rfl⟩, by simp [hwaiting]⟩
  | cancelled now hget hwaiting =>
      rw [hget] at hr
      cases hr
      exact ⟨rfl, rfl, rfl, rfl, rfl, Or.inr ⟨hwaiting, Or.inr rfl⟩, by simp [hwaiting]⟩

namespace Floor

theorem mayBecome_step {f : Floor} {m : Move} (hf : f.Inv) (hm : m.IsOwn) {id : OrderId} {r : Order}
    (hr : f.store.get? id = some r) : ∃ o, (f.step m).store.get? id = some o ∧ r.MayBecome o := by
  rcases store_step_of_isOwn hf hm with hsame | ⟨w, hset, hw⟩
  · rw [hsame]
    exact ⟨r, hr, .refl r⟩
  · rw [hset, Store.get?_set]
    by_cases hid : w.id = id
    · rw [if_pos hid]
      exact ⟨w, rfl, hw.mayBecome (hid ▸ hr)⟩
    · rw [if_neg hid]
      exact ⟨r, hr, .refl r⟩

/-- A stored record becomes in a run what it may become. -/
theorem mayBecome_run {f : Floor} {moves : List Move} (hf : f.Inv) (hm : ∀ m ∈ moves, m.IsOwn)
    {id : OrderId} {r : Order} (hr : f.store.get? id = some r) :
    ∃ o, (f.run moves).store.get? id = some o ∧ r.MayBecome o := by
  refine run_of_step (p := fun g => ∃ o, g.store.get? id = some o ∧ r.MayBecome o) ?_ hf
    ⟨r, hr, .refl r⟩ hm
  rintro g m hg hown ⟨o, ho, hbecome⟩
  obtain ⟨p, hp, hbecome'⟩ := mayBecome_step hg hown ho
  exact ⟨p, hp, hbecome.trans hbecome'⟩

/-! ## Identifiers in use -/

/-- A job is about to write a new order under an identifier in use, or was refused already. -/
structure Collides (f : Floor) (i : Nat) (o : Order) : Prop where
  used : ∃ r, f.store.get? o.id = some r
  refused : ∃ j, f.jobs[i]? = some j ∧ (j.call = .inserting o ∨
    ∃ actual, j.call = .failed (.concurrentModification o.id .initial actual))

end Floor

/-- A job that writes a new order over a record is refused. -/
theorem Turn.refused {f g : Floor} {i : Nat} {j : Job} {x : Exchange} (h : Turn f i j x g)
    (hf : f.Inv) {o r : Order} (hcall : j.call = .inserting o) (hr : f.store.get? o.id = some r) :
    x.written? = none ∧
      ∃ actual, (j.next x).call = .failed (.concurrentModification o.id .initial actual) := by
  have hn : x.need = .write o .initial := by
    have hneed := h.need
    rw [hcall] at hneed
    exact (Option.some.inj hneed).symm
  -- the stored version is that of a record, so it is not the initial one
  have hv : f.store.versionOf o.id ≠ .initial := by
    rw [Store.versionOf_of_get? hr]
    exact hf.sound.written o.id r hr
  refine ⟨by rw [h.written?_of_need hn, if_neg hv], f.store.versionOf o.id, ?_⟩
  obtain ⟨outside, ha⟩ := h.served
  rw [hn, Desk.serve_write, if_neg hv] at ha
  rw [Job.call_next, hcall, ha]
  rfl

namespace Floor

/-- When such a job goes on it is refused, and the store is left alone. -/
theorem collides_advance {f : Floor} {i : Nat} {o : Order} (hf : f.Inv) (h : f.Collides i o)
    (draw : Draw) (outside : Answer) :
    (f.advance i draw outside).store = f.store ∧
      ∃ k actual, (f.advance i draw outside).jobs[i]? = some k ∧
        k.call = .failed (.concurrentModification o.id .initial actual) := by
  obtain ⟨j, hj, hcall | ⟨actual, hcall⟩⟩ := h.refused
  · obtain ⟨r, hr⟩ := h.used
    have hn : j.call.need = some (.write o .initial) := by rw [hcall]; rfl
    have htakes : (Need.write o .initial).takes (f.desk.serve (.write o .initial) outside).2 = true := by
      rw [Desk.serve_write]
      split <;> rfl
    have ht := turn_advance hj hn htakes draw
    obtain ⟨hw, actual, hfailed⟩ := ht.refused hf hcall hr
    exact ⟨ht.store_of_none hw, _, actual, ht.job_after, hfailed⟩
  · have hdone : j.call.need = none := by rw [hcall]; rfl
    rw [advance_of_finished hj hdone]
    exact ⟨rfl, j, actual, hj, hcall⟩

theorem collides_step {f : Floor} {m : Move} {i : Nat} {o : Order} (hf : f.Inv) (hm : m.IsOwn)
    (h : f.Collides i o) : (f.step m).Collides i o := by
  obtain ⟨r, hr⟩ := h.used
  constructor
  · obtain ⟨p, hp, -⟩ := mayBecome_step hf hm hr
    exact ⟨p, hp⟩
  · refine exists_getElem?_step m h.refused ?_
    intro j x ht hcall
    rcases hcall with hcall | ⟨actual, hcall⟩
    · exact Or.inr (ht.refused hf hcall hr).2
    · have hneed := ht.need
      rw [hcall] at hneed
      cases hneed

theorem collides_run {f : Floor} {moves : List Move} {i : Nat} {o : Order} (hf : f.Inv)
    (hm : ∀ m ∈ moves, m.IsOwn) (h : f.Collides i o) : (f.run moves).Collides i o :=
  run_of_step (p := fun g => g.Collides i o) (fun _ _ hg hown hp => collides_step hg hown hp) hf h hm

end Floor

/-! ## The history of an order -/

/-- Over any store that a history of actions can leave, at any two moments of a run in which only the
desk writes: a record that was stored at the first is stored at the second, as what it may have become;
and if a job was about to place an order under an identifier in use at the first, then at the second it
leaves the store alone when it goes on, and has failed. -/
theorem order_history (actions : List StoreAction) (hsmall : Store.empty.SmallAlong actions)
    (before later : List Move) (hbefore : ∀ m ∈ before, m.IsOwn) (hlater : ∀ m ∈ later, m.IsOwn) :
    let f := (Floor.opening (Store.empty.after actions)).run before
    let g := f.run later
    (∀ id r, f.store.get? id = some r → ∃ o, g.store.get? id = some o ∧ r.MayBecome o) ∧
      ∀ i j o r, f.jobs[i]? = some j → j.call = .inserting o → f.store.get? o.id = some r →
        (∃ user parts, j.command = .create user parts) ∧
          ∀ draw outside,
            let h := g.advance i draw outside
            h.store = g.store ∧ ∃ k actual, h.jobs[i]? = some k ∧
              k.call = .failed (.concurrentModification o.id .initial actual) := by
  intro f g
  have hf : f.Inv := Floor.inv_run (Floor.inv_opening (Store.sound_after hsmall)) hbefore
  refine ⟨fun id r hr => Floor.mayBecome_run hf hlater hr, ?_⟩
  intro i j o r hj hcall hr
  constructor
  · have hunder := (hf.course j (List.mem_of_getElem? hj)).underway (by simp [hcall, Call.need])
    rw [hcall] at hunder
    obtain ⟨user, parts, _, _, _, hcommand, -⟩ := hunder
    exact ⟨user, parts, hcommand⟩
  · intro draw outside
    have hcollides : f.Collides i o := ⟨⟨r, hr⟩, j, hj, Or.inl hcall⟩
    exact Floor.collides_advance (Floor.inv_run hf hlater) (Floor.collides_run hf hlater hcollides)
      draw outside

/-- A new order has drawn the identifier of the race. -/
def Floor.raceTwin : List Move :=
  [.ask (.create ⟨⟨3#128⟩⟩ [⟨⟨2#128⟩⟩]),
    raceStep 0 (.prices (.ok [⟨⟨⟨2#128⟩⟩, ⟨900, by decide, by decide⟩⟩]))]

/-- The order of the race is cancelled meanwhile, and its terms remain; the new one is refused. -/
theorem order_history_raceTwin :
    let f := (Floor.opening (Store.empty.after [.insertNew Floor.raceRecord])).run Floor.raceTwin
    let g := f.run [.ask (.cancel Floor.raceOrder), Floor.raceStep 1 (.prices (.ok [])),
      Floor.raceStep 1 (.prices (.ok []))]
    let h := g.advance 0 Floor.raceDraw (.prices (.ok []))
    (∃ o, g.store.get? Floor.raceOrder = some o ∧ o.status = .cancelled ∧
        Floor.raceRecord.MayBecome o) ∧
      h.store = g.store ∧ ∃ k actual, h.jobs[0]? = some k ∧
        k.call = .failed (.concurrentModification Floor.raceOrder .initial actual) := by
  intro f g h
  obtain ⟨hbecomes, hcollides⟩ := order_history [.insertNew Floor.raceRecord] (by decide)
    Floor.raceTwin [.ask (.cancel Floor.raceOrder), Floor.raceStep 1 (.prices (.ok [])),
      Floor.raceStep 1 (.prices (.ok []))] (by decide) (by decide)
  constructor
  · obtain ⟨o, ho, hbecome⟩ := hbecomes Floor.raceOrder Floor.raceRecord (by decide)
    have hstored : (g.store.get? Floor.raceOrder).any (·.status = .cancelled) = true := by decide
    rw [ho] at hstored
    exact ⟨o, ho, of_decide_eq_true hstored, hbecome⟩
  · exact (hcollides 0 _ _ Floor.raceRecord rfl rfl (by decide)).2 Floor.raceDraw (.prices (.ok []))

end OrderDesk
