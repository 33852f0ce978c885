/-
# The footprint of a call

A call works on one order: the one that it was given, or the new one that it has drawn an identifier
for. It reads and writes no record but that of its order, and how it goes on depends on that record and
on what it is answered.

* `Call.touches?` : the order whose record a call asks the store for;
* `Floor.advance_congr` : a step depends on the call and on the record that it asks for;
* `Floor.get?_advance` : a step changes no other record;
* `Job.order?` : the order that a job works on, known from the first for all but new orders;
* `Floor.order?_of_touches?` : a job asks the store for its own order only.
-/
import OrderDesk.Proofs.Desk.Absence

namespace OrderDesk

/-! ## The record that a step is about -/

/-- The order that the store is asked for. -/
def Need.touches? : Need → Option OrderId
  | .record id => some id
  | .write o _ => some o.id
  | _ => none

/-- The order that a call asks the store for next. -/
def Call.touches? (c : Call) : Option OrderId :=
  c.need.bind Need.touches?

/-- A call that is about to write asks for the order that it writes. -/
theorem Call.touches?_of_write {c : Call} {o : Order} {v : Version}
    (h : c.need = some (.write o v)) : c.touches? = some o.id := by
  rw [touches?, h]
  rfl

/-- The version of a record depends on that record. -/
theorem Store.versionOf_congr {s t : Store} {id : OrderId} (h : s.get? id = t.get? id) :
    s.versionOf id = t.versionOf id := by
  rw [versionOf, h, versionOf]

/-- What the store answers depends on the record that it is asked for. -/
theorem Desk.serve_congr_of_touches? {d e : Desk} {n : Need}
    (h : ∀ id, n.touches? = some id → d.store.get? id = e.store.get? id) (outside : Answer) :
    (d.serve n outside).2 = (e.serve n outside).2 := by
  cases n with
  | record id => simp [serve, Store.get, h id rfl]
  | write o v =>
      rw [serve_write, serve_write, Store.versionOf_congr (h o.id rfl)]
      split <;> rfl
  | _ => rfl

theorem Call.served_congr {c : Call} {s t : Store}
    (h : ∀ id, c.touches? = some id → s.get? id = t.get? id) (draw : Draw) (outside : Answer) :
    c.served s draw outside = c.served t draw outside := by
  unfold served
  cases hn : c.need with
  | none => rfl
  | some n =>
      have hanswer : (Desk.serve ⟨s, []⟩ n outside).2 = (Desk.serve ⟨t, []⟩ n outside).2 :=
        Desk.serve_congr_of_touches? (fun id hid => h id (by simp [touches?, hn, hid])) outside
      simp only [hanswer]

namespace Store

/-- A write is accepted or not by the version of its own record. -/
theorem written?_congr {s t : Store} {o : Order} (h : s.get? o.id = t.get? o.id)
    (expected : Option Version) :
    s.written? (.put o expected) = t.written? (.put o expected) := by
  have hput : (StoreAction.put o expected).write? = some (o, expected) := rfl
  rw [written?_of_write? hput, written?_of_write? hput, versionOf_congr h]

/-- A write leaves a record of the identifier that it is about. -/
theorem id_of_written? {s : Store} {o w : Order} {expected : Option Version}
    (h : s.written? (.put o expected) = some w) : w.id = o.id := by
  have hput : (StoreAction.put o expected).write? = some (o, expected) := rfl
  rw [written?_of_write? hput] at h
  split at h
  · cases h
    rfl
  · cases h

end Store

namespace Floor

/-- The order that a job asks the store for next. -/
def touches? (f : Floor) (i : Nat) : Option OrderId :=
  (f.calls[i]?).bind Call.touches?

variable {f g : Floor} {i n : Nat}

/-- Two floors on which the same call finds the same record see it go on in the same way. -/
theorem advance_congr (hcalls : g.calls[n]? = f.calls[i]?)
    (hrecord : ∀ id, f.touches? i = some id → g.store.get? id = f.store.get? id) (draw : Draw)
    (outside : Answer) :
    (g.advance n draw outside).calls[n]? = (f.advance i draw outside).calls[i]? ∧
      g.left? (.advance n draw outside) = f.left? (.advance i draw outside) := by
  rw [calls_advance, calls_advance, List.getElem?_modify_eq, List.getElem?_modify_eq, hcalls]
  unfold touches? at hrecord
  simp only [left?, hcalls]
  cases hc : f.calls[i]? with
  | none => exact ⟨rfl, rfl⟩
  | some c =>
      simp only [hc, Option.bind_some] at hrecord ⊢
      refine ⟨congrArg some (Call.served_congr hrecord draw outside), ?_⟩
      cases hn : c.need with
      | none => rfl
      | some need =>
          cases need with
          | write o v =>
              exact Store.written?_congr (hrecord o.id (Call.touches?_of_write hn)) (some v)
          | _ => rfl

/-- A step leaves no record but that of the order that it asks for. -/
theorem touches?_of_left? {draw : Draw} {outside : Answer} {w : Order}
    (h : f.left? (.advance i draw outside) = some w) : f.touches? i = some w.id := by
  unfold left? at h
  unfold touches?
  cases hc : f.calls[i]? with
  | none => simp [hc] at h
  | some c =>
      simp only [hc, Option.bind_some] at h ⊢
      cases hn : c.need with
      | none => simp [hn] at h
      | some need =>
          cases need with
          | write o v =>
              simp only [hn] at h
              rw [Call.touches?_of_write hn, Store.id_of_written? h]
          | _ => simp [hn] at h

/-- The record of an order after a move is what the move leaves of it, or what it was before. -/
theorem get?_step (f : Floor) (m : Move) (id : OrderId) :
    (f.step m).store.get? id = ((f.left? m).filter (·.id = id)).or (f.store.get? id) := by
  rw [store_step]
  cases f.left? m with
  | none => rfl
  | some w => by_cases hw : w.id = id <;> simp [Store.get?_set, Option.filter, hw]

/-- A step leaves all records alone but that of the order that it asks for. -/
theorem get?_advance {id : OrderId} (h : f.touches? i ≠ some id) (draw : Draw) (outside : Answer) :
    (f.advance i draw outside).store.get? id = f.store.get? id := by
  have hnone : (f.left? (.advance i draw outside)).filter (·.id = id) = none := by
    rw [Option.filter_eq_none_iff]
    intro w hw hid
    exact h (of_decide_eq_true hid ▸ touches?_of_left? hw)
  rw [show f.advance i draw outside = f.step (.advance i draw outside) from rfl, get?_step, hnone]
  rfl

/-- Two floors with the same record of an order have it still after moves that leave the same of it. -/
theorem get?_step_congr {m k : Move} {id : OrderId}
    (hrecord : g.store.get? id = f.store.get? id)
    (hleft : (g.left? k).filter (·.id = id) = (f.left? m).filter (·.id = id)) :
    (g.step k).store.get? id = (f.step m).store.get? id := by
  rw [get?_step, get?_step, hleft, hrecord]

end Floor

/-! ## The order of a job -/

/-- The order that a job works on. That of a new order is known once its identifier is drawn: by the
first exchange, which is the one that prices it. -/
def Job.order? (j : Job) : Option OrderId :=
  match j.command.subject?, j.log with
  | some id, _ => some id
  | none, [] => none
  | none, x :: _ =>
      match (Call.start j.command).resume x.draw x.answer with
      | .inserting o => some o.id
      | _ => none

/-- The order of a job remains. -/
theorem Job.order?_next {j : Job} {id : OrderId} (h : j.order? = some id) (x : Exchange) :
    (j.next x).order? = some id := by
  obtain ⟨command, call, log⟩ := j
  cases command with
  | create user parts =>
      cases log with
      | nil => cases h
      | cons y rest => exact h
  | _ => exact h

/-- A call asks the store for the order of its job. -/
theorem Underway.order? {j : Job} (h : Underway j.command j.log j.call) {id : OrderId}
    (ht : j.call.touches? = some id) : j.order? = some id := by
  obtain ⟨command, call, log⟩ := j
  cases call with
  | pricing user parts => cases ht
  | inserting o =>
      obtain ⟨user, parts, x, snapshots, total, rfl, rfl, -, hanswer, htotal, hplace⟩ := h
      cases ht
      obtain ⟨hparts, -, rfl⟩ := Order.place_eq_ok_iff.1 hplace
      simp [Job.order?, Command.subject?, Call.start, hparts, hanswer, Call.resume, Call.afterPrices,
        htotal, hplace]
  | loading order =>
      obtain ⟨rfl, -⟩ := h
      exact ht
  | checking order requested =>
      obtain ⟨rfl, -⟩ := h
      exact ht
  | choosing r requested => cases ht
  | charging r m => cases ht
  | updatingPaid o t =>
      obtain ⟨r, m, requested, x, y, z, rfl, -, -, -, -, -, hpay⟩ := h
      obtain ⟨-, rfl⟩ := Order.pay_eq_ok_iff.1 hpay
      exact ht
  | cancelling order =>
      obtain ⟨rfl, -⟩ := h
      exact ht
  | updatingCancelled o =>
      obtain ⟨r, x, rfl, -, -, hcancel⟩ := h
      obtain ⟨-, rfl⟩ := Order.cancel_eq_ok_some_iff.1 hcancel
      exact ht
  | finished o => cases ht

namespace Floor

variable {f g : Floor} {i n : Nat}

/-- The order that a job works on, as far as it is known. -/
def order? (f : Floor) (i : Nat) : Option OrderId :=
  (f.jobs[i]?).bind Job.order?

theorem order?_step {id : OrderId} (h : f.order? i = some id) (m : Move) :
    (f.step m).order? i = some id := by
  obtain ⟨j, hj, horder⟩ := Option.bind_eq_some_iff.1 h
  obtain ⟨k, hk, hkeep⟩ := exists_getElem?_step (p := fun k => k.order? = some id) m ⟨j, hj, horder⟩
    fun _ x _ hp => Job.order?_next hp x
  exact Option.bind_eq_some_iff.2 ⟨k, hk, hkeep⟩

theorem order?_run {id : OrderId} (h : f.order? i = some id) (moves : List Move) :
    (f.run moves).order? i = some id := by
  induction moves generalizing f with
  | nil => exact h
  | cons m rest ih => exact ih (order?_step h m)

/-- The store is asked for the order of the job, and for no other. -/
theorem order?_of_touches? (hf : ∀ j ∈ f.jobs, Course j.command j.log j.call) {id : OrderId}
    (h : f.touches? i = some id) : f.order? i = some id := by
  rw [touches?, getElem?_calls, Option.bind_map] at h
  obtain ⟨j, hj, htouches⟩ := Option.bind_eq_some_iff.1 h
  have hneed : j.call.need ≠ none := by
    intro hnone
    simp [Call.touches?, hnone] at htouches
  have hunder := (hf j (List.mem_of_getElem? hj)).underway hneed
  exact Option.bind_eq_some_iff.2 ⟨j, hj, hunder.order? htouches⟩

end Floor

end OrderDesk
