/-
# Calls on their own

What becomes of a call that is run once more, with nothing else going on, and is given the same draws
and the same answers from outside. Where the store still says what it said, the call does again what it
did.

* `Desk.attend` : a job from its command to its end, on its own;
* `Exchange.Again` : an answer that a store would give once more;
* `Desk.replay_of_again` : a call that gets the same answers stands where it stood;
* `Turn.attend` : a job that has just succeeded, run on its own instead, has the same result and leaves
  the same store.
-/
import OrderDesk.Proofs.Desk.OnlyWriter

namespace OrderDesk

/-! ## Running a job on its own -/

namespace Desk

/-- A call goes on with what was drawn and answered at the time; the store answers for itself. -/
def replay (d : Desk) (c : Call) (log : List Exchange) : Desk × Call :=
  log.foldl (fun (e, c) x => e.step c x.draw x.answer) (d, c)

/-- A job is done from its command to its end, with nothing in between. -/
def attend (d : Desk) (j : Job) : Desk × Call :=
  let (e, c) := d.start j.command
  e.replay c j.log

theorem replay_concat (d : Desk) (c : Call) (log : List Exchange) (x : Exchange) :
    d.replay c (log ++ [x]) =
      (d.replay c log).1.step (d.replay c log).2 x.draw x.answer := by
  simp [replay, List.foldl_append]

end Desk

/-! ## The same answers -/

namespace Exchange

/-- Whether a desk over a store gives the answer of an exchange again. -/
def Again (x : Exchange) (s : Store) : Prop :=
  ∀ d : Desk, d.store = s → (d.serve x.need x.answer).2 = x.answer

/-- What was read is read again if it is stored. -/
theorem again_of_read? {x : Exchange} {s : Store} {r : Order} (hx : x.Honest)
    (hread : x.read? = some r) (hr : s.get? r.id = some r) : x.Again s := by
  intro d hd
  obtain ⟨hn, ha⟩ := need_of_read? hx hread
  subst hd
  rw [hn, ha, Desk.serve, Store.get_eq_ok_iff.2 hr]

/-- What the store has no part in is answered again. -/
theorem again_of_need {x : Exchange} {s : Store} (hrecord : ∀ id, x.need ≠ .record id)
    (hwrite : ∀ o v, x.need ≠ .write o v) : x.Again s := by
  intro d _
  cases hn : x.need with
  | record id => exact absurd hn (hrecord id)
  | write o v => exact absurd hn (hwrite o v)
  | _ => rfl

end Exchange

/-- A call that goes on gets all its answers again from a store that holds what it read. -/
theorem Underway.again {command : Command} {log : List Exchange} {c : Call} {s : Store}
    (h : Underway command log c) (hhonest : ∀ x ∈ log, x.Honest)
    (hreads : ∀ x ∈ log, ∀ r, x.read? = some r → s.get? r.id = some r) : ∀ x ∈ log, x.Again s := by
  have hread : ∀ x ∈ log, ∀ r, x.read? = some r → x.Again s := by
    intro x hx r hr
    exact Exchange.again_of_read? (hhonest x hx) hr (hreads x hx r hr)
  have hasked : ∀ x : Exchange, ∀ requested, x.need = .method requested → x.Again s := by
    intro x requested hn
    exact Exchange.again_of_need (by simp [hn]) (by simp [hn])
  cases c with
  | pricing user parts =>
      obtain ⟨-, rfl⟩ := h
      simp
  | inserting o =>
      obtain ⟨user, parts, x, snapshots, total, -, rfl, hneed, -⟩ := h
      simp only [List.mem_singleton, forall_eq]
      exact Exchange.again_of_need (by simp [hneed]) (by simp [hneed])
  | loading id =>
      obtain ⟨-, rfl⟩ := h
      simp
  | checking id requested =>
      obtain ⟨-, rfl⟩ := h
      simp
  | choosing r requested =>
      obtain ⟨x, -, rfl, hx, -⟩ := h
      simp only [List.mem_singleton, forall_eq]
      exact hread x (by simp) r hx
  | charging r m =>
      obtain ⟨requested, x, y, -, rfl, hx, -, hy, -⟩ := h
      intro z hz
      simp only [List.mem_cons, List.not_mem_nil, or_false] at hz
      rcases hz with rfl | rfl
      · exact hread z (by simp) r hx
      · exact hasked z requested hy
  | updatingPaid o t =>
      obtain ⟨r, m, requested, x, y, z, -, rfl, hx, hy, -, hz, -⟩ := h
      intro u hu
      simp only [List.mem_cons, List.not_mem_nil, or_false] at hu
      rcases hu with rfl | rfl | rfl
      · exact hread u (by simp) r hx
      · exact hasked u requested hy
      · have hneed := Exchange.need_of_payment? hz
        exact Exchange.again_of_need (by simp [hneed]) (by simp [hneed])
  | cancelling id =>
      obtain ⟨-, rfl⟩ := h
      simp
  | updatingCancelled o =>
      obtain ⟨r, x, -, rfl, hx, -⟩ := h
      simp only [List.mem_singleton, forall_eq]
      exact hread x (by simp) r hx
  | finished o => exact h.elim

namespace Desk

/-- A step with the same answer leads where the call went, and writes what was written. -/
theorem step_again {d : Desk} {c : Call} {x : Exchange} (hn : c.need = some x.need)
    (hx : x.Again d.store) :
    (d.step c x.draw x.answer).2 = c.resume x.draw x.answer ∧
      (d.step c x.draw x.answer).1.store = (x.written?.map d.store.set).getD d.store := by
  obtain ⟨hstore, hcall⟩ := step_of_need (d := d) hn x.draw x.answer
  have hwrites := store_serve d x.need x.answer x.time x.draw
  rw [hx d rfl] at hcall hwrites
  exact ⟨hcall, hstore.trans hwrites⟩

/-- A call that gets the same answers and writes nothing stands where it stood, over the same store. -/
theorem replay_of_again {command : Command} {log : List Exchange} {c : Call}
    (h : Course command log c) {d : Desk} (hagain : ∀ x ∈ log, x.Again d.store)
    (hwrites : ∀ x ∈ log, x.written? = none) :
    ((d.start command).1.replay (Call.start command) log).2 = c ∧
      ((d.start command).1.replay (Call.start command) log).1.store = d.store := by
  induction h with
  | start => exact ⟨rfl, store_start d command⟩
  | @next log c x _ hn _ ih =>
      -- the store is the same before every exchange, so it answers this one as it did
      have hbefore : ∀ y ∈ log, y ∈ log ++ [x] := fun y hy => List.mem_append_left _ hy
      have hlast : x ∈ log ++ [x] := by simp
      obtain ⟨hcall, hstore⟩ := ih (fun y hy => hagain y (hbefore y hy))
        fun y hy => hwrites y (hbefore y hy)
      rw [replay_concat, hcall]
      have hx := hagain x hlast
      rw [← hstore] at hx
      obtain ⟨hcall', hstore'⟩ := step_again hn hx
      rw [hwrites x hlast] at hstore'
      exact ⟨hcall', hstore'.trans hstore⟩

end Desk

/-! ## A job that has just succeeded -/

namespace Turn

variable {f g : Floor} {i : Nat} {j : Job} {x : Exchange}

/-- What is answered in a turn is answered again over the same store. -/
theorem again (h : Turn f i j x g) : x.Again f.store := by
  intro d hd
  obtain ⟨outside, hs⟩ := h.served
  rw [hs]
  cases x.need with
  | record id => simp [Desk.serve, hd]
  | write o v =>
      simp only [Desk.serve_write, hd]
      split <;> rfl
  | prices ids => rfl
  | method requested => rfl
  | charge user order m => rfl

/-- A job that succeeds without a write had read nothing before. -/
theorem log_eq_nil (h : Turn f i j x g) (hf : f.Inv) {receipt : Receipt}
    (hok : j.call.resume x.draw x.answer = .succeeded receipt) (hw : x.written? = none) :
    j.log = [] ∧ ∃ r, x.read? = some r := by
  have hcourse := Course.next (hf.course j h.mem) h.need h.honest
  rw [hok] at hcourse
  rcases hcourse.ended.last with ⟨before, y, w, hlog, hy⟩ | ⟨y, r, hlog, hy⟩
  · obtain ⟨-, hxy⟩ := List.append_inj' hlog rfl
    cases hxy
    rw [hw] at hy
    cases hy
  · have hsplit : j.log ++ [x] = [] ++ [y] := hlog
    obtain ⟨hnil, hxy⟩ := List.append_inj' hsplit rfl
    cases hxy
    exact ⟨hnil, r, hy⟩

/-- When a write is accepted, all that the job read is stored still. -/
theorem get?_of_reads (h : Turn f i j x g) (hf : f.Inv) {w : Order} (hw : x.written? = some w) :
    ∀ y ∈ j.log, ∀ r, y.read? = some r → f.store.get? r.id = some r := by
  intro y hy r hr
  have hmem : r ∈ j.reads := List.mem_filterMap.2 ⟨y, hy, hr⟩
  by_cases hcommand : ∃ user parts, j.command = .create user parts
  · obtain ⟨o, hn, -⟩ := h.need_of_written? hw
    have hunder := h.underway hf
    obtain ⟨user, parts, hcreate⟩ := hcommand
    rcases need_eq_write (hn ▸ h.need) with ⟨hcall, -⟩ | ⟨t, hcall, -⟩ | ⟨hcall, -⟩
    · -- placing an order reads no record at all
      rw [hcall] at hunder
      obtain ⟨_, _, z, _, _, -, hlog, hneed, -⟩ := hunder
      rw [hlog, List.mem_singleton] at hy
      rw [hy, Exchange.read?_eq_none (by simp [hneed])] at hr
      cases hr
    · rw [hcall] at hunder
      obtain ⟨_, _, _, _, _, _, hpay, -⟩ := hunder
      rw [hcreate] at hpay
      cases hpay
    · rw [hcall] at hunder
      obtain ⟨_, _, hcancel, -⟩ := hunder
      rw [hcreate] at hcancel
      cases hcancel
  · obtain ⟨p, hreads, -, hget⟩ := h.replaces (hf.course j h.mem) hf.holds hw
      fun user parts hcreate => hcommand ⟨user, parts, hcreate⟩
    rw [hreads, List.mem_singleton] at hmem
    subst hmem
    have hid := Store.id_of_get? hget
    rw [hid]
    exact hget

/-- A job that has just succeeded: on its own, over the store as it was before the last exchange, it
has the same result and leaves the same store. -/
theorem attend (h : Turn f i j x g) (hf : f.Inv) {receipt : Receipt}
    (hok : j.call.resume x.draw x.answer = .succeeded receipt) {d : Desk} (hd : d.store = f.store) :
    (d.attend (j.next x)).2 = (j.next x).call ∧ (d.attend (j.next x)).1.store = g.store := by
  have hcourse := hf.course j h.mem
  have hunder := h.underway hf
  have hreads : ∀ y ∈ j.log, ∀ r, y.read? = some r → f.store.get? r.id = some r := by
    cases hw : x.written? with
    | some w => exact h.get?_of_reads hf hw
    | none =>
        rw [(h.log_eq_nil hf hok hw).1]
        simp
  -- up to the last exchange the job leaves the store alone; the last one writes what it wrote
  have hagain := hunder.again hcourse.honest hreads
  rw [← hd] at hagain
  obtain ⟨hcall, hstore⟩ := Desk.replay_of_again hcourse hagain hunder.written?_eq_none
  have hx := h.again
  rw [← hd, ← hstore] at hx
  obtain ⟨hcall', hstore'⟩ := Desk.step_again h.need hx
  rw [hstore, hd, ← h.store] at hstore'
  have hattend : d.attend (j.next x) =
      (d.start j.command).1.replay (Call.start j.command) (j.log ++ [x]) := rfl
  rw [hattend, Desk.replay_concat, hcall]
  exact ⟨hcall', hstore'⟩

end Turn

end OrderDesk
