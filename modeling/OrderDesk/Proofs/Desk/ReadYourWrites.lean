/-
# Reading what was written

What a call that succeeded has told is what a later call reads, as long as nobody else writes the order.
The store keeps a record of its own, stamped with its version; the copy that is told is stamped by the
call, or was read and not written at all. Both are the same record.

* `Floor.get?_run` : the record of an order stays until somebody writes the order;
* `Floor.Current` : what a job has read of an order is the record that is stored now;
* `Floor.told?` : what a client is told whose command goes on at once, with nobody in between;
* `Floor.Shows`, `Floor.StaysCancelled` : what those are told who fetch or cancel an order;
* `Turn.shows_created`, `Turn.shows_paid`, `Turn.shows_cancelled` : the turns by which calls succeed;
* `read_your_writes` : what is read after an order was placed, paid or cancelled.
-/
import OrderDesk.Proofs.Desk.Footprint

namespace OrderDesk

/-! ## Records that nobody writes -/

namespace Floor

variable {f : Floor} {i : Nat} {id : OrderId}

/-- The record of an order stays through a move that does not write the order. -/
theorem get?_step_of_ne {m : Move} (h : ∀ w ∈ f.left? m, w.id ≠ id) :
    (f.step m).store.get? id = f.store.get? id := by
  have hnone : (f.left? m).filter (·.id = id) = none :=
    Option.filter_eq_none_iff.2 fun w hw hid => h w hw (of_decide_eq_true hid)
  rw [get?_step, hnone, Option.none_or]

/-- The record of an order stays until somebody writes the order. -/
theorem get?_run {moves : List Move} (h : ∀ w ∈ f.journal moves, w.id ≠ id) :
    (f.run moves).store.get? id = f.store.get? id := by
  induction moves generalizing f with
  | nil => rfl
  | cons m rest ih =>
      rw [journal, List.forall_mem_append] at h
      rw [run, ih h.2, get?_step_of_ne fun w hw => h.1 w (Option.mem_toList.2 hw)]

/-- What a job has read of an order is the record that is stored now. -/
def Current (f : Floor) (i : Nat) (id : OrderId) : Prop :=
  ∀ j, f.jobs[i]? = some j → ∀ r ∈ j.reads, r.id = id → f.store.get? id = some r

/-- A job that has exchanged nothing yet is up to date. -/
theorem current_of_log_eq_nil (h : ∀ j, f.jobs[i]? = some j → j.log = []) : f.Current i id := by
  intro j hj r hr
  simp [Job.reads, h j hj] at hr

theorem current_step {m : Move} (hf : f.Current i id) (h : ∀ w ∈ f.left? m, w.id ≠ id) :
    (f.step m).Current i id := by
  have hget := get?_step_of_ne h
  have hall : ∀ n j, (f.step m).jobs[n]? = some j →
      n = i → ∀ r ∈ j.reads, r.id = id → (f.step m).store.get? id = some r := by
    refine forall_getElem?_step m ?_ ?_ ?_
    · rintro n j hj rfl
      rw [hget]
      exact hf j hj
    · intro command _ r hr
      simp [Job.reads] at hr
    · rintro n j x ht hj rfl r hr rfl
      rw [Job.reads_next, List.mem_append, Option.mem_toList] at hr
      rcases hr with hr | hr
      · exact hj rfl r hr rfl
      · rw [hget]
        exact ht.get?_of_read? hr
  exact fun j hj => hall i j hj rfl

/-- A job stays up to date as long as nobody writes the order. -/
theorem current_run {moves : List Move} (hf : f.Current i id)
    (h : ∀ w ∈ f.journal moves, w.id ≠ id) : (f.run moves).Current i id := by
  induction moves generalizing f with
  | nil => exact hf
  | cons m rest ih =>
      rw [journal, List.forall_mem_append] at h
      exact ih (current_step hf fun w hw => h.1 w (Option.mem_toList.2 hw)) h.2

/-! ## What the next client is told -/

/-- The moves of a client whose command goes on once, with nobody in between. -/
def atOnce (f : Floor) (command : Command) (draw : Draw) (outside : Answer) : List Move :=
  [.ask command, .advance f.jobs.length draw outside]

/-- Where the call of such a client stands then. -/
def told? (f : Floor) (command : Command) (draw : Draw) (outside : Answer) : Option Call :=
  (f.run (f.atOnce command draw outside)).calls[f.jobs.length]?

theorem getElem?_calls_ask (f : Floor) (command : Command) :
    (f.step (.ask command)).calls[f.jobs.length]? = some (Call.start command) := by
  rw [calls_ask, ← length_calls, List.getElem?_concat_length]

/-- The call of such a client was served by the store as it was. -/
theorem told?_eq (f : Floor) (command : Command) (draw : Draw) (outside : Answer) :
    f.told? command draw outside = some ((Call.start command).served f.store draw outside) := by
  have hrun : f.run (f.atOnce command draw outside) =
      (f.step (.ask command)).advance f.jobs.length draw outside := rfl
  rw [told?, hrun, calls_advance, List.getElem?_modify_eq, getElem?_calls_ask, store_ask]
  rfl

/-- Whoever fetches the order next is given this record. -/
def Shows (f : Floor) (o : Order) : Prop :=
  ∀ draw outside, f.told? (.fetch o.id) draw outside = some (.succeeded (.fetched o))

/-- Whoever cancels the order next is given this record too, and nothing is written. -/
def StaysCancelled (f : Floor) (o : Order) : Prop :=
  ∀ draw outside,
    f.told? (.cancel o.id) draw outside = some (.succeeded (.cancelled o false)) ∧
      f.journal (f.atOnce (.cancel o.id) draw outside) = []

theorem shows_of_get? {o : Order} (h : f.store.get? o.id = some o) : f.Shows o := by
  intro draw outside
  rw [told?_eq]
  simp [Call.start, Call.served, Call.need, Desk.serve, Store.get, h, Need.takes, Call.resume]

theorem staysCancelled_of_get? {o : Order} (h : f.store.get? o.id = some o)
    (hstatus : o.status = .cancelled) : f.StaysCancelled o := by
  intro draw outside
  constructor
  · rw [told?_eq]
    simp [Call.start, Call.served, Call.need, Desk.serve, Store.get, h, Need.takes, Call.resume,
      Call.afterCancelRead, Order.cancel_eq_ok_none_iff.2 hstatus]
  · -- a cancellation that was just asked for is about to read
    simp [atOnce, journal, left?, getElem?_calls_ask, Call.start, Call.need]

/-- The record that a call has just left is stored until somebody else writes the order. -/
theorem get?_run_of_written? {f g : Floor} {i : Nat} {j : Job} {x : Exchange} (ht : Turn f i j x g)
    {w : Order} (hw : x.written? = some w) {later : List Move}
    (hlater : ∀ v ∈ g.journal later, v.id ≠ w.id) : (g.run later).store.get? w.id = some w := by
  rw [get?_run hlater, ht.store_of_some hw, Store.get?_set, if_pos rfl]

end Floor

/-! ## Turns by which calls succeed -/

namespace Turn

variable {f g : Floor} {i : Nat} {j : Job} {x : Exchange} {id : OrderId} {receipt : Receipt}

/-- The write of a job that has read the stored record leaves it at the next version. -/
theorem version_of_current (ht : Turn f i j x g) {w r : Order} (hw : x.written? = some w)
    (hr : f.store.get? w.id = some r) : w.version = r.version.next := by
  rw [ht.version_of_written? hw, Store.versionOf_of_get? hr]

/-- A log that ends with the exchange of this turn is the one before the turn with it. -/
theorem eq_of_concat {log : List Exchange} (before : List Exchange) {y : Exchange}
    (h : log ++ [x] = before ++ [y]) : log = before ∧ x = y := by
  obtain ⟨hbefore, hlast⟩ := List.append_inj' h rfl
  exact ⟨hbefore, List.singleton_inj.1 hlast⟩

/-- An order that was placed is shown as it was asked for, until somebody writes it. -/
theorem shows_created (ht : Turn f i j x g) {user : UserId} {parts : List PartId}
    (h : Course (.create user parts) (j.log ++ [x]) (.succeeded receipt)) :
    ∃ id total y, receipt = .created id total ∧ y ∈ j.log ++ [x] ∧
      y.need = .prices (Pricing.distinct parts) ∧
      ∀ later, (∀ w ∈ g.journal later, w.id ≠ id) → (g.run later).Shows
        ⟨id, user, parts, total, .pending, none, .first, y.draw.now, y.draw.now⟩ := by
  obtain ⟨id, total, y, z, rfl, hlog, hneed, hw⟩ := h.of_create_succeeded
  obtain ⟨-, rfl⟩ := eq_of_concat [y] hlog
  refine ⟨id, total, y, rfl, by simp [hlog], hneed, fun later hquiet => ?_⟩
  exact Floor.shows_of_get? (Floor.get?_run_of_written? ht hw hquiet)

/-- An order that was paid by what the job had read, while that was stored, is shown as that record with
the payment. -/
theorem shows_paid (ht : Turn f i j x g) {requested : String}
    (h : Course (.pay id requested) (j.log ++ [x]) (.succeeded receipt)) :
    ∃ t m r y z, receipt = .paid t ∧ y ∈ j.log ++ [x] ∧ y.need = .method requested ∧
      y.method? = some m ∧ (y.answer = .method (supportedMethod requested) → m.name = requested) ∧
      z ∈ j.log ++ [x] ∧ z.payment? = some ⟨t, r.user, id, m⟩ ∧
      (f.Current i id → f.store.get? id = some r ∧
        ∀ later, (∀ w ∈ g.journal later, w.id ≠ id) → (g.run later).Shows { r with
          status := .paid, payment := some ⟨m, t⟩, version := r.version.next,
          updatedAt := z.draw.now }) := by
  obtain ⟨r, m, t, y, z, u, v, w, rfl, hlog, hprepared, hp, hw⟩ := h.of_pay_succeeded
  obtain ⟨hbefore, rfl⟩ := eq_of_concat [y, z, u] hlog
  obtain rfl := hprepared.order
  have hnamed : z.answer = .method (supportedMethod requested) → m.name = requested := by
    intro hanswer
    rw [Exchange.answer_of_method? hprepared.method, Answer.method.injEq] at hanswer
    exact PaymentMethod.name_of_supportedMethod hanswer.symm
  refine ⟨t, m, r, z, u, rfl, by simp [hlog], hprepared.asked, hprepared.method, hnamed,
    by simp [hlog], hp, fun hcurrent => ?_⟩
  have hr : r ∈ j.reads := List.mem_filterMap.2 ⟨y, by simp [hbefore], hprepared.read⟩
  have hget := hcurrent j ht.job r hr rfl
  have hv : w = r.version.next := ht.version_of_current hw hget
  rw [hv] at hw
  exact ⟨hget, fun later hquiet => Floor.shows_of_get? (Floor.get?_run_of_written? ht hw hquiet)⟩

/-- An order that was cancelled by what the job had read, while that was stored, is shown and returned
as it was told: as that record, cancelled at this time unless it was already. -/
theorem shows_cancelled (ht : Turn f i j x g)
    (h : Course (.cancel id) (j.log ++ [x]) (.succeeded receipt)) :
    ∃ o changed r y, receipt = .cancelled o changed ∧ y ∈ j.log ++ [x] ∧ y.read? = some r ∧
      (f.Current i id → f.store.get? id = some r ∧
        (∀ later, (∀ w ∈ g.journal later, w.id ≠ id) →
          (g.run later).Shows o ∧ (g.run later).StaysCancelled o) ∧
        o = if changed then
            { r with
              status := .cancelled, version := r.version.next, updatedAt := y.draw.now }
          else r) := by
  obtain ⟨o, changed, y, r, rfl, hy, hread, rfl, hstatus, hend⟩ := h.of_cancelled
  refine ⟨o, changed, r, y, rfl, hy, hread, fun hcurrent => ?_⟩
  cases changed with
  | false =>
      -- nothing is written: what was read in this turn is what is told
      obtain ⟨hlog, rfl⟩ := hend
      obtain ⟨-, rfl⟩ := eq_of_concat [] hlog
      have hget := ht.get?_of_read? hread
      have hkept : g.store.get? o.id = some o := by
        rw [ht.store_of_none (Exchange.written?_of_read? hread)]
        exact hget
      refine ⟨hget, fun later hquiet => ?_, rfl⟩
      have hstore : (g.run later).store.get? o.id = some o := (Floor.get?_run hquiet).trans hkept
      exact ⟨Floor.shows_of_get? hstore, Floor.staysCancelled_of_get? hstore hstatus⟩
  | true =>
      obtain ⟨z, v, hlog, hw, ho⟩ := hend
      obtain ⟨hbefore, rfl⟩ := eq_of_concat [y] hlog
      have hr : r ∈ j.reads := List.mem_filterMap.2 ⟨y, by simp [hbefore], hread⟩
      have hget := hcurrent j ht.job r hr rfl
      have hid : o.id = r.id := by rw [ho]
      have hv : o.version = r.version.next := ht.version_of_current hw (hid ▸ hget)
      refine ⟨hget, fun later hquiet => ?_, ?_⟩
      · have hstore : (g.run later).store.get? o.id = some o :=
          Floor.get?_run_of_written? ht hw (hid ▸ hquiet)
        exact ⟨Floor.shows_of_get? hstore, Floor.staysCancelled_of_get? hstore hstatus⟩
      · rw [ho] at hv ⊢
        rw [if_pos rfl, ← hv]

end Turn

/-- What is read after a call that succeeded, as long as nobody else writes its order between its
beginning and the reading. A placed order is shown as it was asked for, at the first version and waiting;
a paid one is the record from before with the payment that was told, and with nothing changed but the
status, the payment, the time and the version; a cancelled one is shown field for field as it was
returned, differs from the record from before in the status, the time and the version, if it was not
cancelled already, and is returned again, without a write, to all who cancel it later. -/
theorem read_your_writes (s : Store) (early mid later : List Move) (i : Nat) (draw : Draw)
    (outside : Answer) :
    let e := (Floor.opening s).run early
    let f := e.run mid
    let g := f.advance i draw outside
    let h := g.run later
    (∀ j, e.jobs[i]? = some j → j.log = []) →
    (∀ j, f.jobs[i]? = some j → j.call.need ≠ none) →
    ∀ j receipt, g.jobs[i]? = some j → j.call = .succeeded receipt →
      (∀ user parts, j.command = .create user parts →
        ∃ id total x, receipt = .created id total ∧ x ∈ j.log ∧
          x.need = .prices (Pricing.distinct parts) ∧
          ((∀ w ∈ g.journal later, w.id ≠ id) →
            h.Shows ⟨id, user, parts, total, .pending, none, .first, x.draw.now, x.draw.now⟩)) ∧
      (∀ id requested, j.command = .pay id requested →
        ∃ t m r y z, receipt = .paid t ∧ y ∈ j.log ∧ y.need = .method requested ∧
          y.method? = some m ∧ (y.answer = .method (supportedMethod requested) → m.name = requested) ∧
          z ∈ j.log ∧ z.payment? = some ⟨t, r.user, id, m⟩ ∧
          ((∀ w ∈ e.journal mid ++ g.journal later, w.id ≠ id) →
            e.store.get? id = some r ∧
            h.Shows { r with
              status := .paid, payment := some ⟨m, t⟩, version := r.version.next,
              updatedAt := z.draw.now })) ∧
      ∀ id, j.command = .cancel id →
        ∃ o changed r x, receipt = .cancelled o changed ∧ x ∈ j.log ∧ x.read? = some r ∧
          ((∀ w ∈ e.journal mid ++ g.journal later, w.id ≠ id) →
            e.store.get? id = some r ∧ h.Shows o ∧ h.StaysCancelled o ∧
            o = if changed then
                { r with
                  status := .cancelled, version := r.version.next, updatedAt := x.draw.now }
              else r) := by
  intro e f g h hnew hwork j receipt hj hcall
  have hf : f = (Floor.opening s).run (early ++ mid) := (Floor.run_append _ _ _).symm
  -- the call succeeds by this very turn
  obtain ⟨k, x, ht, rfl⟩ : ∃ k x, Turn f i k x g ∧ k.next x = j := by
    rcases Floor.advance_cases f i draw outside with hsame | ⟨k, x, ht, -⟩
    · have hsame : g = f := hsame
      rw [hsame] at hj
      exact absurd (by rw [hcall]; rfl) (hwork j hj)
    · exact ⟨k, x, ht, Option.some.inj (ht.job_after.symm.trans hj)⟩
  have hcourse : Course k.command (k.log ++ [x]) (.succeeded receipt) := by
    have hbefore : Course k.command k.log k.call := by
      refine Floor.course_run s (early ++ mid) k ?_
      rw [← hf]
      exact ht.mem
    have hnext := hbefore.next ht.need ht.honest
    rwa [show k.call.resume x.draw x.answer = _ from hcall] at hnext
  -- what the job has read is stored from its beginning to this turn
  have hcurrent : ∀ id, (∀ w ∈ e.journal mid, w.id ≠ id) → f.Current i id := fun _ hquiet =>
    Floor.current_run (Floor.current_of_log_eq_nil hnew) hquiet
  refine ⟨?_, ?_, ?_⟩
  · intro user parts hcommand
    rw [show k.command = _ from hcommand] at hcourse
    obtain ⟨id, total, y, hreceipt, hy, hneed, hshows⟩ := ht.shows_created hcourse
    exact ⟨id, total, y, hreceipt, hy, hneed, hshows later⟩
  · intro id requested hcommand
    rw [show k.command = _ from hcommand] at hcourse
    obtain ⟨t, m, r, y, z, hreceipt, hy, hasked, hm, hnamed, hz, hp, hpaid⟩ := ht.shows_paid hcourse
    refine ⟨t, m, r, y, z, hreceipt, hy, hasked, hm, hnamed, hz, hp, fun hquiet => ?_⟩
    rw [List.forall_mem_append] at hquiet
    obtain ⟨hget, hshows⟩ := hpaid (hcurrent id hquiet.1)
    exact ⟨(Floor.get?_run hquiet.1).symm.trans hget, hshows later hquiet.2⟩
  · intro id hcommand
    rw [show k.command = _ from hcommand] at hcourse
    obtain ⟨o, changed, r, y, hreceipt, hy, hread, hcancelled⟩ := ht.shows_cancelled hcourse
    refine ⟨o, changed, r, y, hreceipt, hy, hread, fun hquiet => ?_⟩
    rw [List.forall_mem_append] at hquiet
    obtain ⟨hget, hshows, ho⟩ := hcancelled (hcurrent id hquiet.1)
    obtain ⟨hshown, hstays⟩ := hshows later hquiet.2
    exact ⟨(Floor.get?_run hquiet.1).symm.trans hget, hshown, hstays, ho⟩

/-- In the race the first payment leaves the order as it is shown in the end; and an order that was
placed and cancelled is shown and returned as the cancellation gave it, though somebody tried to pay. -/
theorem read_your_writes_race :
    let e := (Floor.opening .empty).run (Floor.race.take 6)
    let h := (Floor.opening .empty).run Floor.race
    let c := (Floor.opening .empty).run Floor.raceCancelled
    e.store.get? Floor.raceOrder = some Floor.raceRecord ∧
      (∃ t m now, h.Shows { Floor.raceRecord with
        status := .paid, payment := some ⟨m, t⟩, version := Version.first.next, updatedAt := now }) ∧
      ∃ o, c.Shows o ∧ c.StaysCancelled o := by
  intro e h c
  have hread : e.store.get? Floor.raceOrder = some Floor.raceRecord := by decide
  obtain ⟨-, hpay, -⟩ := read_your_writes .empty (Floor.race.take 6) ((Floor.race.drop 6).take 7)
    (Floor.race.drop 14) 1 Floor.raceDraw (.prices (.ok [])) (by decide) (by decide) _ _ rfl rfl
  obtain ⟨t, m, r, _, z, -, -, -, -, -, -, -, hpaid⟩ := hpay Floor.raceOrder "CARD" rfl
  obtain ⟨hr, hshows⟩ := hpaid (by decide)
  obtain rfl : Floor.raceRecord = r := Option.some.inj (hread.symm.trans hr)
  obtain ⟨-, -, hcancel⟩ := read_your_writes .empty (Floor.raceCancelled.take 4)
    ((Floor.raceCancelled.drop 4).take 1) (Floor.raceCancelled.drop 6) 1 Floor.raceDraw
    (.prices (.ok [])) (by decide) (by decide) _ _ rfl rfl
  obtain ⟨o, changed, p, x, -, -, -, hquiet⟩ := hcancel Floor.raceOrder rfl
  obtain ⟨-, hshown, hstays, -⟩ := hquiet (by decide)
  exact ⟨hread, ⟨t, m, z.draw.now, hshows⟩, o, hshown, hstays⟩

end OrderDesk
