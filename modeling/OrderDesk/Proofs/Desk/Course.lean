/-
# The course of a call

A call and the exchanges it has had. A call that stands somewhere has had exactly the exchanges that lead
there.

* `Course` : the calls that a command leads to, with their exchanges;
* `Course.stands` : what a call has read, been answered and prepared, by the point where it stands;
* `Course.last` : the exchange that finished a call;
* `Underway.of_need_write` : what a call that writes has behind it;
* `resume_of_written?` : a call whose write is accepted succeeds;
* `Course.underway_of_written?` : where a call stood when its write was accepted.
-/
import OrderDesk.Proofs.Desk.Passage

namespace OrderDesk

/-! ## The orders of commands -/

/-- The order that a command is given. -/
def Command.subject? : Command → Option OrderId
  | .fetch id | .pay id _ | .cancel id => some id
  | .create .. => none

/-- The order that a command is to pay or to cancel. -/
def Command.changes? : Command → Option OrderId
  | .pay id _ | .cancel id => some id
  | _ => none

/-! ## Courses -/

/-- The calls that a command leads to, with the exchanges that they have had. -/
inductive Course (command : Command) : List Exchange → Call → Prop
  | start : Course command [] (Call.start command)
  | next {log : List Exchange} {c : Call} {x : Exchange} :
      Course command log c → c.need = some x.need → x.Honest →
      Course command (log ++ [x]) (c.resume x.draw x.answer)

theorem Course.honest {command : Command} {log : List Exchange} {c : Call}
    (h : Course command log c) : ∀ x ∈ log, x.Honest := by
  induction h with
  | start => simp
  | next _ _ hx ih =>
      intro y hy
      rcases List.mem_append.1 hy with hy | hy
      · exact ih y hy
      · rw [List.mem_singleton.1 hy]
        exact hx

/-- A finished call was finished by its last exchange, or needed nothing at all. -/
theorem Course.last {command : Command} {log : List Exchange} {o : Outcome}
    (h : Course command log (.finished o)) :
    (log = [] ∧ Call.start command = .finished o) ∨
      ∃ before c x, log = before ++ [x] ∧ Course command before c ∧ c.need = some x.need ∧
        c.Passes x (.finished o) := by
  generalize Call.finished o = c at h
  cases h with
  | start => exact Or.inl ⟨rfl, rfl⟩
  | next hbefore hn hx => exact Or.inr ⟨_, _, _, rfl, hbefore, hn, Call.passes_resume hn hx⟩

/-! ## Where a call stands -/

/-- What a call that goes on has behind it. -/
def Underway (command : Command) (log : List Exchange) : Call → Prop
  | .pricing user parts => command = .create user parts ∧ log = []
  | .inserting o =>
      ∃ user parts x snapshots total,
        command = .create user parts ∧ log = [x] ∧ x.need = .prices (Pricing.distinct parts) ∧
        x.answer = .prices (.ok snapshots) ∧ Pricing.total snapshots parts = .ok total ∧
        Order.place x.draw.id x.draw.now user parts total = .ok o
  | .loading id => command = .fetch id ∧ log = []
  | .checking id requested => command = .pay id requested ∧ log = []
  | .choosing r requested =>
      ∃ x, command = .pay r.id requested ∧ log = [x] ∧ x.read? = some r ∧ r.status = .pending
  | .charging r m =>
      ∃ requested x y, command = .pay r.id requested ∧ log = [x, y] ∧ x.read? = some r ∧
        r.status = .pending ∧ y.need = .method requested ∧ y.method? = some m
  | .updatingPaid o t =>
      ∃ r m requested x y z, command = .pay r.id requested ∧ log = [x, y, z] ∧
        x.read? = some r ∧ y.need = .method requested ∧ y.method? = some m ∧
        z.payment? = some ⟨t, r.user, r.id, m⟩ ∧ r.pay m t z.draw.now = .ok o
  | .cancelling id => command = .cancel id ∧ log = []
  | .updatingCancelled o =>
      ∃ r x, command = .cancel r.id ∧ log = [x] ∧ x.read? = some r ∧
        r.cancel x.draw.now = .ok (some o)
  | .finished _ => False

/-- What a call that succeeded has behind it. -/
def Ended (command : Command) (log : List Exchange) : Receipt → Prop
  | .created id total =>
      ∃ o before x v, Underway command before (.inserting o) ∧ log = before ++ [x] ∧
        x.written? = some (o.withVersion v) ∧ o.id = id ∧ o.total = total
  | .fetched o => ∃ x, command = .fetch o.id ∧ log = [x] ∧ x.read? = some o
  | .paid t =>
      ∃ o before x v, Underway command before (.updatingPaid o t) ∧ log = before ++ [x] ∧
        x.written? = some (o.withVersion v)
  | .cancelled o true =>
      ∃ p before x v, Underway command before (.updatingCancelled p) ∧ log = before ++ [x] ∧
        x.written? = some (p.withVersion v) ∧ o = p.withVersion v
  | .cancelled o false =>
      ∃ x, command = .cancel o.id ∧ log = [x] ∧ x.read? = some o ∧ o.status = .cancelled

/-- A call that succeeded ended with a write that was accepted, or did nothing but read once. -/
theorem Ended.last {command : Command} {log : List Exchange} {receipt : Receipt}
    (h : Ended command log receipt) :
    (∃ before x w, log = before ++ [x] ∧ x.written? = some w) ∨
      ∃ x r, log = [x] ∧ x.read? = some r := by
  cases receipt with
  | created id total =>
      obtain ⟨o, before, x, v, -, hlog, hw, -⟩ := h
      exact Or.inl ⟨before, x, _, hlog, hw⟩
  | fetched o =>
      obtain ⟨x, -, hlog, hread⟩ := h
      exact Or.inr ⟨x, o, hlog, hread⟩
  | paid t =>
      obtain ⟨o, before, x, v, -, hlog, hw⟩ := h
      exact Or.inl ⟨before, x, _, hlog, hw⟩
  | cancelled o changed =>
      cases changed with
      | true =>
          obtain ⟨p, before, x, v, -, hlog, hw, -⟩ := h
          exact Or.inl ⟨before, x, _, hlog, hw⟩
      | false =>
          obtain ⟨x, -, hlog, hread, -⟩ := h
          exact Or.inr ⟨x, o, hlog, hread⟩

/-- A receipt of the kind that a command leads to. -/
def Receipt.Suits : Receipt → Command → Prop
  | .created .., .create .. | .fetched _, .fetch _ | .paid _, .pay .. | .cancelled .., .cancel _ => True
  | _, _ => False

theorem Ended.suits {command : Command} {log : List Exchange} {receipt : Receipt}
    (h : Ended command log receipt) : receipt.Suits command := by
  cases receipt with
  | created id total =>
      obtain ⟨_, _, _, _, ⟨_, _, _, _, _, rfl, -⟩, -⟩ := h
      trivial
  | fetched o =>
      obtain ⟨_, rfl, -⟩ := h
      trivial
  | paid t =>
      obtain ⟨_, _, _, _, ⟨_, _, _, _, _, _, rfl, -⟩, -⟩ := h
      trivial
  | cancelled o changed =>
      cases changed with
      | true =>
          obtain ⟨_, _, _, _, ⟨_, _, rfl, -⟩, -⟩ := h
          trivial
      | false =>
          obtain ⟨_, rfl, -⟩ := h
          trivial

/-- What a call has behind it. -/
def Stands (command : Command) (log : List Exchange) : Call → Prop
  | .finished (.ok r) => Ended command log r
  | .finished (.error _) => True
  | c => Underway command log c

theorem stands_start (command : Command) : Stands command [] (Call.start command) := by
  cases command with
  | create user parts =>
      simp only [Call.start]
      split
      · trivial
      · exact ⟨rfl, rfl⟩
  | fetch id => exact ⟨rfl, rfl⟩
  | pay id requested => exact ⟨rfl, rfl⟩
  | cancel id => exact ⟨rfl, rfl⟩

/-- What a call has behind it after one more exchange. -/
theorem Call.Passes.stands {command : Command} {log : List Exchange} {c d : Call} {x : Exchange}
    (h : c.Passes x d) (hc : Underway command log c) : Stands command (log ++ [x]) d := by
  cases h with
  | placed hneed ha htotal hplace =>
      obtain ⟨rfl, rfl⟩ := hc
      exact ⟨_, _, x, _, _, rfl, rfl, hneed, ha, htotal, hplace⟩
  | inserted hw => exact ⟨_, log, x, _, hc, rfl, hw, rfl, rfl⟩
  | fetched hread =>
      obtain ⟨rfl, rfl⟩ := hc
      exact ⟨x, rfl, rfl, hread⟩
  | waiting hread hstatus =>
      obtain ⟨rfl, rfl⟩ := hc
      exact ⟨x, rfl, rfl, hread, hstatus⟩
  | chosen hneed hm =>
      obtain ⟨y, rfl, rfl, hread, hstatus⟩ := hc
      exact ⟨_, y, x, rfl, rfl, hread, hstatus, hneed, hm⟩
  | charged hp hpay =>
      obtain ⟨requested, y, z, rfl, rfl, hread, -, hasked, hm⟩ := hc
      exact ⟨_, _, requested, y, z, x, rfl, rfl, hread, hasked, hm, hp, hpay⟩
  | updatedPaid hw => exact ⟨_, log, x, _, hc, rfl, hw⟩
  | cancellable hread hcancel =>
      obtain ⟨rfl, rfl⟩ := hc
      exact ⟨_, x, rfl, rfl, hread, hcancel⟩
  | cancelledAlready hread hstatus =>
      obtain ⟨rfl, rfl⟩ := hc
      exact ⟨x, rfl, rfl, hread, hstatus⟩
  | updatedCancelled hw => exact ⟨_, log, x, _, hc, rfl, hw, rfl⟩
  | _ => trivial

theorem Stands.underway {command : Command} {log : List Exchange} {c : Call}
    (h : Stands command log c) (hc : c.need ≠ none) : Underway command log c := by
  cases c with
  | finished o => exact absurd rfl hc
  | _ => exact h

/-- What a call has read, been answered and prepared. -/
theorem Course.stands {command : Command} {log : List Exchange} {c : Call}
    (h : Course command log c) : Stands command log c := by
  induction h with
  | start => exact stands_start command
  | next _ hn hx ih => exact (Call.passes_resume hn hx).stands (ih.underway (by simp [hn]))

theorem Course.underway {command : Command} {log : List Exchange} {c : Call}
    (h : Course command log c) (hc : c.need ≠ none) : Underway command log c :=
  h.stands.underway hc

theorem Course.ended {command : Command} {log : List Exchange} {r : Receipt}
    (h : Course command log (.succeeded r)) : Ended command log r :=
  h.stands

/-! ## Reads and writes -/

/-- The calls that write: a new order at the initial version, a paid or cancelled one at its own. -/
theorem need_eq_write {c : Call} {o : Order} {v : Version} (h : c.need = some (.write o v)) :
    (c = .inserting o ∧ v = .initial) ∨ (∃ t, c = .updatingPaid o t ∧ v = o.version) ∨
      (c = .updatingCancelled o ∧ v = o.version) := by
  cases c with
  | inserting p =>
      cases h
      exact Or.inl ⟨rfl, rfl⟩
  | updatingPaid p t =>
      cases h
      exact Or.inr (Or.inl ⟨t, rfl, rfl⟩)
  | updatingCancelled p =>
      cases h
      exact Or.inr (Or.inr ⟨rfl, rfl⟩)
  | _ => cases h

/-- What a call is about to write is a new order, or a final change of the record that it read first of
all, to be paid or cancelled. -/
theorem Underway.of_need_write {command : Command} {log : List Exchange} {c : Call} {o : Order}
    {v : Version} (h : Underway command log c) (hn : c.need = some (.write o v)) :
    (v = .initial ∧ command.changes? = none) ∨
      ∃ x r rest, log = x :: rest ∧ x.read? = some r ∧ command.changes? = some r.id ∧
        r.status = .pending ∧ v = r.version ∧ o.id = r.id ∧ o.status ≠ .pending := by
  rcases need_eq_write hn with ⟨rfl, rfl⟩ | ⟨t, rfl, rfl⟩ | ⟨rfl, rfl⟩
  · obtain ⟨user, parts, _, _, _, rfl, -⟩ := h
    exact Or.inl ⟨rfl, rfl⟩
  · obtain ⟨r, m, requested, x, y, z, rfl, rfl, hread, -, -, -, hpay⟩ := h
    obtain ⟨hstatus, rfl⟩ := Order.pay_eq_ok_iff.1 hpay
    exact Or.inr ⟨x, r, _, rfl, hread, rfl, hstatus, rfl, rfl, by simp⟩
  · obtain ⟨r, x, rfl, rfl, hread, hcancel⟩ := h
    obtain ⟨hstatus, rfl⟩ := Order.cancel_eq_ok_some_iff.1 hcancel
    exact Or.inr ⟨x, r, _, rfl, hread, rfl, hstatus, rfl, rfl, by simp⟩

theorem Underway.read_of_write {command : Command} {log : List Exchange} {c : Call} {id : OrderId}
    {o : Order} {v : Version} (h : Underway command log c) (hn : c.need = some (.write o v))
    (hc : command.changes? = some id) :
    ∃ x r rest, log = x :: rest ∧ x.read? = some r ∧ r.id = id ∧ r.status = .pending ∧
      v = r.version ∧ o.id = id ∧ o.status ≠ .pending := by
  rcases h.of_need_write hn with ⟨-, hnone⟩ | ⟨x, r, rest, hlog, hread, hr, hstatus, hv, hid, hfinal⟩
  · rw [hc] at hnone
    cases hnone
  · obtain rfl : id = r.id := Option.some.inj (hc.symm.trans hr)
    exact ⟨x, r, rest, hlog, hread, rfl, hstatus, hv, hid, hfinal⟩

/-- A call that reads has had no exchange before, and reads the order that its command is given. -/
theorem Underway.of_need_record {command : Command} {log : List Exchange} {c : Call} {id : OrderId}
    (h : Underway command log c) (hn : c.need = some (.record id)) :
    log = [] ∧ command.subject? = some id := by
  cases c with
  | loading order =>
      cases hn
      obtain ⟨rfl, rfl⟩ := h
      exact ⟨rfl, rfl⟩
  | checking order requested =>
      cases hn
      obtain ⟨rfl, rfl⟩ := h
      exact ⟨rfl, rfl⟩
  | cancelling order =>
      cases hn
      obtain ⟨rfl, rfl⟩ := h
      exact ⟨rfl, rfl⟩
  | _ => cases hn

/-- A call that goes on has written nothing. -/
theorem Underway.written?_eq_none {command : Command} {log : List Exchange} {c : Call}
    (h : Underway command log c) : ∀ x ∈ log, x.written? = none := by
  cases c with
  | pricing user parts =>
      obtain ⟨-, rfl⟩ := h
      simp
  | inserting o =>
      obtain ⟨user, parts, x, snapshots, total, -, rfl, hneed, -⟩ := h
      simp only [List.mem_singleton, forall_eq]
      exact Exchange.written?_eq_none (by simp [hneed])
  | loading id =>
      obtain ⟨-, rfl⟩ := h
      simp
  | checking id requested =>
      obtain ⟨-, rfl⟩ := h
      simp
  | choosing r requested =>
      obtain ⟨x, -, rfl, hread, -⟩ := h
      simp only [List.mem_singleton, forall_eq]
      exact Exchange.written?_of_read? hread
  | charging r m =>
      obtain ⟨requested, x, y, -, rfl, hread, -, -, hmethod⟩ := h
      simp [Exchange.written?_of_read? hread, Exchange.written?_of_method? hmethod]
  | updatingPaid o t =>
      obtain ⟨r, m, requested, x, y, z, -, rfl, hread, -, hmethod, hpayment, -⟩ := h
      simp [Exchange.written?_of_read? hread, Exchange.written?_of_method? hmethod,
        Exchange.written?_of_payment? hpayment]
  | cancelling id =>
      obtain ⟨-, rfl⟩ := h
      simp
  | updatingCancelled o =>
      obtain ⟨r, x, -, rfl, hread, -⟩ := h
      simp only [List.mem_singleton, forall_eq]
      exact Exchange.written?_of_read? hread
  | finished o => exact h.elim

/-- A call whose write is accepted succeeds. -/
theorem resume_of_written? {c : Call} {x : Exchange} {w : Order} (hn : c.need = some x.need)
    (hw : x.written? = some w) : ∃ r, c.resume x.draw x.answer = .succeeded r := by
  obtain ⟨time, need, draw, answer⟩ := x
  cases need <;> cases answer <;> simp only [Exchange.written?, reduceCtorEq] at hw
  rename_i o v result
  cases result with
  | error e => cases hw
  | ok v' => cases c <;> cases hn <;> exact ⟨_, rfl⟩

theorem Course.succeeded_of_written? {command : Command} {log : List Exchange} {c : Call}
    {x : Exchange} {w : Order} (h : Course command log c) (hmem : x ∈ log)
    (hw : x.written? = some w) : ∃ r, c = .succeeded r := by
  cases h with
  | start => cases hmem
  | @next before d y hbefore hn hy =>
      rcases List.mem_append.1 hmem with hmem | hmem
      · rw [(hbefore.underway (by simp [hn])).written?_eq_none x hmem] at hw
        cases hw
      · obtain rfl := List.mem_singleton.1 hmem
        exact resume_of_written? hn hw

/-- Where a call stood when its write was accepted. -/
theorem Course.underway_of_written? {command : Command} {log : List Exchange} {c : Call}
    {x : Exchange} {w : Order} (h : Course command log c) (hmem : x ∈ log)
    (hw : x.written? = some w) :
    ∃ before d o v, log = before ++ [x] ∧ Underway command before d ∧ d.need = some (.write o v) ∧
      w = o.withVersion v.next := by
  cases h with
  | start => cases hmem
  | @next before d y hbefore hn hy =>
      have hunder := hbefore.underway (by simp [hn])
      rcases List.mem_append.1 hmem with hmem | hmem
      · -- a call that goes on has written nothing before
        rw [hunder.written?_eq_none x hmem] at hw
        cases hw
      · rw [List.mem_singleton] at hmem
        subst hmem
        obtain ⟨o, v, hwrite, rfl⟩ := Exchange.need_of_written? hy hw
        rw [hwrite] at hn
        exact ⟨before, d, o, v, rfl, hunder, hn, rfl⟩

end OrderDesk
