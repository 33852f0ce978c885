/-
# Copies that jobs hold

A job keeps working on the record that it read while others write. What it read is either the stored
record still, or older than that one; so a write that finds the version that was read replaces exactly
the record that was read.

* `Floor.Grows` : a store is left alone, or one record is put in at the next version;
* `Floor.holds_step` : every record that a job ever read stays held;
* `Turn.replaces` : a job that pays or cancels replaces the record that it read.
-/
import OrderDesk.Proofs.Desk.Floor
import OrderDesk.Proofs.Order.Rules

namespace OrderDesk

namespace Job

/-- The records that a job read. -/
def reads (j : Job) : List Order :=
  j.log.filterMap Exchange.read?

/-- The records that a job left in the store. -/
def writes (j : Job) : List Order :=
  j.log.filterMap Exchange.written?

theorem reads_next (j : Job) (x : Exchange) : (j.next x).reads = j.reads ++ x.read?.toList := by
  cases h : x.read? <;> simp [reads, h]

theorem writes_next (j : Job) (x : Exchange) : (j.next x).writes = j.writes ++ x.written?.toList := by
  cases h : x.written? <;> simp [writes, h]

/-- A job that failed has no accepted write. -/
theorem writes_eq_nil_of_failed {j : Job} {command : Command} (h : Course command j.log j.call)
    {e : OrderError} (hcall : j.call = .failed e) : j.writes = [] := by
  refine List.filterMap_eq_nil_iff.2 fun x hx => ?_
  cases hw : x.written? with
  | none => rfl
  | some w =>
      obtain ⟨receipt, hsucceeded⟩ := h.succeeded_of_written? hx hw
      rw [hcall] at hsucceeded
      cases hsucceeded

end Job

namespace Floor

/-- The store is left alone, or takes in one record at the next version. -/
def Grows (f g : Floor) : Prop :=
  g.store = f.store ∨
    ∃ w, g.store = f.store.set w ∧ w.version.number.toNat = f.store.age w.id + 1

/-- No record reaches the largest version before, during or after a run. -/
def SmallAlong (f : Floor) : List Move → Prop
  | [] => f.store.Small
  | m :: rest => f.store.Small ∧ (f.step m).SmallAlong rest

instance decidableSmallAlong (f : Floor) : (moves : List Move) → Decidable (f.SmallAlong moves)
  | [] => inferInstanceAs (Decidable f.store.Small)
  | m :: rest =>
      have := decidableSmallAlong (f.step m) rest
      inferInstanceAs (Decidable (f.store.Small ∧ (f.step m).SmallAlong rest))

/-- Every record that a job ever read is held. -/
def Holds (f : Floor) : Prop :=
  ∀ j ∈ f.jobs, ∀ r ∈ j.reads, f.store.Held r

end Floor

namespace Turn

variable {f g : Floor} {i : Nat} {j : Job} {x : Exchange}

/-- A record that is left in the store is the order of the need, at the version after the stored one. -/
theorem need_of_written? (h : Turn f i j x g) {w : Order} (hw : x.written? = some w) :
    ∃ o, x.need = .write o (f.store.versionOf o.id) ∧
      w = o.withVersion (f.store.versionOf o.id).next := by
  obtain ⟨o, v, hn, rfl⟩ := Exchange.need_of_written? h.honest hw
  rw [h.written?_of_need hn] at hw
  by_cases hv : f.store.versionOf o.id = v
  · subst hv
    exact ⟨o, hn, rfl⟩
  · rw [if_neg hv] at hw
    cases hw

theorem version_of_written? (h : Turn f i j x g) {w : Order} (hw : x.written? = some w) :
    w.version = (f.store.versionOf w.id).next := by
  obtain ⟨o, -, rfl⟩ := h.need_of_written? hw
  rfl

/-- What a job that pays or cancels is about to write expects the version of the one record it read. -/
theorem read_of_write (h : Turn f i j x g) (hc : Course j.command j.log j.call) {o : Order}
    {v : Version} (hn : x.need = .write o v) (hcommand : ∀ user parts, j.command ≠ .create user parts) :
    ∃ r, j.reads = [r] ∧ r.status = .pending ∧ o.id = r.id ∧ v = r.version := by
  have hunder := hc.underway (by simp [h.need])
  rcases need_eq_write (hn ▸ h.need) with ⟨hcall, -⟩ | ⟨t, hcall, rfl⟩ | ⟨hcall, rfl⟩
  · rw [hcall] at hunder
    obtain ⟨user, parts, y, snapshots, total, hcreate, -⟩ := hunder
    exact absurd hcreate (hcommand user parts)
  · rw [hcall] at hunder
    obtain ⟨r, m, requested, y, z, u, -, hlog, hread, -, hm, hp, hpay⟩ := hunder
    obtain ⟨hstatus, rfl⟩ := Order.pay_eq_ok_iff.1 hpay
    refine ⟨r, ?_, hstatus, rfl, rfl⟩
    simp [Job.reads, hlog, hread, Exchange.read?_of_method? hm, Exchange.read?_of_payment? hp]
  · rw [hcall] at hunder
    obtain ⟨r, y, -, hlog, hread, hcancel⟩ := hunder
    obtain ⟨hstatus, rfl⟩ := Order.cancel_eq_ok_some_iff.1 hcancel
    exact ⟨r, by simp [Job.reads, hlog, hread], hstatus, rfl, rfl⟩

/-- A job that pays or cancels replaces the record that it read, and no other. -/
theorem replaces (h : Turn f i j x g) (hc : Course j.command j.log j.call) (hf : f.Holds)
    {w : Order} (hw : x.written? = some w)
    (hcommand : ∀ user parts, j.command ≠ .create user parts) :
    ∃ r, j.reads = [r] ∧ r.status = .pending ∧ f.store.get? w.id = some r := by
  obtain ⟨o, hn, rfl⟩ := h.need_of_written? hw
  obtain ⟨r, hreads, hstatus, hid, hv⟩ := h.read_of_write hc hn hcommand
  -- the write found the version that was read, so the copy cannot be an older record
  have hheld : f.store.Held r := hf j h.mem r (by simp [hreads])
  rw [hid] at hv
  refine ⟨r, hreads, hstatus, ?_⟩
  rw [Order.id_withVersion, hid]
  exact hheld.get?_eq hv

end Turn

namespace Floor

/-- Every move leaves the store alone or puts in one record at the next version. -/
theorem grows_step {f : Floor} (hs : f.store.Small) (m : Move) : f.Grows (f.step m) := by
  have hnext : ∀ w : Order, w.version = (f.store.versionOf w.id).next →
      w.version.number.toNat = f.store.age w.id + 1 := by
    intro w hw
    rw [hw]
    exact Version.toNat_next (hs.age_lt w.id)
  cases m with
  | ask command => exact Or.inl (store_ask f command)
  | intrude o expected =>
      -- others may write any order with any version in it, but the store numbers it itself
      simp only [step, intrude, Grows, Desk.put, Store.put_eq]
      by_cases hv : ∀ v ∈ expected, f.desk.store.versionOf o.id = v
      · rw [if_pos hv]
        exact Or.inr ⟨_, rfl, hnext _ rfl⟩
      · rw [if_neg hv]
        exact Or.inl rfl
  | advance i draw outside =>
      rcases advance_cases f i draw outside with h | ⟨j, x, ht, -⟩
      · simp only [step, h]
        exact Or.inl rfl
      · cases hw : x.written? with
        | none => exact Or.inl (ht.store_of_none hw)
        | some w =>
            exact Or.inr ⟨w, ht.store_of_some hw, hnext w (ht.version_of_written? hw)⟩

theorem held_of_grows {f g : Floor} (hg : f.Grows g) {r : Order} (h : f.store.Held r) :
    g.store.Held r := by
  rcases hg with hg | ⟨w, hg, hw⟩
  · rw [hg]
    exact h
  · rw [hg]
    exact h.set hw

/-- Every record that a job ever read stays held. -/
theorem holds_step {f : Floor} (m : Move) (hg : f.Grows (f.step m)) (h : f.Holds) :
    (f.step m).Holds := by
  refine forall_mem_step (p := fun j => ∀ r ∈ j.reads, (f.step m).store.Held r) m
    (fun j hj r hr => held_of_grows hg (h j hj r hr)) (fun _ => by simp [Job.reads]) ?_
  intro i j x ht hj r hr
  rw [Job.reads_next, List.mem_append, Option.mem_toList] at hr
  rcases hr with hr | hr
  · exact hj r hr
  · exact held_of_grows hg (Store.held_of_get?_eq_some (ht.get?_of_read? hr))

theorem holds_run {f : Floor} {moves : List Move} (hs : f.SmallAlong moves) (h : f.Holds) :
    (f.run moves).Holds := by
  induction moves generalizing f with
  | nil => exact h
  | cons m rest ih => exact ih hs.2 (holds_step m (grows_step hs.1 m) h)

theorem holds_opening (s : Store) : (opening s).Holds := by
  simp [Holds]

end Floor

end OrderDesk
