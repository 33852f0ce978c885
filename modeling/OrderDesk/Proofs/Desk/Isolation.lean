/-
# Orders do not meet

Since a call reads and writes no record but that of its order, calls on other orders can be left out of
a run, or moved in it, and neither it nor the record can tell.

* `Floor.kept` : the moves of a run in which some of the jobs take part, with these renumbered;
* `Floor.Only` : a floor with only some of the jobs of another one;
* `Floor.only_run` : the jobs on one order see the same without the others;
* `Floor.run_comm` : calls on different orders commute;
* `orders_isolated` : calls are independent of calls on other orders.
-/
import OrderDesk.Proofs.Desk.Footprint

namespace OrderDesk

/-! ## Runs without some of the jobs -/

namespace Floor

variable {i n : Nat}

/-- How many of the jobs before one are kept: its number when the others were never there. -/
def rank (keep : Nat → Bool) (i : Nat) : Nat :=
  (List.range i).countP keep

theorem rank_succ (keep : Nat → Bool) (i : Nat) :
    rank keep (i + 1) = rank keep i + if keep i then 1 else 0 := by
  rw [rank, List.range_succ, List.countP_append, List.countP_singleton]
  rfl

theorem rank_mono (keep : Nat → Bool) {i n : Nat} (h : i ≤ n) : rank keep i ≤ rank keep n := by
  induction h with
  | refl => exact Nat.le_refl _
  | step _ ih =>
      rw [rank_succ]
      omega

/-- A job that is kept counts for the later ones. -/
theorem rank_lt {keep : Nat → Bool} (hi : keep i = true) (h : i < n) : rank keep i < rank keep n := by
  have hsucc : rank keep (i + 1) = rank keep i + 1 := by rw [rank_succ, if_pos hi]
  have hmono : rank keep (i + 1) ≤ rank keep n := rank_mono keep h
  omega

theorem rank_inj {keep : Nat → Bool} (hi : keep i = true) (hn : keep n = true)
    (h : rank keep i = rank keep n) : i = n := by
  rcases Nat.lt_trichotomy i n with hlt | heq | hlt
  · exact absurd h (Nat.ne_of_lt (rank_lt hi hlt))
  · exact heq
  · exact absurd h.symm (Nat.ne_of_lt (rank_lt hn hlt))

end Floor

/-- What is left of a move when only some jobs are kept, after so many jobs. -/
def Move.only? (keep : Nat → Bool) (made : Nat) : Move → Option Move
  | .ask command => if keep made then some (.ask command) else none
  | .advance i draw outside =>
      if keep i then some (.advance (Floor.rank keep i) draw outside) else none
  | .intrude o expected => some (.intrude o expected)

namespace Floor

variable {f g : Floor} {i n : Nat} {keep : Nat → Bool} {a : OrderId}

/-- What is left of a run when only some jobs are kept. -/
def kept (f : Floor) (keep : Nat → Bool) : List Move → List Move
  | [] => []
  | m :: rest => (m.only? keep f.jobs.length).toList ++ (f.step m).kept keep rest

/-- The commands that were given. -/
def commands (f : Floor) : List Command :=
  f.jobs.map Job.command

theorem commands_ask (f : Floor) (command : Command) :
    (f.step (.ask command)).commands = f.commands ++ [command] :=
  List.map_append

theorem commands_advance (f : Floor) (i : Nat) (draw : Draw) (outside : Answer) :
    (f.advance i draw outside).commands = f.commands := by
  rcases advance_cases f i draw outside with hsame | ⟨j, x, ht, -⟩
  · rw [hsame]
  · have hself : f.commands[i]? = some j.command := by
      rw [commands, List.getElem?_map, ht.job]
      rfl
    obtain ⟨hi, hj⟩ := List.getElem?_eq_some_iff.1 hself
    rw [commands, ht.jobs, List.map_set, Job.command_next, ← hj]
    exact List.set_getElem_self hi

/-- All jobs on an order are kept, and none on any other. It does not matter whether those are kept that
never came to an order. -/
def Selects (f : Floor) (keep : Nat → Bool) (a : OrderId) : Prop :=
  ∀ i < f.jobs.length,
    (f.order? i = some a → keep i = true) ∧
      (keep i = true → f.order? i = none ∨ f.order? i = some a)

instance (f : Floor) (keep : Nat → Bool) (a : OrderId) : Decidable (f.Selects keep a) :=
  inferInstanceAs (Decidable (∀ i < f.jobs.length, _))

theorem lt_of_order? {id : OrderId} (h : f.order? i = some id) : i < f.jobs.length := by
  obtain ⟨j, hj, -⟩ := Option.bind_eq_some_iff.1 h
  exact (List.getElem?_eq_some_iff.1 hj).1

theorem Selects.keeps (h : f.Selects keep a) (ha : f.order? i = some a) : keep i = true :=
  (h i (lt_of_order? ha)).1 ha

theorem Selects.eq (h : f.Selects keep a) (hi : keep i = true) {id : OrderId}
    (hid : f.order? i = some id) : id = a := by
  rcases (h i (lt_of_order? hid)).2 hi with hnone | ha
  · rw [hid] at hnone
    cases hnone
  · exact Option.some.inj (hid.symm.trans ha)

/-- Whoever selects the jobs on an order at the end of a run has selected them before. -/
theorem Selects.of_run {moves : List Move} (h : (f.run moves).Selects keep a) :
    f.Selects keep a := by
  intro i _
  refine ⟨fun ha => h.keeps (order?_run ha moves), fun hi => ?_⟩
  cases hid : f.order? i with
  | none => exact Or.inl rfl
  | some id => exact Or.inr (congrArg some (h.eq hi (order?_run hid moves)))

/-- The second floor is the first one with the kept jobs only, and these and the record of an order are
the same on both. -/
structure Only (f g : Floor) (keep : Nat → Bool) (a : OrderId) : Prop where
  made : g.jobs.length = rank keep f.jobs.length
  commands : ∀ i, keep i = true → g.commands[rank keep i]? = f.commands[i]?
  calls : ∀ i, keep i = true → g.calls[rank keep i]? = f.calls[i]?
  record : g.store.get? a = f.store.get? a

theorem only_opening (s : Store) : (opening s).Only (opening s) keep a where
  made := rfl
  commands := fun _ _ => rfl
  calls := fun _ _ => rfl
  record := rfl

/-- A job that is kept has the same command and the same call on both floors. -/
theorem Only.job (h : f.Only g keep a) {j : Job} (hj : f.jobs[i]? = some j) (hi : keep i = true) :
    ∃ k, g.jobs[rank keep i]? = some k ∧ k.command = j.command ∧ k.call = j.call := by
  have hcommand := h.commands i hi
  have hcall := h.calls i hi
  simp only [Floor.commands, Floor.calls, List.getElem?_map, hj, Option.map_some,
    Option.map_eq_some_iff] at hcommand hcall
  obtain ⟨k, hk, hkcommand⟩ := hcommand
  obtain ⟨l, hl, hlcall⟩ := hcall
  obtain rfl : k = l := Option.some.inj (hk.symm.trans hl)
  exact ⟨k, hk, hkcommand, hlcall⟩

/-- What comes last in a list comes last among the kept ones, if it is kept. -/
theorem getElem?_rank_append {α : Type} {l k : List α} (hl : k.length = rank keep l.length)
    (h : ∀ i, keep i = true → k[rank keep i]? = l[i]?) (b : α) :
    ∀ i, keep i = true →
      (k ++ if keep l.length then [b] else [])[rank keep i]? = (l ++ [b])[i]? := by
  intro i hi
  rcases Nat.lt_trichotomy i l.length with hlt | rfl | hlt
  · have hrank := rank_lt hi hlt
    rw [List.getElem?_append_left (by omega), List.getElem?_append_left hlt]
    exact h i hi
  · rw [if_pos hi, ← hl]
    simp
  · have hrank : rank keep l.length + (if keep l.length then 1 else 0) ≤ rank keep i := by
      rw [← rank_succ]
      exact rank_mono keep hlt
    have hleft : (k ++ if keep l.length then [b] else []).length ≤ rank keep i := by
      rw [List.length_append, hl]
      split <;> simp_all
    rw [List.getElem?_eq_none hleft, List.getElem?_eq_none (by simpa using Nat.succ_le_of_lt hlt)]

theorem length_jobs_ask (f : Floor) (command : Command) :
    (f.step (.ask command)).jobs.length = f.jobs.length + 1 :=
  List.length_append

theorem length_jobs_advance (f : Floor) (i : Nat) (draw : Draw) (outside : Answer) :
    (f.advance i draw outside).jobs.length = f.jobs.length := by
  rw [← length_calls, calls_advance, List.length_modify, length_calls]

theorem getElem?_calls_advance_ne (f : Floor) (h : n ≠ i) (draw : Draw) (outside : Answer) :
    (f.advance n draw outside).calls[i]? = f.calls[i]? := by
  rw [calls_advance, List.getElem?_modify_ne _ _ h]

/-- A job that is asked for is asked for on both floors, or only on the first. -/
theorem only_ask (h : f.Only g keep a) (command : Command) :
    (f.step (.ask command)).Only
      (g.run ((Move.ask command).only? keep f.jobs.length).toList) keep a := by
  have hmade : g.commands.length = rank keep f.commands.length := by
    simpa [commands] using h.made
  have hmade' : g.calls.length = rank keep f.calls.length := by
    simpa [length_calls] using h.made
  have hcommands := getElem?_rank_append hmade h.commands command
  have hcalls := getElem?_rank_append hmade' h.calls (Call.start command)
  rw [length_calls, ← calls_ask] at hcalls
  rw [show f.commands.length = f.jobs.length from List.length_map _, ← commands_ask] at hcommands
  cases hkeep : keep f.jobs.length with
  | true =>
      simp only [Move.only?, hkeep, if_true, Option.toList_some, run] at hcommands hcalls ⊢
      rw [← commands_ask] at hcommands
      rw [← calls_ask] at hcalls
      refine ⟨?_, hcommands, hcalls, ?_⟩
      · rw [length_jobs_ask, length_jobs_ask, rank_succ, if_pos hkeep, h.made]
      · rw [store_ask, store_ask]
        exact h.record
  | false =>
      simp only [Move.only?, hkeep, Bool.false_eq_true, if_false, Option.toList_none, run,
        List.append_nil] at hcommands hcalls ⊢
      refine ⟨?_, hcommands, hcalls, ?_⟩
      · rw [length_jobs_ask, rank_succ, hkeep, h.made]
        rfl
      · rw [store_ask]
        exact h.record

/-- A job that is kept sees the same on both floors when it goes on. -/
theorem only_advance_kept (hf : ∀ j ∈ f.jobs, Course j.command j.log j.call)
    (hs : f.Selects keep a) (h : f.Only g keep a) (hi : keep i = true) (draw : Draw)
    (outside : Answer) :
    g.left? (.advance (rank keep i) draw outside) = f.left? (.advance i draw outside) ∧
      (f.advance i draw outside).Only (g.advance (rank keep i) draw outside) keep a := by
  have hrecord : ∀ id, f.touches? i = some id → g.store.get? id = f.store.get? id := by
    intro id hid
    rw [hs.eq hi (order?_of_touches? hf hid)]
    exact h.record
  obtain ⟨hcall, hleft⟩ := advance_congr (h.calls i hi) hrecord draw outside
  refine ⟨hleft, ?_, ?_, ?_, ?_⟩
  · rw [length_jobs_advance, length_jobs_advance]
    exact h.made
  · rw [commands_advance, commands_advance]
    exact h.commands
  · intro n hn
    by_cases heq : i = n
    · rw [← heq]
      exact hcall
    · have hrank : rank keep i ≠ rank keep n := fun hr => heq (rank_inj hi hn hr)
      rw [getElem?_calls_advance_ne g hrank, getElem?_calls_advance_ne f heq]
      exact h.calls n hn
  · have hfilter := congrArg (Option.filter (·.id = a)) hleft
    exact get?_step_congr h.record hfilter

/-- A job on another order changes nothing that the kept ones see. -/
theorem only_advance_dropped (hf : ∀ j ∈ f.jobs, Course j.command j.log j.call)
    (hs : f.Selects keep a) (h : f.Only g keep a) (hi : keep i = false) (draw : Draw)
    (outside : Answer) :
    (∀ w ∈ f.left? (.advance i draw outside), w.id ≠ a) ∧
      (f.advance i draw outside).Only g keep a := by
  have htouches : f.touches? i ≠ some a := by
    intro ha
    have hkeep := hs.keeps (order?_of_touches? hf ha)
    rw [hi] at hkeep
    cases hkeep
  refine ⟨fun w hw hid => htouches (hid ▸ touches?_of_left? hw), ?_, ?_, ?_, ?_⟩
  · rw [length_jobs_advance]
    exact h.made
  · rw [commands_advance]
    exact h.commands
  · intro n hn
    have hne : i ≠ n := by
      rintro rfl
      rw [hi] at hn
      cases hn
    rw [getElem?_calls_advance_ne f hne]
    exact h.calls n hn
  · rw [get?_advance htouches]
    exact h.record

/-- Another writer leaves the same on both floors under the identifier that counts. -/
theorem only_intrude (h : f.Only g keep a) (o : Order) (expected : Option Version) :
    (g.left? (.intrude o expected)).filter (·.id = a) =
        (f.left? (.intrude o expected)).filter (·.id = a) ∧
      (f.step (.intrude o expected)).Only (g.step (.intrude o expected)) keep a := by
  have hleft : (g.left? (.intrude o expected)).filter (·.id = a) =
      (f.left? (.intrude o expected)).filter (·.id = a) := by
    by_cases ho : o.id = a
    · have hrecord : g.store.get? o.id = f.store.get? o.id := ho ▸ h.record
      rw [left?, left?, Store.written?_congr hrecord]
    · have hnone : ∀ k : Floor, (k.left? (.intrude o expected)).filter (·.id = a) = none := by
        intro k
        rw [Option.filter_eq_none_iff]
        intro w hw
        simpa [Store.id_of_written? hw] using ho
      rw [hnone, hnone]
  exact ⟨hleft, h.made, h.commands, h.calls, get?_step_congr h.record hleft⟩

/-- What is left of a move changes the kept jobs and the record of the order as the move does. -/
theorem only_step (hf : ∀ j ∈ f.jobs, Course j.command j.log j.call) (hs : f.Selects keep a)
    (h : f.Only g keep a) (m : Move) :
    (g.journal (m.only? keep f.jobs.length).toList).filter (·.id = a) =
        (f.left? m).toList.filter (·.id = a) ∧
      (f.step m).Only (g.run (m.only? keep f.jobs.length).toList) keep a := by
  cases m with
  | ask command =>
      refine ⟨?_, only_ask h command⟩
      cases hkeep : keep f.jobs.length <;> simp [Move.only?, hkeep, journal, left?]
  | intrude o expected =>
      obtain ⟨hleft, honly⟩ := only_intrude h o expected
      refine ⟨?_, honly⟩
      have htoList := congrArg Option.toList hleft
      simpa [Move.only?, journal, Option.toList_filter] using htoList
  | advance i draw outside =>
      cases hkeep : keep i with
      | true =>
          obtain ⟨hleft, honly⟩ := only_advance_kept hf hs h hkeep draw outside
          simp only [Move.only?, hkeep, if_true, Option.toList_some, journal, hleft, List.append_nil]
          exact ⟨trivial, honly⟩
      | false =>
          obtain ⟨hothers, honly⟩ := only_advance_dropped hf hs h hkeep draw outside
          simp only [Move.only?, hkeep, Bool.false_eq_true, if_false, Option.toList_none, journal,
            List.filter_nil]
          refine ⟨?_, honly⟩
          rw [eq_comm, List.filter_eq_nil_iff]
          simpa using hothers

/-- What is left of a run changes the kept jobs and the record of the order as the whole run does. -/
theorem only_run {moves : List Move} (hf : ∀ j ∈ f.jobs, Course j.command j.log j.call)
    (hs : (f.run moves).Selects keep a) (h : f.Only g keep a) :
    (g.journal (f.kept keep moves)).filter (·.id = a) = (f.journal moves).filter (·.id = a) ∧
      (f.run moves).Only (g.run (f.kept keep moves)) keep a := by
  induction moves generalizing f g with
  | nil => exact ⟨rfl, h⟩
  | cons m rest ih =>
      have hnow : f.Selects keep a := Selects.of_run (show (f.run (m :: rest)).Selects keep a from hs)
      have hrest : ∀ j ∈ (f.step m).jobs, Course j.command j.log j.call := course_step m hf
      rw [kept, journal_append, run_append, journal, List.filter_append, List.filter_append]
      obtain ⟨hleft, hstep⟩ := only_step hf hnow h m
      obtain ⟨hjournal, honly⟩ := ih hrest hs hstep
      rw [hleft, hjournal]
      exact ⟨rfl, honly⟩

end Floor

/-! ## Calls that commute -/

/-- Whether a move is a step of a job. -/
def Move.IsOf (i : Nat) : Move → Prop
  | .advance n _ _ => n = i
  | _ => False

namespace Floor

variable {f g : Floor} {i k n : Nat} {xs ys : List Move}

/-- The steps of a job are no steps of any other call. -/
theorem getElem?_calls_run_ne (hx : ∀ m ∈ xs, m.IsOf i) (h : i ≠ n) :
    (f.run xs).calls[n]? = f.calls[n]? := by
  induction xs generalizing f with
  | nil => rfl
  | cons m rest ih =>
      rw [run, ih fun k hk => hx k (List.mem_cons_of_mem m hk)]
      have hm := hx m List.mem_cons_self
      cases m with
      | advance l draw outside =>
          obtain rfl : l = i := hm
          exact getElem?_calls_advance_ne f h draw outside
      | ask command => exact hm.elim
      | intrude o expected => exact hm.elim

/-- A job that finds the same call and the same record of its order takes the same steps, and leaves the
same record of its order and all others as they were. -/
theorem run_congr (hf : ∀ j ∈ f.jobs, Course j.command j.log j.call) (hx : ∀ m ∈ xs, m.IsOf i)
    (hcalls : g.calls[i]? = f.calls[i]?)
    (hrecord : ∀ id, (f.run xs).order? i = some id → g.store.get? id = f.store.get? id) :
    (g.run xs).calls[i]? = (f.run xs).calls[i]? ∧
      (∀ id, (f.run xs).order? i = some id →
        (g.run xs).store.get? id = (f.run xs).store.get? id) ∧
      ∀ id, (f.run xs).order? i ≠ some id → (g.run xs).store.get? id = g.store.get? id := by
  induction xs generalizing f g with
  | nil => exact ⟨hcalls, hrecord, fun _ _ => rfl⟩
  | cons m rest ih =>
      have hm := hx m List.mem_cons_self
      have hrest : ∀ k ∈ rest, k.IsOf i := fun k hk => hx k (List.mem_cons_of_mem m hk)
      cases m with
      | ask command => exact hm.elim
      | intrude o expected => exact hm.elim
      | advance l draw outside =>
          obtain rfl : l = i := hm
          -- what the store is asked for now is the order of the job at the end
          have howner : ∀ id, f.touches? l = some id →
              (f.run (.advance l draw outside :: rest)).order? l = some id :=
            fun id hid => order?_run (order?_of_touches? hf hid) _
          obtain ⟨hcall, hleft⟩ := advance_congr hcalls (fun id hid => hrecord id (howner id hid))
            draw outside
          have hstep : ∀ id, ((f.advance l draw outside).run rest).order? l = some id →
              (g.advance l draw outside).store.get? id = (f.advance l draw outside).store.get? id := by
            intro id hid
            have hfilter := congrArg (Option.filter (·.id = id)) hleft
            exact get?_step_congr (hrecord id hid) hfilter
          obtain ⟨hcalls', hown, hothers⟩ := ih (course_step (.advance l draw outside) hf) hrest hcall
            hstep
          refine ⟨hcalls', hown, fun id hid => (hothers id hid).trans ?_⟩
          have htouches : g.touches? l ≠ some id := by
            rw [touches?, hcalls]
            exact fun hasked => hid (howner id hasked)
          exact get?_advance htouches draw outside

/-- All steps of one job may be taken before or after those of another one on another order. -/
theorem run_comm (hf : ∀ j ∈ f.jobs, Course j.command j.log j.call) (hik : i ≠ k)
    (hx : ∀ m ∈ xs, m.IsOf i) (hy : ∀ m ∈ ys, m.IsOf k)
    (hne : ∀ id, (f.run xs).order? i = some id → (f.run ys).order? k ≠ some id) :
    (f.run (xs ++ ys)).calls = (f.run (ys ++ xs)).calls ∧
      ∀ id, (f.run (xs ++ ys)).store.get? id = (f.run (ys ++ xs)).store.get? id := by
  rw [run_append, run_append]
  obtain ⟨-, -, hframe⟩ := run_congr hf hx rfl fun _ _ => rfl
  obtain ⟨-, -, hframe'⟩ := run_congr hf hy rfl fun _ _ => rfl
  obtain ⟨hcall, hown, hothers⟩ := run_congr hf hy (getElem?_calls_run_ne (f := f) hx hik)
    fun id hid => hframe id fun hid' => hne id hid' hid
  obtain ⟨hcall', hown', hothers'⟩ := run_congr hf hx (getElem?_calls_run_ne (f := f) hy hik.symm)
    fun id hid => hframe' id (hne id hid)
  constructor
  · apply List.ext_getElem?
    intro n
    by_cases hn : n = k
    · subst hn
      rw [hcall, getElem?_calls_run_ne hx hik]
    · rw [getElem?_calls_run_ne hy (Ne.symm hn)]
      by_cases hi : n = i
      · subst hi
        exact hcall'.symm
      · rw [getElem?_calls_run_ne hx (Ne.symm hi), getElem?_calls_run_ne hx (Ne.symm hi),
          getElem?_calls_run_ne hy (Ne.symm hn)]
  · intro id
    by_cases hk : (f.run ys).order? k = some id
    · have hi : (f.run xs).order? i ≠ some id := fun hi => hne id hi hk
      rw [hown id hk, hothers' id hi]
    · rw [hothers id hk]
      by_cases hi : (f.run xs).order? i = some id
      · exact (hown' id hi).symm
      · rw [hothers' id hi, hframe id hi, hframe' id hk]

end Floor

/-! ## Isolation -/

/-- Over any store, and whatever else happens in a run: the jobs on an order come to the same results
without all jobs on other orders, and the record of that order has the same history; a step of a job
changes no record but that of its order; and two calls on different orders come to the same results and
leave the same records in either order. -/
theorem orders_isolated (s : Store) (moves : List Move) :
    let f := (Floor.opening s).run moves
    (∀ a keep, f.Selects keep a →
      let rest := (Floor.opening s).kept keep moves
      let g := (Floor.opening s).run rest
      (∀ i j, f.jobs[i]? = some j → keep i = true →
        ∃ k, g.jobs[Floor.rank keep i]? = some k ∧ k.command = j.command ∧ k.call = j.call) ∧
      ((Floor.opening s).journal rest).filter (·.id = a) =
        ((Floor.opening s).journal moves).filter (·.id = a) ∧
      g.store.get? a = f.store.get? a) ∧
    (∀ i draw outside id, f.order? i ≠ some id →
      (f.advance i draw outside).store.get? id = f.store.get? id) ∧
    ∀ i k xs ys, i ≠ k → (∀ m ∈ xs, m.IsOf i) → (∀ m ∈ ys, m.IsOf k) →
      (∀ id, (f.run xs).order? i = some id → (f.run ys).order? k ≠ some id) →
      (f.run (xs ++ ys)).calls = (f.run (ys ++ xs)).calls ∧
        ∀ id, (f.run (xs ++ ys)).store.get? id = (f.run (ys ++ xs)).store.get? id := by
  intro f
  have hcourse : ∀ j ∈ f.jobs, Course j.command j.log j.call := Floor.course_run s moves
  refine ⟨?_, ?_, ?_⟩
  · intro a keep hs rest g
    have hnone : ∀ j ∈ (Floor.opening s).jobs, Course j.command j.log j.call := by simp
    obtain ⟨hjournal, honly⟩ := Floor.only_run hnone hs (Floor.only_opening s)
    exact ⟨fun _ _ hj hi => honly.job hj hi, hjournal, honly.record⟩
  · intro i draw outside id hid
    exact Floor.get?_advance (fun ht => hid (Floor.order?_of_touches? hcourse ht)) draw outside
  · intro i k xs ys hik hx hy hne
    exact Floor.run_comm hcourse hik hx hy hne

namespace Floor

/-- Another order than that of the race. -/
def sideOrder : OrderId := ⟨⟨8#128⟩⟩

/-- Two orders are placed at the same time. -/
def sideBySide : List Move :=
  [.ask (.create ⟨⟨1#128⟩⟩ [⟨⟨2#128⟩⟩]), .ask (.create ⟨⟨3#128⟩⟩ [⟨⟨2#128⟩⟩]),
    raceStep 0 (.prices (.ok [⟨⟨⟨2#128⟩⟩, .ofUnits 5⟩])),
    .advance 1 ⟨sideOrder, raceDraw.now⟩ (.prices (.ok [⟨⟨⟨2#128⟩⟩, .ofUnits 5⟩])),
    raceStep 1 (.prices (.ok [])), raceStep 0 (.prices (.ok [])),
    .ask (.pay raceOrder "CARD"), .ask (.cancel sideOrder)]

/-- The order of the race is paid. -/
def sidePayment : List Move :=
  [raceStep 2 (.prices (.ok [])), raceStep 2 (.method (.ok .card)),
    raceStep 2 (.charge (.ok ⟨⟨11#128⟩⟩)), raceStep 2 (.prices (.ok []))]

/-- The other order is cancelled. -/
def sideCancellation : List Move :=
  [raceStep 3 (.prices (.ok [])), raceStep 3 (.prices (.ok []))]

end Floor

/-- Of two orders that are placed at the same time one is paid and the other one cancelled. The payment
comes to its result alone, and the two may change places. -/
theorem orders_isolated_sideBySide :
    let keep : Nat → Bool := fun i => i % 2 = 0
    let f := (Floor.opening .empty).run Floor.sideBySide
    let moves := Floor.sideBySide ++ Floor.sidePayment ++ Floor.sideCancellation
    let g := (Floor.opening .empty).run ((Floor.opening .empty).kept keep moves)
    (∃ k, g.jobs[1]? = some k ∧ k.command = .pay Floor.raceOrder "CARD" ∧
        k.call = .succeeded (.paid ⟨⟨11#128⟩⟩)) ∧
      g.store.size = 1 ∧
      (f.run (Floor.sidePayment ++ Floor.sideCancellation)).calls =
        (f.run (Floor.sideCancellation ++ Floor.sidePayment)).calls := by
  intro keep f moves g
  obtain ⟨hkept, -, -⟩ := orders_isolated .empty moves
  obtain ⟨hjobs, -, -⟩ := hkept Floor.raceOrder keep (by decide)
  obtain ⟨-, -, hcomm⟩ := orders_isolated .empty Floor.sideBySide
  refine ⟨hjobs 2 _ rfl rfl, by decide, ?_⟩
  refine (hcomm 2 3 Floor.sidePayment Floor.sideCancellation (by decide)
    (by simp [Floor.sidePayment, Floor.raceStep, Move.IsOf])
    (by simp [Floor.sideCancellation, Floor.raceStep, Move.IsOf]) ?_).1
  intro id hpaid hcancelled
  have hid : some Floor.raceOrder = some id := hpaid
  have hid' : some Floor.sideOrder = some id := hcancelled
  exact absurd (hid.trans hid'.symm) (by decide)

end OrderDesk
