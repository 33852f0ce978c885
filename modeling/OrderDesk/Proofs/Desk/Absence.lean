/-
# Runs without a call

What a run would have been if one of its calls had never been made. A move depends on the store and on
the call that goes on, and on nothing else; so a call that leaves the store alone is not missed. All
others have the same results then, and the same records are written.

* `Floor.left?` : the record that a move leaves in the store;
* `Floor.journal` : the records that a run leaves in the store, the first one first;
* `Floor.calls_advance` : what a call that goes on depends on;
* `Floor.Misses` : a floor on which one call was never made;
* `Floor.misses_run` : a call that does not succeed is not missed.
-/
import OrderDesk.Proofs.Desk.Results

namespace OrderDesk

/-! ## What runs leave in the store -/

namespace Floor

/-- The calls at work, and those that are over. -/
def calls (f : Floor) : List Call :=
  f.jobs.map Job.call

theorem getElem?_calls (f : Floor) (i : Nat) : f.calls[i]? = (f.jobs[i]?).map Job.call :=
  List.getElem?_map

/-- The record that a move leaves in the store, if it is a write that is accepted. -/
def left? (f : Floor) : Move → Option Order
  | .ask _ => none
  | .advance i _ _ =>
      match (f.calls[i]?).bind Call.need with
      | some (.write o v) => f.store.written? (.put o (some v))
      | _ => none
  | .intrude o expected => f.store.written? (.put o expected)

/-- The records that a run leaves in the store, the first one first. -/
def journal (f : Floor) : List Move → List Order
  | [] => []
  | m :: rest => (f.left? m).toList ++ (f.step m).journal rest

theorem journal_append (f : Floor) (xs ys : List Move) :
    f.journal (xs ++ ys) = f.journal xs ++ (f.run xs).journal ys := by
  induction xs generalizing f with
  | nil => rfl
  | cons m rest ih =>
      rw [List.cons_append, journal, ih, journal, List.append_assoc]
      rfl

end Floor

/-- A turn leaves the record that its exchange has written. -/
theorem Turn.left? {f g : Floor} {i : Nat} {j : Job} {x : Exchange} (h : Turn f i j x g) (draw : Draw)
    (outside : Answer) : f.left? (.advance i draw outside) = x.written? := by
  simp only [Floor.left?, Floor.getElem?_calls, h.job, Option.map_some, Option.bind_some, h.need]
  cases hn : x.need with
  | write o v =>
      have hput : (StoreAction.put o (some v)).write? = some (o, some v) := rfl
      simp only [h.written?_of_need hn, Store.written?_of_write? hput]
      by_cases hv : f.store.versionOf o.id = v
      · simp [hv]
      · simp [hv]
  | _ => exact (Exchange.written?_eq_none (by simp [hn])).symm

namespace Floor

/-- A call that is told to go on takes a turn, or nothing happens and nothing is left. -/
theorem idle_or_turn (f : Floor) (i : Nat) (draw : Draw) (outside : Answer) :
    (f.advance i draw outside = f ∧ f.left? (.advance i draw outside) = none) ∨
      ∃ j x, Turn f i j x (f.advance i draw outside) ∧ x.draw = draw := by
  cases hj : f.jobs[i]? with
  | none => exact Or.inl (by simp [advance, left?, getElem?_calls, hj])
  | some j =>
      cases hn : j.call.need with
      | none => exact Or.inl (by simp [advance, left?, getElem?_calls, hj, hn])
      | some n =>
          cases htakes : n.takes (f.desk.serve n outside).2 with
          | true => exact Or.inr ⟨j, _, turn_advance hj hn htakes draw, rfl⟩
          | false =>
              -- the answers of the store are always taken, so this need is no write
              refine Or.inl ⟨by simp [advance, hj, hn, htakes], ?_⟩
              cases n with
              | write o v =>
                  rw [Desk.serve_write] at htakes
                  split at htakes <;> cases htakes
              | _ => simp [left?, getElem?_calls, hj, hn]

/-- A move puts into the store what it leaves there, and nothing else. -/
theorem store_step (f : Floor) (m : Move) :
    (f.step m).store = ((f.left? m).map f.store.set).getD f.store := by
  cases m with
  | ask command => exact store_ask f command
  | intrude o expected =>
      have hput : (f.intrude o expected).store = (f.store.act (.put o expected)).1 := by
        simp only [intrude, Desk.put, Store.act, Store.settle]
        cases f.desk.store.put o expected <;> rfl
      exact hput.trans (Store.act_fst f.store (.put o expected))
  | advance i draw outside =>
      rcases idle_or_turn f i draw outside with ⟨hsame, hleft⟩ | ⟨j, x, ht, -⟩
      · rw [step, hsame, hleft]
        rfl
      · rw [step, ht.left? draw outside]
        exact ht.store

/-- The journal of a run says what has become of the store. -/
theorem store_run (f : Floor) (moves : List Move) :
    (f.run moves).store = (f.journal moves).foldl Store.set f.store := by
  induction moves generalizing f with
  | nil => rfl
  | cons m rest ih =>
      rw [run, ih, journal, List.foldl_append, store_step]
      cases f.left? m <;> rfl

/-- A call that does not succeed in the end leaves nothing. -/
theorem left?_of_not_succeeded {f : Floor} {i : Nat} {draw : Draw} {outside : Answer}
    {later : List Move}
    (h : ∀ j, ((f.advance i draw outside).run later).jobs[i]? = some j → j.succeeded = false) :
    f.left? (.advance i draw outside) = none := by
  rcases idle_or_turn f i draw outside with ⟨-, hleft⟩ | ⟨j, x, ht, -⟩
  · exact hleft
  · rw [ht.left? draw outside]
    cases hw : x.written? with
    | none => rfl
    | some w =>
        -- an accepted write finishes the call, and a finished call stays as it is
        obtain ⟨receipt, hcall⟩ := resume_of_written? ht.need hw
        have hdone : (j.next x).call.need = none := by
          rw [Job.call_next, hcall]
          rfl
        have hfails := h _ (getElem?_run_of_finished ht.job_after hdone later)
        rw [Job.succeeded_iff.2 ⟨receipt, hcall⟩] at hfails
        cases hfails

end Floor

/-! ## What a call depends on -/

/-- What the store answers depends on its records. -/
theorem Desk.serve_congr {d e : Desk} (h : d.store = e.store) (n : Need) (outside : Answer) :
    (d.serve n outside).2 = (e.serve n outside).2 := by
  cases n with
  | record id => simp [serve, h]
  | write o v =>
      rw [serve_write, serve_write, h]
      split <;> rfl
  | prices ids => rfl
  | method requested => rfl
  | charge user order m => rfl

/-- Where a call goes on to over a store. An answer of another kind than it needs is not taken. -/
def Call.served (c : Call) (s : Store) (draw : Draw) (outside : Answer) : Call :=
  match c.need with
  | none => c
  | some n =>
      let answer := (Desk.serve ⟨s, []⟩ n outside).2
      if n.takes answer then c.resume draw answer else c

namespace Floor

/-- What becomes of a call that goes on depends on itself and the store. -/
theorem calls_advance (f : Floor) (i : Nat) (draw : Draw) (outside : Answer) :
    (f.advance i draw outside).calls = f.calls.modify i (·.served f.store draw outside) := by
  apply List.ext_getElem?
  intro k
  rw [List.getElem?_modify, getElem?_calls, getElem?_calls]
  by_cases hk : i = k
  · subst hk
    cases hj : f.jobs[i]? with
    | none => simp [advance, hj]
    | some j =>
        cases hn : j.call.need with
        | none => simp [advance_of_finished hj hn, hj, Call.served, hn]
        | some n =>
            have hanswer : (Desk.serve ⟨f.store, []⟩ n outside).2 = (f.desk.serve n outside).2 :=
              Desk.serve_congr (d := ⟨f.store, []⟩) (e := f.desk) rfl n outside
            cases htakes : n.takes (f.desk.serve n outside).2 with
            | false => simp [advance, hj, hn, htakes, Call.served, hanswer]
            | true =>
                rw [(turn_advance hj hn htakes draw).job_after]
                simp [Call.served, hn, hanswer, htakes]
  · rw [getElem?_advance_ne hk]
    simp [hk]

end Floor

/-! ## A call that was never made -/

/-- A move of a run from which a call is left out; the calls after that one move up. -/
def Move.without? (i : Nat) : Move → Option Move
  | .advance n draw outside =>
      if n = i then none else some (.advance (if n < i then n else n - 1) draw outside)
  | m => some m

/-- The second floor is the first one on which one call was never made, and is not missed. -/
structure Floor.Misses (f g : Floor) (i : Nat) : Prop where
  made : i < f.calls.length
  store : g.store = f.store
  calls : g.calls = f.calls.eraseIdx i

namespace Floor

variable {f g : Floor} {i : Nat}

theorem calls_ask (f : Floor) (command : Command) :
    (f.step (.ask command)).calls = f.calls ++ [Call.start command] :=
  List.map_append

theorem length_calls (f : Floor) : f.calls.length = f.jobs.length :=
  List.length_map _

/-- A command that was just given is not missed yet. -/
theorem misses_ask (f : Floor) (command : Command) :
    (f.step (.ask command)).Misses f f.jobs.length := by
  refine ⟨?_, (store_ask f command).symm, ?_⟩
  · rw [calls_ask, List.length_append, length_calls]
    exact Nat.lt_succ_self _
  · rw [calls_ask, ← length_calls, List.eraseIdx_append_of_length_le (Nat.le_refl _), Nat.sub_self]
    exact (List.append_nil _).symm

/-- Without a call the others see the same. -/
theorem Misses.getElem?_calls (h : f.Misses g i) {n : Nat} (hn : n ≠ i) :
    g.calls[if n < i then n else n - 1]? = f.calls[n]? := by
  rw [h.calls]
  split
  · rw [List.getElem?_eraseIdx_of_lt (by assumption)]
  · rw [List.getElem?_eraseIdx_of_ge (by omega)]
    congr 1
    omega

theorem Misses.calls_modify (h : f.Misses g i) {n : Nat} (hn : n ≠ i) (p : Call → Call) :
    g.calls.modify (if n < i then n else n - 1) p = (f.calls.modify n p).eraseIdx i := by
  rw [h.calls]
  split
  · rw [List.eraseIdx_modify_of_gt]
    assumption
  · rw [List.eraseIdx_modify_of_lt]
    omega

/-- The other calls go on as they would, and leave the same. -/
theorem misses_step (h : f.Misses g i) {m k : Move} (hk : m.without? i = some k) :
    g.left? k = f.left? m ∧ (f.step m).Misses (g.step k) i := by
  have hstore : g.left? k = f.left? m → (g.step k).store = (f.step m).store := by
    intro hleft
    rw [store_step, store_step, hleft, h.store]
  cases m with
  | ask command =>
      cases hk
      refine ⟨rfl, ?_, hstore rfl, ?_⟩
      · rw [calls_ask, List.length_append]
        exact Nat.lt_add_right _ h.made
      · rw [calls_ask, calls_ask, h.calls, List.eraseIdx_append_of_lt_length h.made]
  | intrude o expected =>
      cases hk
      have hleft : g.left? (.intrude o expected) = f.left? (.intrude o expected) := by
        simp only [left?, h.store]
      exact ⟨hleft, h.made, hstore hleft, h.calls⟩
  | advance n draw outside =>
      by_cases hn : n = i
      · simp [Move.without?, hn] at hk
      · simp only [Move.without?, if_neg hn, Option.some.injEq] at hk
        subst hk
        have hleft : g.left? (.advance (if n < i then n else n - 1) draw outside) =
            f.left? (.advance n draw outside) := by
          simp only [left?, h.getElem?_calls hn, h.store]
        refine ⟨hleft, ?_, hstore hleft, ?_⟩
        · rw [step, calls_advance, List.length_modify]
          exact h.made
        · rw [step, step, calls_advance, calls_advance, h.store, h.calls_modify hn]

/-- A call that leaves nothing in the store goes on without being missed. -/
theorem misses_advance (h : f.Misses g i) {draw : Draw} {outside : Answer}
    (hleft : f.left? (.advance i draw outside) = none) : (f.advance i draw outside).Misses g i := by
  refine ⟨?_, ?_, ?_⟩
  · rw [calls_advance, List.length_modify]
    exact h.made
  · rw [h.store, show f.advance i draw outside = f.step (.advance i draw outside) from rfl, store_step,
      hleft]
    rfl
  · rw [calls_advance, List.eraseIdx_modify_of_eq]
    exact h.calls

/-- A call that does not succeed is not missed in a run: the same records are written without it. -/
theorem misses_run {moves : List Move} (h : f.Misses g i)
    (hno : ∀ j, (f.run moves).jobs[i]? = some j → j.succeeded = false) :
    g.journal (moves.filterMap (·.without? i)) = f.journal moves ∧
      (f.run moves).Misses (g.run (moves.filterMap (·.without? i))) i := by
  induction moves generalizing f g with
  | nil => exact ⟨rfl, h⟩
  | cons m rest ih =>
      cases hk : m.without? i with
      | some k =>
          obtain ⟨hleft, hstep⟩ := misses_step h hk
          obtain ⟨hjournal, hrun⟩ := ih hstep hno
          rw [List.filterMap_cons_some hk]
          refine ⟨?_, hrun⟩
          rw [journal, journal, hleft, hjournal]
      | none =>
          -- the move is one of the call itself
          obtain ⟨draw, outside, rfl⟩ : ∃ draw outside, m = .advance i draw outside := by
            cases m with
            | ask command => cases hk
            | intrude o expected => cases hk
            | advance n draw outside =>
                by_cases hn : n = i
                · exact ⟨draw, outside, by rw [hn]⟩
                · simp [Move.without?, hn] at hk
          have hleft : f.left? (.advance i draw outside) = none := left?_of_not_succeeded hno
          obtain ⟨hjournal, hrun⟩ := ih (misses_advance h hleft) hno
          rw [List.filterMap_cons_none hk]
          refine ⟨?_, hrun⟩
          rw [journal, hleft, hjournal]
          rfl

/-- A job stays, with its command. -/
theorem exists_job_run {command : Command} (h : ∃ j, f.jobs[i]? = some j ∧ j.command = command)
    (moves : List Move) : ∃ j, (f.run moves).jobs[i]? = some j ∧ j.command = command := by
  induction moves generalizing f with
  | nil => exact h
  | cons m rest ih => exact ih (exists_getElem?_step m h fun _ _ _ hj => hj)

end Floor

end OrderDesk
