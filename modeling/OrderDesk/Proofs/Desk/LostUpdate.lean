/-
# No lost update

A write that expects the version of an earlier read is accepted only if nothing was written in between,
and then it replaces the very record that was read. Of several writes that expect the version of one
read, the first to come is accepted, unless some other write came first, and all others are refused with
the version that they expected and the one that they found.
-/
import OrderDesk.Proofs.Desk.Copies

namespace OrderDesk

/-- An action that writes the record of a copy, and expects the version of that copy. -/
def StoreAction.RestsOn (a : StoreAction) (r : Order) : Prop :=
  ∃ o, a.write? = some (o, some r.version) ∧ o.id = r.id

namespace Store

/-- The stored version is that of an earlier read exactly if nothing was written in between. -/
theorem versionOf_after_eq_iff {s : Store} {actions : List StoreAction} {r : Order}
    (hs : s.SmallAlong actions) (hr : s.get? r.id = some r) :
    (s.after actions).versionOf r.id = r.version ↔ ∀ w ∈ s.journal actions, w.id ≠ r.id := by
  have hage := age_after hs r.id
  have hr' : s.age r.id = r.version.number.toNat := by rw [age, versionOf_of_get? hr]
  constructor
  · intro hv w hw hid
    have hpos : 0 < (s.journal actions).countP (fun o => o.id = r.id) :=
      List.countP_pos_iff.2 ⟨w, hw, by simpa using hid⟩
    rw [age, hv] at hage
    omega
  · intro h
    rw [versionOf_of_get? ((get?_after h).trans hr)]

/-- The stored version is later than that of an earlier read once something was written. -/
theorem version_lt_of_mem_journal {s : Store} {actions : List StoreAction} {r w : Order}
    (hs : s.SmallAlong actions) (hr : s.get? r.id = some r) (hw : w ∈ s.journal actions)
    (hid : w.id = r.id) : r.version < (s.after actions).versionOf r.id := by
  have hage := age_after hs r.id
  have hr' : s.age r.id = r.version.number.toNat := by rw [age, versionOf_of_get? hr]
  have hpos : 0 < (s.journal actions).countP (fun o => o.id = r.id) :=
    List.countP_pos_iff.2 ⟨w, hw, by simpa using hid⟩
  rw [Version.lt_iff_toNat_lt]
  rw [age] at hage
  omega

/-- What is told to a writer who rests on an earlier read. -/
theorem reply_of_restsOn {s : Store} {a : StoreAction} {r : Order} (ha : a.RestsOn r) :
    (s.act a).2 =
      if s.versionOf r.id = r.version then .written (.ok r.version.next)
      else .written (.error (.conflict r.id r.version (s.versionOf r.id))) := by
  obtain ⟨o, hw, hid⟩ := ha
  rw [reply_of_write? hw, hid]

/-- A writer who rests on an earlier read is accepted exactly if nothing was written since. -/
theorem accepted_iff_of_restsOn {s : Store} {actions : List StoreAction} {r : Order}
    {a : StoreAction} (hs : s.SmallAlong actions) (hr : s.get? r.id = some r) (ha : a.RestsOn r) :
    (∃ v, ((s.after actions).act a).2 = .written (.ok v)) ↔
      ∀ w ∈ s.journal actions, w.id ≠ r.id := by
  rw [← versionOf_after_eq_iff hs hr, reply_of_restsOn ha]
  constructor
  · rintro ⟨v, hv⟩
    split at hv
    · assumption
    · cases hv
  · intro hv
    exact ⟨_, if_pos hv⟩

/-- A writer who rests on an earlier read and comes too late is told both versions. -/
theorem refused_of_restsOn {s : Store} {actions : List StoreAction} {r w : Order}
    {a : StoreAction} (hs : s.SmallAlong actions) (hr : s.get? r.id = some r) (ha : a.RestsOn r)
    (hw : w ∈ s.journal actions) (hid : w.id = r.id) :
    ((s.after actions).act a).2 =
        .written (.error (.conflict r.id r.version ((s.after actions).versionOf r.id))) ∧
      r.version < (s.after actions).versionOf r.id := by
  refine ⟨?_, version_lt_of_mem_journal hs hr hw hid⟩
  rw [reply_of_restsOn ha, if_neg]
  intro hv
  exact (versionOf_after_eq_iff hs hr).1 hv w hw hid

theorem journal_append (s : Store) (xs ys : List StoreAction) :
    s.journal (xs ++ ys) = s.journal xs ++ (s.after xs).journal ys := by
  induction xs generalizing s with
  | nil => rfl
  | cons a rest ih => simp only [List.cons_append, journal, after, ih, List.append_assoc]

/-- Of two writers who rest on one read, the record is written before the second one comes. -/
theorem exists_mem_journal_of_restsOn {s : Store} {actions : List StoreAction} {r : Order}
    {k : Nat} {a : StoreAction} (hs : s.SmallAlong actions) (hr : s.get? r.id = some r)
    (hk : actions[k]? = some a) (ha : a.RestsOn r) : ∃ w ∈ s.journal actions, w.id = r.id := by
  obtain ⟨hlt, rfl⟩ := List.getElem?_eq_some_iff.1 hk
  have hsplit : actions = actions.take k ++ actions[k] :: actions.drop (k + 1) := by
    rw [List.getElem_cons_drop, List.take_append_drop]
  -- if nothing was written before the first of the two, that one is accepted itself
  by_cases hbefore : ∀ w ∈ s.journal (actions.take k), w.id ≠ r.id
  · obtain ⟨o, hw, hid⟩ := ha
    have hs' : s.SmallAlong (actions.take k) := by
      rw [hsplit] at hs
      exact (smallAlong_append hs).1
    have hv := (versionOf_after_eq_iff hs' hr).2 hbefore
    have hentry : (s.after (actions.take k)).written? actions[k] =
        some (o.withVersion r.version.next) := by
      rw [written?_of_write? hw, if_pos]
      · rw [hid, hv]
      · intro v hv'
        rw [hid, hv]
        exact Option.some.inj hv'
    refine ⟨o.withVersion r.version.next, ?_, hid⟩
    rw [hsplit, journal_append, journal, hentry]
    simp
  · simp only [ne_eq, Classical.not_forall, Classical.not_not] at hbefore
    obtain ⟨w, hw, hid⟩ := hbefore
    refine ⟨w, ?_, hid⟩
    rw [hsplit, journal_append]
    exact List.mem_append_left _ hw

end Store

/-- A write that rests on a read is accepted only if nothing was written since, and replaces the record
that was read; of several the first is accepted, unless another write came first, and every later one is
told both versions. A job that pays or cancels writes over the one record that it read, whatever others
write meanwhile. -/
theorem no_lost_update :
    (∀ (before actions : List StoreAction) (id : OrderId) (r : Order),
      Store.empty.SmallAlong (before ++ actions) → (Store.empty.after before).get id = .ok r →
      let s := Store.empty.after before
      (∀ k a, actions[k]? = some a → a.RestsOn r →
        let t := s.after (actions.take k)
        ((∃ v, (t.act a).2 = .written (.ok v)) → t.get? id = some r) ∧
          ((∃ v, (t.act a).2 = .written (.ok v)) ↔ ∀ w ∈ s.journal (actions.take k), w.id ≠ id) ∧
          ((¬∃ v, (t.act a).2 = .written (.ok v)) →
            (t.act a).2 = .written (.error (.conflict id r.version (t.versionOf id))) ∧
              r.version < t.versionOf id)) ∧
      ∀ k l a b, k < l → actions[k]? = some a → actions[l]? = some b → a.RestsOn r → b.RestsOn r →
        let t := s.after (actions.take l)
        (t.act b).2 = .written (.error (.conflict id r.version (t.versionOf id))) ∧
          r.version < t.versionOf id) ∧
    (∀ (moves : List Move) (i : Nat) (draw : Draw) (outside : Answer) (j k : Job) (w : Order),
      (Floor.opening .empty).SmallAlong moves →
      let f := (Floor.opening .empty).run moves
      let g := f.advance i draw outside
      f.jobs[i]? = some j → g.jobs[i]? = some k → k.writes = j.writes ++ [w] →
      ((∃ id requested, j.command = .pay id requested) ∨ ∃ id, j.command = .cancel id) →
      ∃ r, j.reads = [r] ∧ f.store.get? w.id = some r ∧ g.store.get? w.id = some w) := by
  constructor
  · intro before actions id r hsmall hread s
    have hr : s.get? id = some r := Store.get_eq_ok_iff.1 hread
    obtain rfl : r.id = id := Store.id_of_get? hr
    constructor
    · intro k a _ ha t
      have hs : s.SmallAlong (actions.take k) := hsmall.take k
      have haccepted := Store.accepted_iff_of_restsOn hs hr ha
      refine ⟨fun h => (Store.get?_after (haccepted.1 h)).trans hr, haccepted, fun h => ?_⟩
      rw [haccepted] at h
      simp only [ne_eq, Classical.not_forall, Classical.not_not] at h
      obtain ⟨w, hw, hid⟩ := h
      exact Store.refused_of_restsOn hs hr ha hw hid
    · intro k l a b hkl hk _ ha hb t
      have hs : s.SmallAlong (actions.take l) := hsmall.take l
      have hk' : (actions.take l)[k]? = some a := by
        rw [List.getElem?_take_of_lt hkl, hk]
      obtain ⟨w, hw, hid⟩ := Store.exists_mem_journal_of_restsOn hs hr hk' ha
      exact Store.refused_of_restsOn hs hr hb hw hid
  · intro moves i draw outside j k w hsmall f g hj hk hwrites hcommand
    rcases Floor.advance_cases f i draw outside with hsame | ⟨j', x, hturn, -⟩
    · -- a job that did not go on has not written anything new
      have hjk : j = k := Option.some.inj (hj.symm.trans (hsame ▸ hk))
      rw [hjk] at hwrites
      simpa using congrArg List.length hwrites
    · obtain rfl : j' = j := Option.some.inj (hturn.job.symm.trans hj)
      obtain rfl := Option.some.inj (hturn.job_after.symm.trans hk)
      have hw : x.written? = some w := by
        rw [Job.writes_next, List.append_cancel_left_eq] at hwrites
        exact Option.toList_eq_singleton_iff.1 hwrites
      have hcreate : ∀ user parts, j'.command ≠ .create user parts := by
        rcases hcommand with ⟨id, requested, h⟩ | ⟨id, h⟩ <;> simp [h]
      have hcourse := Floor.course_run .empty moves j' hturn.mem
      have hholds := Floor.holds_run hsmall (Floor.holds_opening .empty)
      obtain ⟨r, hreads, -, hget⟩ := hturn.replaces hcourse hholds hw hcreate
      refine ⟨r, hreads, hget, ?_⟩
      rw [hturn.store_of_some hw, Store.get?_set, if_pos rfl]

/-- What is asked of a store that holds the record of the race: two updates rest on one read, and
between them somebody writes without expecting anything. -/
def Floor.raceActions : List StoreAction :=
  [.get raceOrder, .update raceRecord, .put raceRecord none, .update raceRecord]

/-- Of the two updates the first is accepted and the second refused; and the first payment of the race
writes over the record that all three calls read. -/
theorem no_lost_update_race :
    let s := Store.empty.after [.insertNew Floor.raceRecord]
    let t := s.after (Floor.raceActions.take 3)
    let f := (Floor.opening .empty).run (Floor.race.take 13)
    let g := f.advance 1 Floor.raceDraw (.prices (.ok []))
    (s.after (Floor.raceActions.take 1)).get? Floor.raceOrder = some Floor.raceRecord ∧
      ((t.act (.update Floor.raceRecord)).2 =
          .written (.error (.conflict Floor.raceOrder .first (t.versionOf Floor.raceOrder))) ∧
        Version.first < t.versionOf Floor.raceOrder) ∧
      ∃ r, (f.jobs.get ⟨1, by decide⟩).reads = [r] ∧ f.store.get? Floor.raceOrder = some r ∧
        g.store.get? Floor.raceOrder = some Floor.racePaid := by
  intro s t f g
  have hupdate : (StoreAction.update Floor.raceRecord).RestsOn Floor.raceRecord :=
    ⟨Floor.raceRecord, rfl, rfl⟩
  obtain ⟨hone, htwo⟩ := no_lost_update.1 [.insertNew Floor.raceRecord] Floor.raceActions
    Floor.raceOrder Floor.raceRecord (by decide) rfl
  refine ⟨(hone 1 (.update Floor.raceRecord) rfl hupdate).1 ⟨_, rfl⟩,
    htwo 1 3 _ _ (by decide) rfl rfl hupdate hupdate, ?_⟩
  exact no_lost_update.2 (Floor.race.take 13) 1 Floor.raceDraw (.prices (.ok []))
    (f.jobs.get ⟨1, by decide⟩) (g.jobs.get ⟨1, by decide⟩) Floor.racePaid (by decide) rfl rfl rfl
    (Or.inl ⟨_, _, rfl⟩)

end OrderDesk
