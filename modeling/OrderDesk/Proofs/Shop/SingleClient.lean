/-
# A client on its own

A client that nobody else interferes with. It acts at most six times and waits for a service at most once,
so it is done well within the actions and the rounds that it is allowed.

* `Stage.left` : how many actions a client has left at most;
* `Stage.rounds` : how many rounds it has left at most;
* `Shop.Acts` : the four things that an action can do;
* `Shop.serve_keeps` : a client on its own comes to its end, and what all its actions keep holds there.
-/
import OrderDesk.Desk.Schedule
import OrderDesk.Proofs.Shop.Hall

namespace OrderDesk

/-! ## What a call has left -/

namespace Call

/-- How many actions a call has left at most. A service that is asked takes one more for its answer. -/
def left : Call → Nat
  | finished _ => 0
  | inserting _ | loading _ | updatingPaid .. | updatingCancelled _ => 1
  | cancelling _ => 2
  | pricing .. | charging .. => 3
  | choosing .. => 4
  | checking .. => 5

/-- How many services a call has left to ask at most. -/
def waits : Call → Nat
  | pricing .. | checking .. | choosing .. | charging .. => 1
  | _ => 0

/-- What asking a service adds to a step. -/
def extra (c : Call) : Nat :=
  if c.consults then 1 else 0

/-- Every exchange leaves a call less to do. -/
theorem Passes.fewer {c d : Call} {x : Exchange} (h : c.Passes x d) :
    d.left + c.extra < c.left ∧ d.waits + c.extra ≤ c.waits := by
  cases h with
  | notFound hn => cases c <;> cases hn <;> simp [left, waits, extra, consults, need]
  | conflict hn => cases c <;> cases hn <;> simp [left, waits, extra, consults, need]
  | _ => simp [left, waits, extra, consults, need]

/-- A call that asks a service is answered next, and then writes at most once. -/
theorem left_of_consults {c : Call} (h : c.consults = true) :
    c.left = 3 ∧ c.waits = 1 ∧ c.extra = 1 := by
  refine ⟨?_, ?_, if_pos h⟩
  all_goals
    rcases need_of_consults h with ⟨ids, hn⟩ | ⟨user, order, m, hn⟩ <;> cases c <;> cases hn <;> rfl

theorem left_start (command : Command) : (start command).left ≤ 5 ∧ (start command).waits ≤ 1 := by
  cases command with
  | create user parts => by_cases hparts : parts = [] <;> simp [start, hparts, left, waits]
  | _ => simp [start, left, waits]

end Call

/-! ## What a client has left -/

namespace Stage

/-- Clients that are at work need something, and those that wait need a service. -/
def Apt : Stage → Prop
  | ready c => c.need ≠ none
  | delivering c _ | expiring c _ => c.consults = true
  | _ => True

/-- How many actions a client has left at most. -/
def left : Stage → Nat
  | arriving _ => 6
  | ready c => c.left
  | delivering c _ | expiring c _ => c.left - 1
  | finished .. => 0

/-- How many rounds a client has left at most: one more for every wait. -/
def rounds : Stage → Nat
  | arriving _ => 2
  | ready c => 1 + c.waits
  | delivering .. | expiring .. => 1
  | finished .. => 0

/-- The call of a client that is at work, and whether it waits for a service. -/
def call? : Stage → Option (Call × Bool)
  | ready c => some (c, false)
  | delivering c _ | expiring c _ => some (c, true)
  | _ => none

theorem left_le (stage : Stage) : stage.left ≤ 6 := by
  have hcall : ∀ c : Call, c.left ≤ 5 := by
    intro c
    cases c <;> simp [Call.left]
  cases stage with
  | arriving activity => exact Nat.le_refl 6
  | ready c => exact Nat.le_succ_of_le (hcall c)
  | delivering c t => exact Nat.le_trans (Nat.sub_le _ _) (Nat.le_succ_of_le (hcall c))
  | expiring c limit => exact Nat.le_trans (Nat.sub_le _ _) (Nat.le_succ_of_le (hcall c))
  | finished outcome desk => exact Nat.zero_le 6

theorem isFinished_of_left {stage : Stage} (hapt : stage.Apt) (h : stage.left = 0) :
    stage.isFinished = true := by
  cases stage with
  | arriving activity => cases h
  | ready c => cases c <;> first | exact absurd rfl hapt | cases h
  | delivering c t =>
      have hleft := (Call.left_of_consults hapt).1
      change c.left - 1 = 0 at h
      omega
  | expiring c limit =>
      have hleft := (Call.left_of_consults hapt).1
      change c.left - 1 = 0 at h
      omega
  | finished outcome desk => rfl

theorem rounds_pos {stage : Stage} (h : stage.isFinished = false) : 0 < stage.rounds := by
  cases stage with
  | arriving activity => exact Nat.two_pos
  | ready c => exact Nat.lt_of_lt_of_le Nat.one_pos (Nat.le_add_right 1 _)
  | delivering c t => exact Nat.one_pos
  | expiring c limit => exact Nat.one_pos
  | finished outcome desk => cases h

theorem rounds_of_isFinished {stage : Stage} (h : stage.isFinished = true) : stage.rounds = 0 := by
  cases stage <;> first | rfl | cases h

end Stage

namespace Shop

/-- A call that goes on is at its end, or it is ready for more. -/
theorem goOn_cases (s : Shop) (now : Nat) (c : Call) :
    (∃ o, c = .finished o ∧ s.goOn now c = (s, ⟨now, .finished (some o) s.desk⟩)) ∨
      (c.need ≠ none ∧ s.goOn now c = (s, ⟨now, .ready c⟩)) := by
  cases c with
  | finished o => exact Or.inl ⟨o, rfl, rfl⟩
  | _ => exact Or.inr ⟨by simp [Call.need], rfl⟩

/-- A service that answers lets the call go on in the shop as it is by then. -/
theorem deliver_eq {s : Shop} {c : Call} {t : Ticket} (h : c.consults = true) :
    s.deliver c t = (s.delivery c t).1.step c (s.delivery c t).2 := by
  rcases Call.need_of_consults h with ⟨ids, hn⟩ | ⟨user, order, m, hn⟩ <;>
    simp only [deliver, delivery, hn]

theorem desk_delivery (s : Shop) (c : Call) (t : Ticket) : (s.delivery c t).1.desk = s.desk := by
  unfold delivery
  split <;> rfl

theorem consults_of_consult? {s shop : Shop} {c : Call} {t : Ticket}
    (h : s.consult? c = some (shop, t)) : c.consults = true ∧ shop.desk = s.desk := by
  unfold consult? at h
  split at h
  · rename_i ids hn
    cases h
    exact ⟨by simp [Call.consults, hn], rfl⟩
  · rename_i user order m hn
    cases h
    exact ⟨by simp [Call.consults, hn], rfl⟩
  · cases h

theorem consult?_eq_none {s : Shop} {c : Call} (h : s.consult? c = none) : c.consults = false := by
  rw [Bool.eq_false_iff]
  intro hconsults
  rcases Call.need_of_consults hconsults with ⟨ids, hn⟩ | ⟨user, order, m, hn⟩ <;>
    simp [consult?, hn] at h

/-- The four things that an action of a client can do. -/
inductive Acts (s : Shop) (now : Nat) : Stage → Shop × Client → Prop
  /-- The client looks at the desk. -/
  | looks : Acts s now (.arriving .look) (s, ⟨now, .finished none s.desk⟩)
  /-- The client gives its command. -/
  | asks (command : Command) :
      Acts s now (.arriving (.command command))
        ((s.start command).1.goOn now (s.start command).2)
  /-- The client asks a service, and waits. -/
  | consults {c : Call} {shop : Shop} (t : Ticket) : c.consults = true → shop.desk = s.desk →
      Acts s now (.ready c) (shop, wait shop.deadline now c t)
  /-- The call of the client goes on by one need. -/
  | steps {stage : Stage} {c : Call} {n : Need} {shop : Shop} {outside : Answer} :
      stage.call? = some (c, c.consults) → c.need = some n → shop.desk = s.desk →
      n.takes (shop.desk.serve n outside).2 = true →
      Acts s now stage ((shop.step c outside).1.goOn now (shop.step c outside).2)

/-- An action of a client that is not done does one of these things. -/
theorem acts {s : Shop} {now : Nat} {v : Client} (hapt : v.stage.Apt)
    (hopen : v.stage.isFinished = false) : Acts s now v.stage (s.act now v) := by
  obtain ⟨due, stage⟩ := v
  cases stage with
  | arriving activity =>
      cases activity with
      | look => exact .looks
      | command command => exact .asks command
  | ready c =>
      cases hconsult : s.consult? c with
      | some told =>
          obtain ⟨shop, t⟩ := told
          obtain ⟨hconsults, hdesk⟩ := consults_of_consult? hconsult
          have hact : s.act now ⟨due, .ready c⟩ = (shop, wait shop.deadline now c t) := by
            simp only [act, hconsult]
          rw [hact]
          exact .consults t hconsults hdesk
      | none =>
          have hno : c.consults = false := consult?_eq_none hconsult
          obtain ⟨n, hn⟩ := Option.ne_none_iff_exists'.1 hapt
          have hact : s.act now ⟨due, .ready c⟩ =
              (s.step c (known c)).1.goOn now (s.step c (known c)).2 := by
            simp only [act, hconsult]
            rfl
          rw [hact]
          exact .steps (by rw [hno]; rfl) hn rfl (takes_known hn hno)
  | delivering c t =>
      have hconsults : c.consults = true := hapt
      obtain ⟨n, hn, htakes⟩ : ∃ n, c.need = some n ∧
          n.takes ((s.delivery c t).1.desk.serve n (s.delivery c t).2).2 = true := by
        rcases Call.need_of_consults hconsults with ⟨ids, hn⟩ | ⟨user, order, m, hn⟩ <;>
          exact ⟨_, hn, by simp [delivery, hn, Desk.serve, Need.takes]⟩
      have hact : s.act now ⟨due, .delivering c t⟩ =
          ((s.delivery c t).1.step c (s.delivery c t).2).1.goOn now
            ((s.delivery c t).1.step c (s.delivery c t).2).2 := by
        simp only [act, deliver_eq hconsults]
      rw [hact]
      exact .steps (by rw [hconsults]; rfl) hn (desk_delivery s c t) htakes
  | expiring c limit =>
      have hconsults : c.consults = true := hapt
      obtain ⟨n, hn, htakes⟩ : ∃ n, c.need = some n ∧
          n.takes (s.desk.serve n (expiry c limit)).2 = true := by
        rcases Call.need_of_consults hconsults with ⟨ids, hn⟩ | ⟨user, order, m, hn⟩ <;>
          exact ⟨_, hn, by simp [expiry, hn, Desk.serve, Need.takes]⟩
      have hact : s.act now ⟨due, .expiring c limit⟩ =
          (s.step c (expiry c limit)).1.goOn now (s.step c (expiry c limit)).2 := by
        simp only [act, expire_eq hconsults]
      rw [hact]
      exact .steps (by rw [hconsults]; rfl) hn rfl htakes
  | finished outcome desk => cases hopen

/-! ## A client comes to its end -/

/-- What a client has left after an action: it is still apt, it has fewer actions left, and one round less
if it waits. -/
structure Progress (now : Nat) (stage : Stage) (v : Client) : Prop where
  apt : v.stage.Apt
  left : v.stage.left < stage.left
  rounds : v.stage.rounds ≤ stage.rounds
  waits : now < v.due → v.stage.rounds < stage.rounds

/-- A call that goes on leaves its client less to do. -/
theorem progress_goOn {s : Shop} {now : Nat} {stage : Stage} {c : Call} (hleft : c.left < stage.left)
    (hrounds : 1 + c.waits ≤ stage.rounds) : Progress now stage (s.goOn now c).2 := by
  rcases goOn_cases s now c with ⟨o, rfl, hgoOn⟩ | ⟨hneed, hgoOn⟩
  · rw [hgoOn]
    exact ⟨trivial, hleft, Nat.zero_le _, fun h => absurd h (Nat.lt_irrefl now)⟩
  · rw [hgoOn]
    exact ⟨hneed, hleft, hrounds, fun h => absurd h (Nat.lt_irrefl now)⟩

/-- A client that waits for a service will not wait again. -/
theorem progress_wait {deadline : Option Span} {now : Nat} {c : Call} {t : Ticket}
    (hc : c.consults = true) : Progress now (.ready c) (wait deadline now c t) := by
  obtain ⟨hleft, hwaits, -⟩ := Call.left_of_consults hc
  have hfewer : c.left - 1 < c.left ∧ 1 < 1 + c.waits := by omega
  unfold wait
  repeat' split
  all_goals exact ⟨hc, hfewer.1, Nat.le_of_lt hfewer.2, fun _ => hfewer.2⟩

/-- A client that is answered by a service does not wait again. -/
theorem progress_answered {s : Shop} {now : Nat} {stage : Stage} {c next : Call}
    (hstage : stage.left = c.left - 1 ∧ stage.rounds = 1) (hc : c.consults = true)
    (hfewer : next.left + c.extra < c.left ∧ next.waits + c.extra ≤ c.waits) :
    Progress now stage (s.goOn now next).2 := by
  obtain ⟨hleft, hwaits, hextra⟩ := Call.left_of_consults hc
  apply progress_goOn <;> omega

theorem Acts.progress {s : Shop} {now : Nat} {stage : Stage} {result : Shop × Client}
    (h : Acts s now stage result) : Progress now stage result.2 := by
  cases h with
  | looks =>
      exact ⟨trivial, Nat.zero_lt_succ 5, Nat.zero_le 2, fun h => absurd h (Nat.lt_irrefl now)⟩
  | asks command =>
      obtain ⟨hleft, hwaits⟩ := Call.left_start command
      apply progress_goOn
      · change (Call.start command).left < 6
        omega
      · change 1 + (Call.start command).waits ≤ 2
        omega
  | consults t hc hdesk => exact progress_wait hc
  | @steps stage c n shop outside hcall hn hdesk htakes =>
      have hfewer := (Desk.passes_step hn shop.draw htakes).fewer
      cases stage with
      | ready d =>
          obtain ⟨rfl, hno⟩ : d = c ∧ false = c.consults := by simpa [Stage.call?] using hcall
          have hextra : d.extra = 0 := if_neg (by simp [← hno])
          rw [hextra] at hfewer
          exact progress_goOn hfewer.1 (Nat.add_le_add_left hfewer.2 1)
      | delivering d t =>
          obtain ⟨rfl, hconsults⟩ : d = c ∧ true = c.consults := by simpa [Stage.call?] using hcall
          exact progress_answered ⟨rfl, rfl⟩ hconsults.symm hfewer
      | expiring d limit =>
          obtain ⟨rfl, hconsults⟩ : d = c ∧ true = c.consults := by simpa [Stage.call?] using hcall
          exact progress_answered ⟨rfl, rfl⟩ hconsults.symm hfewer
      | arriving activity => cases hcall
      | finished outcome desk => cases hcall

/-- An action ends now, or at the end of the wait that it begins. -/
theorem Acts.due {s : Shop} {now : Nat} {stage : Stage} {result : Shop × Client}
    (h : Acts s now stage result) :
    now ≤ result.2.due ∧ (result.2.stage.isFinished = true → result.2.due = now) := by
  have hgoOn : ∀ (shop : Shop) (c : Call), (shop.goOn now c).2.due = now := by
    intro shop c
    unfold goOn
    split <;> rfl
  cases h with
  | looks => exact ⟨Nat.le_refl now, fun _ => rfl⟩
  | asks command => exact ⟨Nat.le_of_eq (hgoOn _ _).symm, fun _ => hgoOn _ _⟩
  | @consults c shop t hc hdesk =>
      simp only [wait]
      repeat' split
      all_goals exact ⟨Nat.le_add_right _ _, fun hover => by cases hover⟩
  | steps hcall hn hdesk htakes => exact ⟨Nat.le_of_eq (hgoOn _ _).symm, fun _ => hgoOn _ _⟩

section Alone

variable {p : Shop → Client → Prop}

/-- What every action of a client that is due keeps. -/
def Keeps (p : Shop → Client → Prop) : Prop :=
  ∀ (s : Shop) (v : Client), v.stage.Apt → v.stage.isFinished = false → p s v →
    p (s.act v.due v).1 (s.act v.due v).2

/-- What a client has left when it has gone on as long as it may: it is done or waits, with fewer rounds
left if it was due. -/
structure Rested (now : Nat) (v w : Client) : Prop where
  apt : w.stage.Apt
  stops : w.stage.isFinished = true ∨ now < w.due
  ended : w.stage.isFinished = true → w.due = now
  rounds : w.stage.rounds ≤ v.stage.rounds
  fewer : v.stage.isFinished = false → v.due ≤ now → w.stage.rounds < v.stage.rounds

theorem actAll_alone (hkeeps : Keeps p) {now left : Nat} {s : Shop} {v : Client} (hapt : v.stage.Apt)
    (hleft : v.stage.left ≤ left) (hdue : now ≤ v.due)
    (hover : v.stage.isFinished = true → v.due = now) (hp : p s v) :
    p (actAll now left s v).1 (actAll now left s v).2 ∧ Rested now v (actAll now left s v).2 := by
  induction left generalizing s v with
  | zero =>
      have hend : v.stage.isFinished = true :=
        Stage.isFinished_of_left hapt (Nat.le_zero.1 hleft)
      refine ⟨hp, hapt, Or.inl hend, hover, Nat.le_refl _, fun hopen => ?_⟩
      rw [hend] at hopen
      cases hopen
  | succ left ih =>
      unfold actAll
      by_cases hstop : v.stage.isFinished = true ∨ now < v.due
      · rw [if_pos hstop]
        refine ⟨hp, hapt, hstop, hover, Nat.le_refl _, fun hopen hnow => ?_⟩
        rcases hstop with hend | hwaits
        · rw [hopen] at hend
          cases hend
        · exact absurd hnow (Nat.not_le.2 hwaits)
      · rw [if_neg hstop]
        obtain ⟨hopen, hnow⟩ := not_or.1 hstop
        rw [Bool.not_eq_true] at hopen
        obtain rfl : v.due = now := Nat.le_antisymm (Nat.not_lt.1 hnow) hdue
        have hacts : Acts s v.due v.stage (s.act v.due v) := acts hapt hopen
        have hprogress := hacts.progress
        have hfewer := hprogress.left
        obtain ⟨hdue', hover'⟩ := hacts.due
        obtain ⟨hp', hrested⟩ :=
          ih hprogress.apt (by omega) hdue' hover' (hkeeps s v hapt hopen hp)
        refine ⟨hp', hrested.apt, hrested.stops, hrested.ended,
          Nat.le_trans hrested.rounds hprogress.rounds, fun _ _ => ?_⟩
        -- the next action is the last one of this round, or one of those that follow
        rcases hend : (s.act v.due v).2.stage.isFinished with - | -
        · rcases Nat.lt_or_ge v.due (s.act v.due v).2.due with hwaits | hagain
          · exact Nat.lt_of_le_of_lt hrested.rounds (hprogress.waits hwaits)
          · exact Nat.lt_of_lt_of_le (hrested.fewer hend hagain) hprogress.rounds
        · have hle := hrested.rounds
          rw [Stage.rounds_of_isFinished hend] at hle
          exact Nat.lt_of_le_of_lt hle (Stage.rounds_pos hopen)

theorem exists_finished {v : Client} (h : v.stage.isFinished = true) :
    ∃ due outcome desk, v = ⟨due, .finished outcome desk⟩ := by
  obtain ⟨due, stage⟩ := v
  cases stage with
  | finished outcome desk => exact ⟨due, outcome, desk, rfl⟩
  | _ => cases h

/-- Round after round, a client on its own comes to its end, and the last round is at that time. -/
theorem rounds_alone (hkeeps : Keeps p) {now left : Nat} {s : Shop} {v : Client} (hapt : v.stage.Apt)
    (hleft : v.stage.rounds ≤ left) (hover : v.stage.isFinished = true → v.due = now) (hp : p s v) :
    ∃ after time outcome desk,
      s.rounds now [v] left = (after, time, [⟨time, .finished outcome desk⟩]) ∧
        p after ⟨time, .finished outcome desk⟩ := by
  induction left generalizing s now v with
  | zero =>
      have hend : v.stage.isFinished = true := by
        cases hend : v.stage.isFinished with
        | true => rfl
        | false =>
            have hpos := Stage.rounds_pos hend
            omega
      obtain ⟨due, outcome, desk, rfl⟩ := exists_finished hend
      obtain rfl : due = now := hover hend
      exact ⟨s, due, outcome, desk, rfl, hp⟩
  | succ left ih =>
      cases hend : v.stage.isFinished with
      | true =>
          obtain ⟨due, outcome, desk, rfl⟩ := exists_finished hend
          obtain rfl : due = now := hover hend
          exact ⟨s, due, outcome, desk, rfl, hp⟩
      | false =>
          have hdue : nextDue? [v] = some v.due := by simp [nextDue?, hend]
          have hround : s.round v.due [v] =
              ((actAll v.due maxActions s v).1, [(actAll v.due maxActions s v).2]) := rfl
          have hactions : v.stage.left ≤ maxActions := Nat.le_trans v.stage.left_le (by decide)
          obtain ⟨hp', hrested⟩ := actAll_alone hkeeps hapt hactions (Nat.le_refl v.due)
            (fun _ => rfl) hp
          have hfewer := hrested.fewer hend (Nat.le_refl _)
          simp only [rounds, hdue, hround]
          exact ih hrested.apt (by omega) hrested.ended hp'

/-- A client that is served on its own comes to its end, and what all its actions keep holds there. -/
theorem serve_keeps (hkeeps : Keeps p) {s : Shop} {activity : Activity}
    (hp : p s ⟨0, .arriving activity⟩) :
    ∃ after time outcome desk,
      s.serve [(0, activity)] = (after, time, [⟨time, .finished outcome desk⟩]) ∧
        p after ⟨time, .finished outcome desk⟩ :=
  rounds_alone hkeeps trivial (by decide : 2 ≤ 3) (fun _ => rfl) hp

end Alone

end Shop

end OrderDesk
