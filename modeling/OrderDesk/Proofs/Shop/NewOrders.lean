/-
# New orders

What becomes of a command for a new order, whatever others do at the same time and whatever the inventory
answers. The answer decides by its first negative price, then by the parts it leaves out, then by the
exact sum of the rest.

* `Floor.priced_served` : the first occasion, on which the inventory answers;
* `Floor.inserted_served` : the second one, on which the order is written;
* `exact_pricing` : an order is placed exactly if its exact total is an amount.
-/
import OrderDesk.Proofs.Desk.Results
import OrderDesk.Proofs.Desk.Occasions
import OrderDesk.Proofs.Shop.Alone

namespace OrderDesk

namespace Floor

variable {f : Floor} {parts : List PartId} {x y : Occasion}

/-- Once the inventory has answered, a new order stands where the answer leads, and nothing is written.
-/
theorem priced_served (user : UserId) {result : Except GatewayError (List PartSnapshot)}
    (hparts : parts ≠ []) (hx : x.Spares f.jobs.length)
    (hanswer : x.outside = .prices result) :
    ∃ t, (f.served (.create user parts) [x]).jobs[f.jobs.length]? =
        some ⟨.create user parts, Call.afterPrices x.draw user parts result,
          [⟨t, .prices (Pricing.distinct parts), x.draw, .prices result⟩]⟩ ∧
      (f.served (.create user parts) [x]).store =
        ((f.step (.ask (.create user parts))).run x.others).store := by
  have hstart : (f.served (.create user parts) []).jobs[f.jobs.length]? =
      some ⟨.create user parts, .pricing user parts, []⟩ := by
    rw [getElem?_served_nil, Call.start, if_neg hparts]
  obtain ⟨⟨t, hjob⟩, hstore⟩ := told_served hx hstart rfl (fun _ => rfl) (by rw [hanswer]; rfl)
  rw [hanswer] at hjob
  exact ⟨t, hjob, hstore⟩

/-- An order with an unused identifier is written, and its call succeeds. -/
theorem inserted_served {command : Command} {xs : List Occasion} {j : Job} {o : Order}
    (hj : (f.served command xs).jobs[f.jobs.length]? = some j) (hcall : j.call = .inserting o)
    (hy : y.Spares f.jobs.length)
    (hunused : ((f.served command xs).run y.others).store.get? o.id = none) :
    ∃ k, (f.served command (xs ++ [y])).jobs[f.jobs.length]? = some k ∧
      k.call = .succeeded (.created o.id o.total) ∧
      (f.served command (xs ++ [y])).store.get? o.id = some (o.withVersion .first) := by
  have hn : j.call.need = some (.write o .initial) := by rw [hcall]; rfl
  have hversion : ((f.served command xs).run y.others).store.versionOf o.id = .initial := by
    rw [Store.versionOf, hunused]
    rfl
  have hserved : (((f.served command xs).run y.others).desk.serve (.write o .initial) y.outside).2 =
      .written (.ok .first) := by
    rw [Desk.serve_write, if_pos hversion]
    rfl
  have hturn := turn_served hy hj hn (by rw [hserved]; rfl)
  rw [hserved] at hturn
  refine ⟨_, hturn.job_after, ?_, ?_⟩
  · rw [Job.call_next, hcall]
    rfl
  · have hwritten : Exchange.written? ⟨((f.served command xs).run y.others).time, .write o .initial,
        y.draw, .written (.ok .first)⟩ = some (o.withVersion .first) := rfl
    rw [hturn.store_of_some hwritten, Store.get?_set, Order.id_withVersion, if_pos rfl]

end Floor

/-! ## Exact totals -/

/-- On any floor, with any moves of others between its own, and for any answer of the inventory without a
negative price and with one for every part: a command for a new order under an unused identifier, whatever
the order of its parts, succeeds exactly if the exact sum of the last prices answered, over every
occurrence of a part, is at most the largest amount. The total returned and stored is that sum, and the
parts are stored as they were requested. Otherwise it fails for its total, and nothing is written. -/
theorem exact_pricing (f : Floor) (user : UserId) (parts : List PartId)
    (snapshots : List PartSnapshot) (x y : Occasion) (hparts : parts ≠ [])
    (hprices : ∀ p ∈ snapshots, 0 ≤ p.price.cents)
    (hanswered : ∀ id ∈ parts, Pricing.Answered snapshots id)
    (hanswer : x.outside = .prices (.ok snapshots)) (hx : x.Spares f.jobs.length)
    (hy : y.Spares f.jobs.length) :
    let sum := (parts.map (Pricing.lastPrice snapshots)).sum
    ∀ requested : List PartId, requested.Perm parts →
      let command := Command.create user requested
      let before := (f.served command [x]).run y.others
      let after := f.served command [x, y]
      before.store.get? x.draw.id = none →
        ∃ j, after.jobs[f.jobs.length]? = some j ∧
          ((∃ receipt, j.call = .succeeded receipt) ↔ sum ≤ 2 ^ 63 - 1) ∧
          (sum ≤ 2 ^ 63 - 1 →
            ∃ total o, total.cents = sum ∧ j.call = .succeeded (.created x.draw.id total) ∧
              after.store.get? x.draw.id = some o ∧ o.total = total ∧ o.parts = requested) ∧
          (2 ^ 63 - 1 < sum →
            j.call = .failed .totalTooLarge ∧ j.writes = [] ∧ after.store = before.store ∧
              (f.served command [x]).store = ((f.step (.ask command)).run x.others).store) := by
  intro sum requested hperm command before after hunused
  have hne : requested ≠ [] := fun h => hparts (List.nil_perm.1 (h ▸ hperm))
  have hsum : (requested.map (Pricing.lastPrice snapshots)).sum = sum :=
    (hperm.map (Pricing.lastPrice snapshots)).sum_eq
  have htotal : Pricing.total snapshots requested =
      (Money.ofCents? sum).elim (.error .totalTooLarge) .ok := by
    rw [← hsum]
    exact Pricing.total_of_known hprices requested fun id hid => hanswered id (hperm.mem_iff.1 hid)
  have hnonneg : 0 ≤ sum := Pricing.sum_lastPrice_nonneg hprices parts hanswered
  obtain ⟨t, hjob, hstore⟩ := Floor.priced_served user hne hx hanswer
  cases hfits : Money.ofCents? sum with
  | some total =>
      have hcents : total.cents = sum := Money.ofCents?_eq_some_iff.1 hfits
      have hupper := total.cents_le
      have hle : sum ≤ 2 ^ 63 - 1 := by omega
      rw [hfits, Option.elim_some] at htotal
      rw [Call.afterPrices_of_total hne htotal] at hjob
      obtain ⟨k, hk, hcall, hstored⟩ := Floor.inserted_served hjob rfl hy hunused
      refine ⟨k, hk, ⟨fun _ => hle, fun _ => ⟨_, hcall⟩⟩, fun _ => ?_, fun hlt => ?_⟩
      · exact ⟨total, _, hcents, hcall, hstored, rfl, rfl⟩
      · exact absurd hle (Int.not_le.2 hlt)
  | none =>
      have hlt : 2 ^ 63 - 1 < sum := by
        have hout := Money.ofCents?_eq_none_iff.1 hfits
        omega
      rw [hfits, Option.elim_none] at htotal
      rw [Call.afterPrices_of_error htotal] at hjob
      have hafter : after = before := Floor.served_of_finished hjob rfl y
      have hend := Floor.getElem?_run_of_finished hjob rfl y.others
      rw [hafter]
      refine ⟨_, hend, ⟨?_, fun hle => absurd hle (Int.not_le.2 hlt)⟩,
        fun hle => absurd hle (Int.not_le.2 hlt), fun _ => ⟨rfl, rfl, rfl, hstore⟩⟩
      rintro ⟨receipt, hcall⟩
      cases hcall

/-- Three parts, two of them the same. -/
def Floor.basket : List PartId :=
  [⟨⟨2#128⟩⟩, ⟨⟨3#128⟩⟩, ⟨⟨2#128⟩⟩]

/-- Prices for these parts and another one, the second price of a part in the place of the first. -/
def Floor.priceList : List PartSnapshot :=
  [⟨⟨⟨2#128⟩⟩, ⟨100, by decide, by decide⟩⟩, ⟨⟨⟨9#128⟩⟩, ⟨800, by decide, by decide⟩⟩,
    ⟨⟨⟨3#128⟩⟩, ⟨700, by decide, by decide⟩⟩, ⟨⟨⟨2#128⟩⟩, ⟨300, by decide, by decide⟩⟩]

/-- Somebody asks for the order that will be placed, before the inventory answers. -/
def Floor.looked (result : Except GatewayError (List PartSnapshot)) : Occasion :=
  ⟨[.ask (.fetch raceOrder), raceStep 1 (.prices (.ok []))], raceDraw, .prices result⟩

/-- Somebody writes another order. -/
def Floor.elsewhere : Occasion :=
  ⟨[.intrude { raceRecord with id := ⟨⟨8#128⟩⟩ } none], raceDraw, .prices (.ok [])⟩

/-- The basket is placed at the last prices, each as often as it was requested. -/
theorem exact_pricing_basket :
    let after := (Floor.opening .empty).served (.create ⟨⟨1#128⟩⟩ Floor.basket)
      [Floor.looked (.ok Floor.priceList), Floor.elsewhere]
    ∃ j total o, after.jobs[0]? = some j ∧
      j.call = .succeeded (.created Floor.raceOrder total) ∧ total.cents = 1300 ∧
      after.store.get? Floor.raceOrder = some o ∧ o.parts = Floor.basket := by
  intro after
  obtain ⟨j, hj, -, hplaced, -⟩ := exact_pricing (.opening .empty) ⟨⟨1#128⟩⟩ Floor.basket
    Floor.priceList (Floor.looked (.ok Floor.priceList)) Floor.elsewhere (by decide) (by decide)
    (by decide) rfl (by decide) (by decide) Floor.basket (.refl _) rfl
  obtain ⟨total, o, hcents, hcall, hstored, -, hparts⟩ := hplaced (by decide)
  exact ⟨j, total, o, hj, hcall, hcents.trans (by decide), hstored, hparts⟩

/-! ## The order of the checks -/

/-- A command for a new order that goes on waits for its prices, or for the write after them. -/
theorem Underway.of_create {user : UserId} {parts : List PartId} {log : List Exchange} {c : Call}
    (h : Underway (.create user parts) log c) :
    (c = .pricing user parts ∧ log = []) ∨
      ∃ o x, c = .inserting o ∧ log = [x] ∧ x.need = .prices (Pricing.distinct parts) := by
  cases c with
  | pricing u p =>
      obtain ⟨hcommand, hlog⟩ := h
      cases hcommand
      exact Or.inl ⟨rfl, hlog⟩
  | inserting o =>
      obtain ⟨u, p, x, snapshots, total, hcommand, hlog, hneed, -⟩ := h
      cases hcommand
      exact Or.inr ⟨o, x, rfl, hlog, hneed⟩
  | loading id => cases h.1
  | checking id requested => cases h.1
  | choosing r requested =>
      obtain ⟨x, hcommand, -⟩ := h
      cases hcommand
  | charging r m =>
      obtain ⟨requested, x, y, hcommand, -⟩ := h
      cases hcommand
  | updatingPaid o t =>
      obtain ⟨r, m, requested, x, y, z, hcommand, -⟩ := h
      cases hcommand
  | cancelling id => cases h.1
  | updatingCancelled o =>
      obtain ⟨r, x, hcommand, -⟩ := h
      cases hcommand
  | finished o => exact h.elim

/-- A command for a new order asks for prices first, and never again. -/
theorem Course.pricesAsked_create {user : UserId} {parts : List PartId} {log : List Exchange}
    {c : Call} (h : Course (.create user parts) log c) :
    log.filterMap Exchange.pricesAsked? = if log = [] then [] else [Pricing.distinct parts] := by
  induction h with
  | start => rfl
  | @next log c x hbefore hn hx ih =>
      have hne : log ++ [x] ≠ [] := by simp
      rw [if_neg hne, List.filterMap_append, ih]
      rcases (hbefore.underway (by simp [hn])).of_create with ⟨rfl, rfl⟩ | ⟨o, y, rfl, rfl, -⟩
      · have hneed : x.need = .prices (Pricing.distinct parts) := (Option.some.inj hn).symm
        simp [Exchange.pricesAsked?, hneed]
      · have hneed : x.need = .write o .initial := (Option.some.inj hn).symm
        simp [Exchange.pricesAsked?, hneed]

/-- A new order whose prices were answered has had this one exchange. -/
theorem Course.priced {user : UserId} {parts : List PartId} (hparts : parts ≠ []) (t : Nat)
    (draw : Draw) (result : Except GatewayError (List PartSnapshot)) :
    Course (.create user parts)
      [⟨t, .prices (Pricing.distinct parts), draw, .prices result⟩]
      (Call.afterPrices draw user parts result) := by
  have hstart : Course (.create user parts) [] (.pricing user parts) := by
    have h : Course (.create user parts) [] (Call.start (.create user parts)) := .start
    rwa [Call.start, if_neg hparts] at h
  exact hstart.next (x := ⟨t, .prices (Pricing.distinct parts), draw, .prices result⟩) rfl trivial

/-- Parts are reported as missing only by an answer that has none. -/
theorem Cause.of_partsNotFound {user : UserId} {parts missing : List PartId} {log : List Exchange}
    (h : Cause (.create user parts) log (.partsNotFound missing)) :
    ∃ x snapshots, log = [x] ∧ x.answer = .prices (.ok snapshots) ∧
      Pricing.total snapshots parts = .error (.partsNotFound missing) := by
  cases h with
  | pricing hparts hneed hanswer htotal => exact ⟨_, _, rfl, hanswer, htotal⟩

/-- A new order that is reported to miss parts misses what its first answer leaves out. -/
theorem Course.reported {user : UserId} {parts ids missing : List PartId} {t : Nat} {draw : Draw}
    {snapshots : List PartSnapshot} {rest : List Exchange}
    (h : Course (.create user parts) (⟨t, .prices ids, draw, .prices (.ok snapshots)⟩ :: rest)
      (.failed (.partsNotFound missing)))
    (hprices : ∀ p ∈ snapshots, 0 ≤ p.price.cents) :
    missing = Pricing.missing snapshots parts ∧ ∃ id ∈ parts, ¬Pricing.Answered snapshots id := by
  obtain ⟨x, told, hone, htold, htotal⟩ := h.cause.of_partsNotFound
  rw [List.cons.injEq] at hone
  obtain ⟨rfl, -⟩ := hone
  cases htold
  exact (Pricing.total_eq_partsNotFound_iff hprices parts missing).1 htotal

namespace Shop

theorem carryOut_create (s : Shop) (user : UserId) {parts : List PartId} (hparts : parts ≠ []) :
    let priced := s.advance (.pricing user parts)
    s.carryOut (.create user parts) = (priced.shop.finish priced.call).after priced.millis := by
  have hstart : s.start (.create user parts) = (s, .pricing user parts) := by
    simp only [start, Desk.start, Call.start, if_neg hparts]
    rfl
  rw [carryOut, hstart, finish_of_need s (by simp [Call.need])]

/-- A command for a new order calls the inventory once if it has parts, and else not at all. -/
theorem calls_carryOut_create (s : Shop) (user : UserId) (parts : List PartId) :
    (s.carryOut (.create user parts)).shop.inventory.calls =
      s.inventory.calls + if parts = [] then 0 else 1 := by
  by_cases hparts : parts = []
  · subst hparts
    rfl
  · have hwaits : (s.advance (.pricing user parts)).call.waits = 0 := s.waits_advance rfl
    obtain ⟨hinventory, -⟩ := (s.advance (.pricing user parts)).shop.services_finish hwaits
    obtain ⟨harrived, -⟩ := s.services_advance_prices (c := .pricing user parts) rfl
    rw [carryOut_create s user hparts, if_neg hparts]
    change ((s.advance (.pricing user parts)).shop.finish _).shop.inventory.calls = _
    rw [hinventory, harrived]
    rfl

/-- A command for parts fails with the deadline if the inventory takes longer. -/
theorem carryOut_create_late {s : Shop} {limit : Span} (hdeadline : s.deadline = some limit)
    (hlate : limit.timerMillis < s.inventory.latency.timerMillis) (user : UserId)
    {parts : List PartId} (hparts : parts ≠ []) :
    (s.carryOut (.create user parts)).call =
      .failed (.inventoryUnavailable (GatewayError.deadlineExceeded limit).message) := by
  let asked : Shop := { s with inventory := s.inventory.arrive }
  let t : Ticket := ⟨s.inventory.fails, s.inventory.latency⟩
  have hlater : s.advance (.pricing user parts) = ⟨limit.timerMillis,
      (asked.expire (.pricing user parts) limit).1, (asked.expire (.pricing user parts) limit).2⟩ :=
    await_late (s := asked) (t := t) hdeadline hlate _
  rw [carryOut_create s user hparts, hlater]
  rfl

end Shop

/-- On any floor, with any moves of others between its own and at any time later, whatever the inventory
answers, a command for a new order fails without parts before anything is asked. Otherwise it asks for
prices once, for all parts in the order of their first occurrence. It fails if there is no answer, by the
first negative price of the answer if there is one, and otherwise for missing parts exactly if the answer
leaves some out, and then names all of those in the order of their first occurrence. What has failed has
written nothing. In the shop, the inventory is called once or not at all, its deadline counts as no
answer, and a failure leaves the store as it was. A price is named by its displayed text, the lowest one of
all too, whose cents have no absolute value in range. -/
theorem parts_checked_in_order :
    (∀ (f : Floor) (user : UserId) (parts : List PartId) (x : Occasion)
      (result : Except GatewayError (List PartSnapshot)) (later : List Move),
      x.Spares f.jobs.length → x.outside = .prices result →
      let command := Command.create user parts
      ∃ j, ((f.served command [x]).run later).jobs[f.jobs.length]? = some j ∧
        (parts = [] → j.call = .failed .noParts ∧ j.log = []) ∧
        (parts ≠ [] →
          (∃ ids, j.pricesAsked = [ids] ∧ FirstOccurrences parts (fun _ => True) ids) ∧
          (∀ reason, result = .error reason →
            j.call = .failed (.inventoryUnavailable reason.message)) ∧
          ∀ snapshots, result = .ok snapshots →
            (∀ before bad after, snapshots = before ++ bad :: after →
              (∀ p ∈ before, 0 ≤ p.price.cents) → bad.price.cents < 0 →
              j.call = .failed (.inventoryUnavailable
                ("part " ++ bad.id.text ++ " has negative price " ++ bad.price.text))) ∧
            ((∀ p ∈ snapshots, 0 ≤ p.price.cents) →
              ((∃ missing, j.call = .failed (.partsNotFound missing)) ↔
                ∃ id ∈ parts, ¬Pricing.Answered snapshots id) ∧
              ∀ missing, j.call = .failed (.partsNotFound missing) →
                FirstOccurrences parts (¬Pricing.Answered snapshots ·) missing)) ∧
        (∀ e, j.call = .failed e → j.writes = []) ∧
        (f.served command [x]).store = ((f.step (.ask command)).run x.others).store) ∧
      ∀ (s : Shop) (user : UserId) (parts : List PartId),
        let r := s.carryOut (.create user parts)
        r.shop.inventory.calls = s.inventory.calls + (if parts = [] then 0 else 1) ∧
          (∀ limit, s.deadline = some limit → parts ≠ [] →
            limit.timerMillis < s.inventory.latency.timerMillis →
            r.call = .failed (.inventoryUnavailable (GatewayError.deadlineExceeded limit).message)) ∧
          ∀ e, r.call = .failed e → r.shop.desk.store = s.desk.store := by
  constructor
  · intro f user parts x result later hx hanswer command
    by_cases hparts : parts = []
    · subst hparts
      have hstart := f.getElem?_served_nil command
      have hserved : f.served command [x] = (f.served command []).run x.others :=
        Floor.served_of_finished hstart rfl x
      have hend := Floor.getElem?_run_of_finished hstart rfl (x.others ++ later)
      rw [Floor.run_append] at hend
      rw [hserved]
      exact ⟨_, hend, fun _ => ⟨rfl, rfl⟩, fun hne => absurd rfl hne, fun _ _ => rfl, rfl⟩
    · obtain ⟨t, hjob, hstore⟩ := Floor.priced_served user hparts hx hanswer
      obtain ⟨j, rest, hj, -, hlog, hcourse⟩ :=
        Floor.exists_course_run hjob (Course.priced hparts t x.draw result) later
      -- where the answer lets the call fail, that is the end of it
      have hfails : ∀ e, Call.afterPrices x.draw user parts result = .failed e →
          j.call = .failed e := by
        intro e hcall
        have hend := Floor.getElem?_run_of_finished hjob (by rw [hcall]; rfl) later
        rw [Option.some.inj (hj.symm.trans hend), hcall]
      have hasked : j.pricesAsked = [Pricing.distinct parts] := by
        have hnonempty : j.log ≠ [] := by simp [hlog]
        rw [Job.pricesAsked, hcourse.pricesAsked_create, if_neg hnonempty]
      have hreported : ∀ snapshots, result = .ok snapshots → (∀ p ∈ snapshots, 0 ≤ p.price.cents) →
          ∀ missing, j.call = .failed (.partsNotFound missing) →
            missing = Pricing.missing snapshots parts ∧ ∃ id ∈ parts, ¬Pricing.Answered snapshots id := by
        rintro snapshots rfl hprices missing hcall
        rw [hcall, hlog] at hcourse
        exact hcourse.reported hprices
      refine ⟨j, hj, fun hnil => absurd hnil hparts, fun _ => ⟨?_, ?_, ?_⟩, ?_, hstore⟩
      · exact ⟨_, hasked, FirstOccurrences.eraseDups parts⟩
      · rintro reason rfl
        exact hfails _ rfl
      · rintro snapshots rfl
        refine ⟨?_, fun hprices => ⟨⟨?_, ?_⟩, ?_⟩⟩
        · rintro before bad after rfl hbefore hbad
          exact hfails _ (Call.afterPrices_of_error (Pricing.total_of_negative hbefore hbad parts) _ _)
        · rintro ⟨missing, hcall⟩
          exact (hreported snapshots rfl hprices missing hcall).2
        · intro hunknown
          exact ⟨_, hfails _ (Call.afterPrices_of_error
            ((Pricing.total_eq_partsNotFound_iff hprices parts _).2 ⟨rfl, hunknown⟩) _ _)⟩
        · intro missing hcall
          rw [(hreported snapshots rfl hprices missing hcall).1]
          exact Pricing.firstOccurrences_missing snapshots parts
      · intro e hcall
        exact Job.writes_eq_nil_of_failed hcourse hcall
  · intro s user parts r
    refine ⟨s.calls_carryOut_create user parts, ?_, fun e hcall => Shop.store_of_failed hcall⟩
    intro limit hdeadline hparts hlate
    exact Shop.carryOut_create_late hdeadline hlate user hparts

/-- A part at the lowest amount there is. -/
def Floor.debt : PartSnapshot :=
  ⟨⟨⟨9#128⟩⟩, Money.clamp (-2 ^ 63)⟩

/-- A shop whose inventory takes longer than it may. -/
def Shop.slowInventory : Shop :=
  Shop.opening { Inventory.empty with latency := .ofMillis 20 } (some (.ofMillis 10)) (fun _ => 5#128)
    fun _ => Floor.raceDraw.now

/-- A basket with two parts that there is no price for names just these; a negative price comes before
them; and the slow inventory is not waited for. -/
theorem parts_checked_in_order_unknown :
    (∃ j missing,
      ((Floor.opening .empty).served (.create ⟨⟨1#128⟩⟩ (⟨⟨4#128⟩⟩ :: ⟨⟨6#128⟩⟩ :: Floor.basket))
          [Floor.looked (.ok Floor.priceList)]).jobs[0]? = some j ∧
        j.call = .failed (.partsNotFound missing) ∧
        FirstOccurrences (⟨⟨4#128⟩⟩ :: ⟨⟨6#128⟩⟩ :: Floor.basket)
          (¬Pricing.Answered Floor.priceList ·) missing ∧ j.writes = []) ∧
      (∃ j, ((Floor.opening .empty).served (.create ⟨⟨1#128⟩⟩ (⟨⟨4#128⟩⟩ :: Floor.basket))
          [Floor.looked (.ok (Floor.debt :: Floor.priceList))]).jobs[0]? = some j ∧
        j.call = .failed (.inventoryUnavailable
          "part 00000000-0000-0000-0000-000000000009 has negative price -92233720368547758.-8")) ∧
      (Shop.slowInventory.carryOut (.create ⟨⟨1#128⟩⟩ Floor.basket)).call =
        .failed (.inventoryUnavailable (GatewayError.deadlineExceeded (.ofMillis 10)).message) := by
  obtain ⟨hdesk, hshop⟩ := parts_checked_in_order
  refine ⟨?_, ?_, ?_⟩
  · obtain ⟨j, hj, -, hchecked, hfailed, -⟩ := hdesk (.opening .empty) ⟨⟨1#128⟩⟩
      (⟨⟨4#128⟩⟩ :: ⟨⟨6#128⟩⟩ :: Floor.basket) (Floor.looked (.ok Floor.priceList))
      (.ok Floor.priceList) [] (by decide) rfl
    obtain ⟨-, -, hpriced⟩ := hchecked (by decide)
    obtain ⟨hunknown, hmissing⟩ := (hpriced Floor.priceList rfl).2 (by decide)
    obtain ⟨missing, hcall⟩ := hunknown.2 (by decide)
    exact ⟨j, missing, hj, hcall, hmissing missing hcall, hfailed _ hcall⟩
  · obtain ⟨j, hj, -, hchecked, -⟩ := hdesk (.opening .empty) ⟨⟨1#128⟩⟩ (⟨⟨4#128⟩⟩ :: Floor.basket)
      (Floor.looked (.ok (Floor.debt :: Floor.priceList))) (.ok (Floor.debt :: Floor.priceList)) []
      (by decide) rfl
    obtain ⟨-, -, hpriced⟩ := hchecked (by decide)
    have hcall := (hpriced _ rfl).1 [] Floor.debt Floor.priceList rfl (by simp) (by decide)
    have htext : "part " ++ Floor.debt.id.text ++ " has negative price " ++ Floor.debt.price.text =
        "part 00000000-0000-0000-0000-000000000009 has negative price -92233720368547758.-8" := by
      decide +kernel
    rw [htext] at hcall
    exact ⟨j, hj, hcall⟩
  · obtain ⟨-, hlate, -⟩ := hshop Shop.slowInventory ⟨⟨1#128⟩⟩ Floor.basket
    exact hlate (.ofMillis 10) rfl (by decide) (by decide)

end OrderDesk
