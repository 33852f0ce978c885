/-
# Answers of the inventory service

A request for prices is noticed when it arrives, and whether it fails is settled then. Its answer is
taken when its latency is over, from the catalog as it stands by then; in between parts may be added, the
switches may be turned, and other requests may arrive.

* `Inventory.Event` , `Inventory.after` : what can happen to the service;
* `Inventory.get?_after_empty` : the catalog has the parts that were added last;
* `Inventory.Answers` : what an answer has to say, in terms of single look-ups in one catalog;
* `Inventory.Answers.length_eq` : how many parts are in it;
* `Inventory.answers_of_mayFind` : a search by identifiers gives an answer;
* `inventory_answers` : the whole.
-/
import OrderDesk.Proofs.Catalog.Search
import Mathlib.Data.Finset.Card

namespace OrderDesk

namespace Inventory

/-! ## Events -/

/-- What can happen to the service: a part is added, a switch is turned, or a request arrives. -/
inductive Event
  | add (p : Part)
  | setFails (fails : Bool)
  | setLatency (latency : Span)
  | arrive

/-- The part that an event adds. -/
def Event.part? : Event → Option Part
  | add p => some p
  | _ => none

/-- The service after an event. -/
def step (i : Inventory) : Event → Inventory
  | .add p => i.add p
  | .setFails fails => { i with fails }
  | .setLatency latency => { i with latency }
  | .arrive => i.arrive

/-- The service after events. -/
def after (i : Inventory) (events : List Event) : Inventory :=
  events.foldl step i

/-- Only added parts change the catalog. -/
theorem parts_step {i j : Inventory} (h : i.parts = j.parts) (e : Event) :
    (i.step e).parts = (e.part?.toList.foldl add j).parts := by
  cases e with
  | add p => exact congrArg (Keyed.put Part.id p) h
  | setFails fails => exact h
  | setLatency latency => exact h
  | arrive => exact h

theorem parts_after {i j : Inventory} (h : i.parts = j.parts) (events : List Event) :
    (i.after events).parts = ((events.filterMap Event.part?).foldl add j).parts := by
  induction events generalizing i j with
  | nil => exact h
  | cons e rest ih =>
      have hrest := ih (parts_step h e)
      rw [after, List.foldl_cons, ← after, hrest, ← List.foldl_append]
      cases e <;> rfl

/-- After events, the part found under an identifier is the last one that was added with it. -/
theorem get?_after_empty {events : List Event} {id : PartId} {p : Part} :
    (empty.after events).get? id = some p ↔
      p.id = id ∧ LastAdded (events.filterMap Event.part?) p := by
  rw [← get?_stocked_eq_some_iff, get?, get?, parts_after rfl events, stocked]

/-! ## Answers -/

/-- What an answer has to say about a request: it has exactly the requested parts that are found in the
catalog, with the prices they are found with, each once, in the order of the bytes of their names. -/
structure Answers (i : Inventory) (ids : List PartId) (answer : List PartSnapshot) : Prop where
  mem_iff : ∀ s, s ∈ answer ↔ s.id ∈ ids ∧ ∃ p, i.get? s.id = some p ∧ p.price = s.price
  once : (answer.map PartSnapshot.id).Nodup
  ordered : answer.Pairwise fun s t => ∀ p q, i.get? s.id = some p → i.get? t.id = some q →
    Utf8.bytes p.name ≤ Utf8.bytes q.name

/-- An answer has as many parts as there are different known identifiers in the request. -/
theorem Answers.length_eq {i : Inventory} {ids : List PartId} {answer : List PartSnapshot}
    (h : i.Answers ids answer) :
    answer.length = (ids.toFinset.filter fun id => (i.get? id).isSome).card := by
  have hids : (answer.map PartSnapshot.id).toFinset =
      ids.toFinset.filter fun id => (i.get? id).isSome := by
    ext id
    rw [List.mem_toFinset, Finset.mem_filter, List.mem_toFinset, List.mem_map, Option.isSome_iff_exists]
    constructor
    · rintro ⟨s, hs, rfl⟩
      obtain ⟨hid, p, hp, -⟩ := (h.mem_iff s).1 hs
      exact ⟨hid, p, hp⟩
    · rintro ⟨hid, p, hp⟩
      exact ⟨⟨id, p.price⟩, (h.mem_iff ⟨id, p.price⟩).2 ⟨hid, p, hp, rfl⟩, rfl⟩
  rw [← hids, List.toFinset_card_of_nodup h.once, List.length_map]

/-- A filter on identifiers accepts the parts that have one of them. -/
theorem accepts_byIds_iff {ids : List PartId} (hne : ids ≠ []) {p : Part} :
    (PartsFilter.byIds ids).Accepts p ↔ p.id ∈ ids := by
  constructor
  · intro h
    exact h.id hne
  · intro hid
    -- the other criteria are empty
    constructor <;> simp [PartsFilter.byIds, PartsFilter.all, hid]

/-- The snapshots of what a search by identifiers may find are an answer. -/
theorem answers_of_mayFind {i : Inventory} {ids : List PartId} (hne : ids ≠ []) {found : List Part}
    (h : i.MayFind (.byIds ids) found) : i.Answers ids (found.map Part.snapshot) := by
  have hselects := mayFind_iff_selects.1 h
  have hmem : ∀ p, p ∈ found ↔ i.get? p.id = some p ∧ p.id ∈ ids := fun p => by
    rw [hselects.mem_iff, mem_parts_iff, accepts_byIds_iff hne]
  refine ⟨fun s => ?_, ?_, ?_⟩
  · rw [List.mem_map]
    constructor
    · rintro ⟨p, hp, rfl⟩
      obtain ⟨hget, hid⟩ := (hmem p).1 hp
      exact ⟨hid, p, hget, rfl⟩
    · rintro ⟨hid, p, hget, hprice⟩
      have hkey : p.id = s.id := Keyed.key_of_find? Part.id hget
      rw [← hkey] at hget hid
      refine ⟨p, (hmem p).2 ⟨hget, hid⟩, ?_⟩
      rw [Part.snapshot, hkey, hprice]
  · rw [List.map_map]
    exact hselects.once
  · rw [List.pairwise_map]
    refine hselects.ordered.imp_of_mem fun {p q} hp hq hle p' q' hp' hq' => ?_
    obtain rfl : p = p' := Option.some.inj (((hmem p).1 hp).1.symm.trans hp')
    obtain rfl : q = q' := Option.some.inj (((hmem q).1 hq).1.symm.trans hq')
    exact hle

/-- No identifiers are answered with no parts. -/
theorem answers_nil (i : Inventory) : i.Answers [] [] :=
  ⟨by simp, .nil, .nil⟩

theorem answers_snapshots (i : Inventory) (ids : List PartId) : i.Answers ids (i.snapshots ids) := by
  unfold snapshots
  split
  · rename_i h
    exact h ▸ i.answers_nil
  · rename_i h
    exact answers_of_mayFind h (mayFind_iff_selects.2 (i.selects_find _))

end Inventory

/-- Requests for prices. Let a request arrive after any events while the service is not told to fail, and
let anything happen until its latency is over. Its answer has exactly the requested parts that are found
in the catalog of that moment, with the prices they are found with, each once, in the order of the bytes
of their names; so it has as many parts as there are different known identifiers in the request. That
catalog has the parts that were added last up to that moment. No identifiers are answered with no parts,
although the filter that asks for nothing finds the whole catalog. All this is so in whatever order the
catalog lists its parts. -/
theorem inventory_answers (before meanwhile : List Inventory.Event) (ids : List PartId)
    (hworks : (Inventory.empty.after before).fails = false) :
    let asked := Inventory.empty.after before
    let i := asked.arrive.after meanwhile
    (∃ answer, i.answer asked.fails ids = .ok answer ∧ i.Answers ids answer ∧
        answer.length = (ids.toFinset.filter fun id => (i.get? id).isSome).card) ∧
      (∀ id p, i.get? id = some p ↔
        p.id = id ∧ LastAdded ((before ++ meanwhile).filterMap Inventory.Event.part?) p) ∧
      i.answer asked.fails [] = .ok [] ∧ (∀ p, p ∈ i.find .all ↔ i.get? p.id = some p) ∧
      (ids ≠ [] → ∀ found, i.MayFind (.byIds ids) found →
        i.Answers ids (found.map Part.snapshot)) := by
  intro asked i
  have hanswer : ∀ ids, i.answer asked.fails ids = .ok (i.snapshots ids) := by
    intro ids
    rw [hworks]
    rfl
  have hcatalog : i = Inventory.empty.after (before ++ .arrive :: meanwhile) := by
    simp [i, asked, Inventory.after, Inventory.step]
  have hadded : (before ++ .arrive :: meanwhile).filterMap Inventory.Event.part? =
      (before ++ meanwhile).filterMap Inventory.Event.part? := by
    rw [List.filterMap_append, List.filterMap_append]
    rfl
  have hanswers := i.answers_snapshots ids
  refine ⟨⟨_, hanswer ids, hanswers, hanswers.length_eq⟩, fun id p => ?_, hanswer [], fun p => ?_,
    fun hne found hfound => Inventory.answers_of_mayFind hne hfound⟩
  · rw [hcatalog, Inventory.get?_after_empty, hadded]
  · rw [(i.selects_find .all).mem_iff, Inventory.mem_parts_iff]
    refine and_iff_left ?_
    rw [← PartsFilter.matchesPart_iff, PartsFilter.matchesPart_all]

/-- A wing whose price changes while a request waits that asks for it twice and for a part that is not
there, when the service is told to fail in between: the answer has the new price, once. -/
theorem inventory_answers_repriced :
    let wing : Part := Part.sketch 1 "Wing" none []
    let dearer : Part := { wing with price := Money.clamp 700 }
    let before : List Inventory.Event := [.setLatency (.ofMillis 20), .add wing]
    let meanwhile : List Inventory.Event := [.setFails true, .arrive, .add dearer]
    let ids : List PartId := [wing.id, ⟨⟨9⟩⟩, wing.id]
    let asked := Inventory.empty.after before
    asked.fails = false ∧
      ∃ answer, (asked.arrive.after meanwhile).answer asked.fails ids = .ok answer ∧
        answer.length = 1 ∧ ⟨wing.id, Money.clamp 700⟩ ∈ answer := by
  intro wing dearer before meanwhile ids asked
  have hworks : asked.fails = false := by decide
  obtain ⟨⟨answer, hanswer, hanswers, hlength⟩, hcatalog, -⟩ :=
    inventory_answers before meanwhile ids hworks
  have hdearer : (asked.arrive.after meanwhile).get? wing.id = some dearer :=
    (hcatalog wing.id dearer).2 ⟨rfl, [wing], [], rfl, by simp⟩
  refine ⟨hworks, answer, hanswer, ?_, (hanswers.mem_iff _).2 ⟨by simp [ids], dearer, hdearer, rfl⟩⟩
  rw [hlength]
  decide

end OrderDesk
