/-
# Searching the catalog

A search answers with the parts of the catalog that a filter accepts, each once, in the order of the
bytes of their names. The catalog has the last part that was added under each identifier. Nothing is
said about the order of parts of one name: the catalog may list its parts in any order, and a search
keeps that order among parts of one name.

* `PartsFilter.Accepts` : what a filter asks of a part, one field for each criterion;
* `LastAdded` : the parts that no later one has replaced;
* `Inventory.get?_stocked_eq_some_iff` : these are the parts of the catalog;
* `PartsFilter.Selects` : what a search has to answer;
* `Inventory.mayFind_iff_selects` : what a search may answer, for every order of the catalog;
* `PartsFilter.Accepts.mono` : a filter with fewer tags and longer lists accepts more;
* `catalog_search` : the whole.
-/
import OrderDesk.Catalog.Inventory
import OrderDesk.Proofs.Text.ByteOrder
import Mathlib.Data.List.Nodup
import Mathlib.Data.List.Perm.Basic
import Mathlib.Data.List.Induction

namespace OrderDesk

/-! ## Filters -/

namespace PartsFilter

/-- A filter accepts a part: every list of values, unless it is empty, has the value of the part, and the
part has every tag. A part without a manufacturer is from no country. -/
structure Accepts (f : PartsFilter) (p : Part) : Prop where
  id : f.ids ≠ [] → p.id ∈ f.ids
  name : f.names ≠ [] → p.name ∈ f.names
  category : f.categories ≠ [] → p.category ∈ f.categories
  country : f.countries ≠ [] → ∃ m, p.manufacturer = some m ∧ m.country ∈ f.countries
  tags : ∀ tag ∈ f.tags, tag ∈ p.tags

theorem admits_iff {α : Type} [DecidableEq α] {allowed : List α} {a : α} :
    admits allowed a = true ↔ (allowed ≠ [] → a ∈ allowed) := by
  cases allowed <;> simp [admits]

/-- The criterion on countries, for a part with or without a manufacturer. -/
theorem country_iff {f : PartsFilter} {p : Part} :
    (match p.manufacturer with
      | some m => admits f.countries m.country
      | none => f.countries.isEmpty) = true ↔
      (f.countries ≠ [] → ∃ m, p.manufacturer = some m ∧ m.country ∈ f.countries) := by
  cases p.manufacturer with
  | some m => simp [admits_iff]
  | none => simp

theorem matchesPart_iff {f : PartsFilter} {p : Part} : f.matchesPart p = true ↔ f.Accepts p := by
  have htags : f.tags.all p.tags.contains = true ↔ ∀ tag ∈ f.tags, tag ∈ p.tags := by
    simp
  unfold matchesPart
  rw [Bool.and_eq_true, Bool.and_eq_true, Bool.and_eq_true, Bool.and_eq_true, admits_iff, admits_iff,
    admits_iff, htags]
  constructor
  · rintro ⟨⟨⟨⟨hid, hname⟩, hcategory⟩, hcountry⟩, htag⟩
    exact ⟨hid, hname, hcategory, country_iff.1 hcountry, htag⟩
  · intro h
    exact ⟨⟨⟨⟨h.id, h.name⟩, h.category⟩, country_iff.2 h.country⟩, h.tags⟩

/-- A list of values asks for no more than another one: it is empty, or it has all values of the other,
which is not empty. -/
def Widens {α : Type} (old new : List α) : Prop :=
  new = [] ∨ (old ≠ [] ∧ old ⊆ new)

theorem Widens.refl {α : Type} (l : List α) : Widens l l := by
  by_cases h : l = []
  · exact Or.inl h
  · exact Or.inr ⟨h, List.Subset.refl l⟩

theorem Widens.of_subset {α : Type} {old new : List α} (hne : old ≠ []) (h : old ⊆ new) :
    Widens old new :=
  Or.inr ⟨hne, h⟩

/-- A filter with fewer tags and wider lists of values accepts every part that the other accepts. -/
theorem Accepts.mono {f g : PartsFilter} {p : Part} (h : f.Accepts p) (hids : Widens f.ids g.ids)
    (hnames : Widens f.names g.names) (hcategories : Widens f.categories g.categories)
    (hcountries : Widens f.countries g.countries) (htags : g.tags ⊆ f.tags) : g.Accepts p where
  id hne := by
    obtain ⟨hold, hsub⟩ := hids.resolve_left hne
    exact hsub (h.id hold)
  name hne := by
    obtain ⟨hold, hsub⟩ := hnames.resolve_left hne
    exact hsub (h.name hold)
  category hne := by
    obtain ⟨hold, hsub⟩ := hcategories.resolve_left hne
    exact hsub (h.category hold)
  country hne := by
    obtain ⟨hold, hsub⟩ := hcountries.resolve_left hne
    obtain ⟨m, hm, hcountry⟩ := h.country hold
    exact ⟨m, hm, hsub hcountry⟩
  tags tag htag := h.tags tag (htags htag)

/-- What a search has to answer, for a catalog of some parts: those that the filter accepts, each
identifier once, in the order of the bytes of their names. -/
structure Selects (f : PartsFilter) (catalog : Part → Prop) (answer : List Part) : Prop where
  mem_iff : ∀ p, p ∈ answer ↔ catalog p ∧ f.Accepts p
  once : (answer.map Part.id).Nodup
  ordered : answer.Pairwise fun p q => Utf8.bytes p.name ≤ Utf8.bytes q.name

theorem Selects.congr {f : PartsFilter} {catalog other : Part → Prop} {answer : List Part}
    (h : f.Selects catalog answer) (hsame : ∀ p, catalog p ↔ other p) : f.Selects other answer where
  mem_iff p := by rw [h.mem_iff, hsame]
  once := h.once
  ordered := h.ordered

end PartsFilter

/-! ## The catalog -/

/-- A part is the last one that was added under its identifier. -/
def LastAdded (added : List Part) (p : Part) : Prop :=
  ∃ earlier later, added = earlier ++ p :: later ∧ ∀ q ∈ later, q.id ≠ p.id

namespace Inventory

/-- The service after parts were added one after the other, from an empty catalog on. -/
def stocked (added : List Part) : Inventory :=
  added.foldl add empty

/-- A catalog has the parts that are found under their identifiers. -/
theorem mem_parts_iff {i : Inventory} {p : Part} : p ∈ i.parts ↔ i.get? p.id = some p := by
  rw [get?, Keyed.find?_eq_some_iff Part.id i.distinct]
  simp

/-- A part that is added is found from then on, and the others as before. -/
theorem get?_add (i : Inventory) (p : Part) (id : PartId) :
    (i.add p).get? id = if p.id = id then some p else i.get? id :=
  Keyed.find?_put Part.id p id i.parts

theorem get?_stocked (added : List Part) (id : PartId) :
    (stocked added).get? id = added.reverse.find? (·.id = id) := by
  induction added using List.reverseRecOn with
  | nil => rfl
  | append_singleton added p ih =>
      rw [stocked, List.foldl_concat, get?_add, ← stocked, ih, List.reverse_concat]
      by_cases h : p.id = id <;> simp [h]

/-- Under an identifier the last part that was added with it is found. -/
theorem get?_stocked_eq_some_iff {added : List Part} {id : PartId} {p : Part} :
    (stocked added).get? id = some p ↔ p.id = id ∧ LastAdded added p := by
  rw [get?_stocked, List.find?_eq_some_iff_append]
  constructor
  · rintro ⟨hid, later, earlier, hadded, hlater⟩
    obtain rfl : p.id = id := by simpa using hid
    refine ⟨rfl, earlier.reverse, later.reverse, ?_, by simpa using hlater⟩
    rw [← List.reverse_reverse added, hadded]
    simp
  · rintro ⟨rfl, earlier, later, rfl, hlater⟩
    exact ⟨by simp, later.reverse, earlier.reverse, by simp, by simpa using hlater⟩

theorem mem_parts_stocked_iff {added : List Part} {p : Part} :
    p ∈ (stocked added).parts ↔ LastAdded added p := by
  rw [mem_parts_iff, get?_stocked_eq_some_iff]
  simp

/-! ## The order of an answer -/

theorem precedes_iff {p q : Part} :
    precedes p q = true ↔ p.name < q.name ∨ (p.name = q.name ∧ p.id ≤ q.id) := by
  simp [precedes]

theorem name_le_of_precedes {p q : Part} (h : precedes p q = true) : p.name ≤ q.name := by
  rcases precedes_iff.1 h with hlt | ⟨heq, -⟩
  · exact Std.le_of_lt hlt
  · exact heq ▸ String.le_refl _

theorem precedes_trans (p q r : Part) (hpq : precedes p q = true) (hqr : precedes q r = true) :
    precedes p r = true := by
  rw [precedes_iff] at *
  rcases hpq with hpq | ⟨hpq, hid⟩
  · rcases hqr with hqr | ⟨hqr, -⟩
    · exact Or.inl (String.lt_trans hpq hqr)
    · exact Or.inl (hqr ▸ hpq)
  · rcases hqr with hqr | ⟨hqr, hid'⟩
    · exact Or.inl (hpq ▸ hqr)
    · exact Or.inr ⟨hpq.trans hqr, BitVec.le_trans hid hid'⟩

theorem precedes_total (p q : Part) : (precedes p q || precedes q p) = true := by
  rw [Bool.or_eq_true, precedes_iff, precedes_iff]
  by_cases hpq : p.name < q.name
  · exact Or.inl (Or.inl hpq)
  by_cases hqp : q.name < p.name
  · exact Or.inr (Or.inl hqp)
  have hname : p.name = q.name := String.le_antisymm (String.not_lt.1 hqp) (String.not_lt.1 hpq)
  rcases BitVec.le_total p.id.uuid.bits q.id.uuid.bits with hid | hid
  · exact Or.inl (Or.inr ⟨hname, hid⟩)
  · exact Or.inr (Or.inr ⟨hname.symm, hid⟩)

/-- Parts that are sorted by their names alone are in the order of their names. -/
theorem pairwise_sorted (listed : List Part) :
    (listed.mergeSort fun p q => p.name ≤ q.name).Pairwise fun p q => p.name ≤ q.name := by
  have htrans : ∀ p q r : Part, decide (p.name ≤ q.name) → decide (q.name ≤ r.name) →
      decide (p.name ≤ r.name) := by
    simpa using fun p q r : Part => String.le_trans
  have htotal : ∀ p q : Part, decide (p.name ≤ q.name) || decide (q.name ≤ p.name) := by
    simpa using fun p q : Part => String.le_total p.name q.name
  exact (List.pairwise_mergeSort htrans htotal listed).imp of_decide_eq_true

/-! ## Answers -/

/-- What a search may answer: the parts that meet the filter, from the catalog in any order, sorted by
their names; parts of one name stay in that order. -/
def MayFind (i : Inventory) (f : PartsFilter) (answer : List Part) : Prop :=
  ∃ listed : List Part, listed.Perm i.parts ∧
    answer = (listed.filter f.matchesPart).mergeSort fun p q => p.name ≤ q.name

section Answers

variable {i : Inventory} {f : PartsFilter} {answer : List Part}

/-- The parts of the catalog that meet the filter are what a search has to answer, once they are in the
order of their names. -/
theorem selects_of_perm (hperm : answer.Perm (i.parts.filter f.matchesPart))
    (hordered : answer.Pairwise fun p q => p.name ≤ q.name) : f.Selects (· ∈ i.parts) answer where
  mem_iff p := by rw [hperm.mem_iff, List.mem_filter, PartsFilter.matchesPart_iff]
  once := (hperm.map Part.id).nodup_iff.2 (i.distinct.sublist (List.filter_sublist.map Part.id))
  ordered := hordered.imp fun h => Utf8.bytes_le_iff.2 h

theorem perm_of_selects (h : f.Selects (· ∈ i.parts) answer) :
    answer.Perm (i.parts.filter f.matchesPart) := by
  refine (List.perm_ext_iff_of_nodup (List.Nodup.of_map Part.id h.once)
    ((List.Nodup.of_map Part.id i.distinct).filter _)).2 fun p => ?_
  rw [h.mem_iff, List.mem_filter, PartsFilter.matchesPart_iff]

/-- Whatever the order of the catalog, a search answers with what it has to, and every such answer is
one for some order of the catalog. -/
theorem mayFind_iff_selects : i.MayFind f answer ↔ f.Selects (· ∈ i.parts) answer := by
  constructor
  · rintro ⟨listed, hperm, rfl⟩
    exact selects_of_perm ((List.mergeSort_perm _ _).trans (hperm.filter _)) (pairwise_sorted _)
  · intro h
    -- the catalog with the parts of the answer first, in the order in which they are answered
    refine ⟨answer ++ i.parts.filter fun p => !f.matchesPart p, ?_, ?_⟩
    · exact ((perm_of_selects h).append_right _).trans (List.filter_append_perm f.matchesPart i.parts)
    · have hmet : answer.filter f.matchesPart = answer := List.filter_eq_self.2 fun p hp =>
        PartsFilter.matchesPart_iff.2 ((h.mem_iff p).1 hp).2
      have hsorted : answer.Pairwise fun p q => decide (p.name ≤ q.name) = true :=
        h.ordered.imp fun h => decide_eq_true (Utf8.bytes_le_iff.1 h)
      rw [List.filter_append, hmet, List.filter_filter]
      simp [List.mergeSort_of_pairwise hsorted]

end Answers

/-- The search answers with what it has to. -/
theorem selects_find (i : Inventory) (f : PartsFilter) : f.Selects (· ∈ i.parts) (i.find f) := by
  refine selects_of_perm (List.mergeSort_perm _ _) ?_
  exact (List.pairwise_mergeSort precedes_trans precedes_total _).imp name_le_of_precedes

/-- What is found with a filter is found with one that has fewer tags and wider lists of values. -/
theorem find_mono (i : Inventory) {f g : PartsFilter} (hids : PartsFilter.Widens f.ids g.ids)
    (hnames : PartsFilter.Widens f.names g.names)
    (hcategories : PartsFilter.Widens f.categories g.categories)
    (hcountries : PartsFilter.Widens f.countries g.countries) (htags : g.tags ⊆ f.tags) :
    i.find f ⊆ i.find g := by
  intro p hp
  rw [(i.selects_find f).mem_iff] at hp
  rw [(i.selects_find g).mem_iff]
  exact ⟨hp.1, hp.2.mono hids hnames hcategories hcountries htags⟩

end Inventory

/-- Searching a catalog. Whatever parts were added and whatever the filter, the search finds exactly the
parts that the filter accepts and that no later part of the same identifier has replaced, each
identifier once, in the order of the bytes of their names; and these are the answers that there can be
whatever the order in which the catalog lists its parts. More tags find no further part; more values in a
list that is not empty lose none. -/
theorem catalog_search (added : List Part) (f : PartsFilter) :
    let i := Inventory.stocked added
    f.Selects (LastAdded added) (i.find f) ∧
      (∀ answer, i.MayFind f answer ↔ f.Selects (LastAdded added) answer) ∧
      (∀ tags, f.tags ⊆ tags → i.find { f with tags } ⊆ i.find f) ∧
      (∀ ids, f.ids ≠ [] → f.ids ⊆ ids → i.find f ⊆ i.find { f with ids }) ∧
      (∀ names, f.names ≠ [] → f.names ⊆ names → i.find f ⊆ i.find { f with names }) ∧
      (∀ categories, f.categories ≠ [] → f.categories ⊆ categories →
        i.find f ⊆ i.find { f with categories }) ∧
      (∀ countries, f.countries ≠ [] → f.countries ⊆ countries →
        i.find f ⊆ i.find { f with countries }) := by
  intro i
  have hsame : ∀ p, p ∈ i.parts ↔ LastAdded added p := fun _ => Inventory.mem_parts_stocked_iff
  refine ⟨(i.selects_find f).congr hsame, fun answer => ?_, fun tags h => ?_, fun ids hne h => ?_,
    fun names hne h => ?_, fun categories hne h => ?_, fun countries hne h => ?_⟩
  · rw [Inventory.mayFind_iff_selects]
    exact ⟨fun h => h.congr hsame, fun h => h.congr fun p => (hsame p).symm⟩
  · exact i.find_mono (.refl _) (.refl _) (.refl _) (.refl _) h
  · exact i.find_mono (.of_subset hne h) (.refl _) (.refl _) (.refl _) (List.Subset.refl _)
  · exact i.find_mono (.refl _) (.of_subset hne h) (.refl _) (.refl _) (List.Subset.refl _)
  · exact i.find_mono (.refl _) (.refl _) (.of_subset hne h) (.refl _) (List.Subset.refl _)
  · exact i.find_mono (.refl _) (.refl _) (.refl _) (.of_subset hne h) (List.Subset.refl _)

/-- The moment at which sketched parts are made. -/
def Part.sketchTime : Instant :=
  ⟨⟨2001, 9, 9, by decide⟩, 6400, 500000000, by decide, by decide, by decide⟩

/-- A part of which only its identifier, name, maker's country and tags matter. -/
def Part.sketch (number : BitVec 128) (name : String) (country : Option String)
    (tags : List String) : Part where
  id := ⟨⟨number⟩⟩
  name := name
  description := ""
  price := Money.zero
  stock := 0
  category := .unspecified
  dimensions := none
  manufacturer := country.map fun c => ⟨"", c, ""⟩
  tags := tags
  metadata := .empty
  createdAt := sketchTime
  updatedAt := sketchTime

/-- A part that was replaced by one from Germany with another tag: only the new one is found, also when
its tag is given twice or another country is allowed, and never the part without a manufacturer. -/
theorem catalog_search_replaced :
    let wing := Part.sketch 1 "Wing" none ["light"]
    let spar := Part.sketch 2 "Spar" none ["light"]
    let flap := Part.sketch 1 "Flap" (some "Germany") ["light", "movable"]
    let i := Inventory.stocked [wing, spar, flap]
    let f : PartsFilter := { PartsFilter.all with countries := ["Germany"], tags := ["light"] }
    (flap ∈ i.find f ∧ wing ∉ i.find f ∧ spar ∉ i.find f) ∧
      (f.tags ⊆ ["movable", "light"] ∧ i.find { f with tags := ["movable", "light"] } ⊆ i.find f) ∧
      (f.countries ≠ [] ∧ f.countries ⊆ ["USA", "Germany"] ∧
        flap ∈ i.find { f with countries := ["USA", "Germany"] }) := by
  intro wing spar flap i f
  obtain ⟨hfind, -, htags, -, -, -, hcountries⟩ := catalog_search [wing, spar, flap] f
  have hflap : flap ∈ i.find f := by
    refine (hfind.mem_iff flap).2 ⟨⟨[wing, spar], [], rfl, by simp⟩, ?_⟩
    exact ⟨by decide, by decide, by decide, fun _ => ⟨_, rfl, by decide⟩, by decide⟩
  have hcountry : ∀ p ∈ i.find f, p.manufacturer ≠ none := by
    intro p hp hnone
    obtain ⟨m, hm, -⟩ := ((hfind.mem_iff p).1 hp).2.country (by decide)
    exact absurd (hnone.symm.trans hm) (by simp)
  have hless : f.tags ⊆ ["movable", "light"] := by decide
  have hmore : f.countries ⊆ ["USA", "Germany"] := by decide
  exact ⟨⟨hflap, fun h => hcountry wing h rfl, fun h => hcountry spar h rfl⟩, ⟨hless, htags _ hless⟩,
    by decide, hmore, hcountries _ (by decide) hmore hflap⟩

end OrderDesk
