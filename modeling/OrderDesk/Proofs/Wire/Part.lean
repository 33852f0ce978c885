/-
# Parts survive being written

The JSON value of a part is read as the same part, with every number to the bit and every metadata value
of the kind it had. The kind is not written: a truth value, a whole number, a floating-point number and
a text are told apart by their notation alone, also where a floating-point number is whole, or a text
looks like a number.

* `Metadata.ofList_perm` : the entries of a map make up the map in any order;
* `Part.Finite` : parts without infinite or undefined numbers;
* `Wire.reads_metadata` : metadata is read with the kinds of its values;
* `part_round_trip` : the same for whole parts.
-/
import OrderDesk.Wire.Catalog
import OrderDesk.Proofs.Wire.Basic
import Mathlib.Data.List.Perm.Basic

namespace OrderDesk

/-! ## Metadata in any order -/

namespace Metadata

/-- A new name adds its entry to the others. -/
theorem perm_insertEntry {name : String} {value : MetadataValue} {l : List (String × MetadataValue)}
    (h : name ∉ l.map Prod.fst) : (insertEntry name value l).Perm ((name, value) :: l) := by
  induction l with
  | nil => exact .refl _
  | cons e rest ih =>
      rw [List.map_cons, List.mem_cons, not_or] at h
      unfold insertEntry
      split
      · exact .refl _
      · rename_i hnot
        split
        · exact ((ih h.2).cons e).trans (.swap _ _ _)
        · rename_i hnot'
          exact absurd (String.le_antisymm hnot' hnot) h.1

/-- Entries with different names are those of the map that is made of them. -/
theorem perm_entries_ofList {l : List (String × MetadataValue)} (h : (l.map Prod.fst).Nodup) :
    (ofList l).entries.Perm l := by
  suffices hall : ∀ m : Metadata, ((m.entries ++ l).map Prod.fst).Nodup →
      (l.foldl (fun m e => m.insert e.1 e.2) m).entries.Perm (m.entries ++ l) by
    exact hall empty h
  clear h
  induction l with
  | nil => exact fun m _ => .of_eq (List.append_nil _).symm
  | cons e rest ih =>
      intro m hm
      have hfresh : e.1 ∉ m.entries.map Prod.fst := by
        rw [List.map_append, List.nodup_append] at hm
        intro hmem
        exact hm.2.2 e.1 hmem e.1 (by simp) rfl
      have hinsert : (m.insert e.1 e.2).entries.Perm (e :: m.entries) := perm_insertEntry hfresh
      have hmoved : ((m.insert e.1 e.2).entries ++ rest).Perm (m.entries ++ e :: rest) :=
        (hinsert.append_right rest).trans List.perm_middle.symm
      rw [List.foldl_cons]
      exact (ih _ ((hmoved.map Prod.fst).nodup_iff.2 hm)).trans hmoved

theorem nodup_entries (m : Metadata) : (m.entries.map Prod.fst).Nodup := by
  rw [List.Nodup, List.pairwise_map]
  refine m.sorted.imp ?_
  intro a b hlt heq
  rw [heq] at hlt
  exact String.lt_irrefl _ hlt

/-- The entries of a map make up the map in any order. -/
theorem ofList_perm {l : List (String × MetadataValue)} {m : Metadata} (h : l.Perm m.entries) :
    ofList l = m := by
  have hnodup : (l.map Prod.fst).Nodup := (h.map Prod.fst).nodup_iff.2 m.nodup_entries
  have hentries : (ofList l).entries = m.entries := by
    refine List.Perm.eq_of_pairwise (fun a b _ _ hab hba => ?_) (ofList l).sorted m.sorted
      ((perm_entries_ofList hnodup).trans h)
    exact absurd hba (String.lt_asymm hab)
  cases hm : ofList l
  cases m
  simp only [hm] at hentries
  simp only [hentries]

end Metadata

/-! ## Numbers -/

/-- Neither infinite nor undefined, where it is a floating-point number. -/
def MetadataValue.Finite : MetadataValue → Prop
  | .double x => x.isFinite = true
  | _ => True

instance : DecidablePred MetadataValue.Finite
  | .double x => inferInstanceAs (Decidable (x.isFinite = true))
  | .bool _ => .isTrue trivial
  | .int _ => .isTrue trivial
  | .string _ => .isTrue trivial

/-- All measures are finite numbers. -/
def Dimensions.Finite (d : Dimensions) : Prop :=
  d.length.isFinite ∧ d.width.isFinite ∧ d.height.isFinite ∧ d.weight.isFinite

instance (d : Dimensions) : Decidable d.Finite :=
  inferInstanceAs (Decidable (_ ∧ _ ∧ _ ∧ _))

/-- No number of the part is infinite or undefined. -/
def Part.Finite (p : Part) : Prop :=
  (∀ d ∈ p.dimensions, d.Finite) ∧ ∀ e ∈ p.metadata.entries, e.2.Finite

instance (p : Part) : Decidable p.Finite :=
  inferInstanceAs (Decidable (_ ∧ _))

namespace Wire

open Json (Reads drafting_toDraft reads_scalar reads_list reads_option reads_record)

variable {more : Bool}

/-- A finite number is read to the bit from a value. -/
theorem reads_double {x : Double} (h : x.isFinite = true) :
    Reads Json.toDraft more (write x) read x := by
  have hwrite : write x = Json.double x := if_pos h
  rw [hwrite]
  exact reads_scalar rfl rfl

theorem reads_text (s : String) : Reads Json.toDraft more (write s) read s :=
  reads_scalar rfl rfl

theorem reads_stock (i : Int64) :
    Reads Json.toDraft more (.int i.toInt) (fun d => (signed64 d).map Int64.ofInt) i := by
  refine reads_scalar rfl ?_
  have hbounds := And.intro i.minValue_le_toInt i.toInt_le
  simp only [signed64, Reader.integer, if_pos hbounds, Except.map, Int64.ofInt_toInt]

theorem reads_dimensions {d : Dimensions} (h : d.Finite) :
    Reads Json.toDraft more (write d) read d := by
  obtain ⟨hlength, hwidth, hheight, hweight⟩ := h
  refine reads_record drafting_toDraft (.seq (.seq (.seq (.map Dimensions.mk ?_) ?_) ?_) ?_) ?_ rfl
  · exact .required rfl (reads_double hlength)
  · exact .required rfl (reads_double hwidth)
  · exact .required rfl (reads_double hheight)
  · exact .required rfl (reads_double hweight)
  · simp

theorem reads_manufacturer (m : Manufacturer) : Reads Json.toDraft more (write m) read m := by
  refine reads_record drafting_toDraft (.seq (.seq (.map Manufacturer.mk ?_) ?_) ?_) ?_ rfl
  · exact .required rfl (reads_text m.name)
  · exact .required rfl (reads_text m.country)
  · exact .required rfl (reads_text m.website)
  · simp

/-! ## Metadata -/

/-- A metadata value is read as one of its kind. -/
theorem reads_metadataValue {v : MetadataValue} (h : v.Finite) (depth : Nat) :
    Reads Json.toDraft more (write v) (metadataValue depth) v := by
  cases v with
  | bool b => exact reads_scalar rfl rfl
  | int i =>
      refine reads_scalar rfl ?_
      have hbounds := And.intro i.minValue_le_toInt i.toInt_le
      simp only [metadataValue, metadataNumber, if_pos hbounds, Int64.ofInt_toInt]
  | double x =>
      have hwrite : write (MetadataValue.double x) = Json.double x := if_pos h
      rw [hwrite]
      exact reads_scalar rfl rfl
  | string s => exact reads_scalar rfl rfl

/-- The members of an object that are read one by one. -/
theorem members_of_forall₂ {read : Reader MetadataValue} {ws : List (String × Json)}
    {entries : List (String × MetadataValue)}
    (h : List.Forall₂ (fun w e => w.1 = e.1 ∧ read w.2.toDraft = .ok e.2) ws entries) :
    Reader.members read .closed (ws.map fun w => (.ok w.1, w.2.toDraft)) = .ok entries := by
  induction h with
  | nil => rfl
  | cons hw _ ih =>
      rw [List.map_cons, Reader.members, hw.2, ih, hw.1]
      rfl

theorem forall₂_of_restates {entries : List (String × MetadataValue)}
    (hfinite : ∀ e ∈ entries, e.2.Finite) {ws : List (String × Json)}
    (h : Json.RestatesMembers more (entries.map fun e => (e.1, write e.2)) ws) (depth : Nat) :
    List.Forall₂ (fun w e => w.1 = e.1 ∧ metadataValue depth w.2.toDraft = .ok e.2) ws entries := by
  induction entries generalizing ws with
  | nil =>
      cases h
      exact .nil
  | cons e rest ih =>
      cases h with
      | cons hw hrest =>
          have hvalue := reads_metadataValue (hfinite e List.mem_cons_self) depth _ hw
          exact .cons ⟨rfl, hvalue⟩ (ih (fun x hx => hfinite x (List.mem_cons_of_mem e hx)) hrest)

/-- Metadata is read with the kinds of its values, whichever way its entries are ordered. -/
theorem reads_metadata {m : Metadata} (h : ∀ e ∈ m.entries, e.2.Finite) :
    Reads Json.toDraft false (writeMetadata m) readMetadata m := by
  intro w hw
  cases hw with
  | @object _ kept others ws hkept hperm _ hmore =>
      rw [hmore rfl, List.append_nil] at hperm
      -- reading one by one does not mind the order, and neither does the map
      obtain ⟨entries, hread, hentries⟩ :=
        List.perm_comp_forall₂ hperm (forall₂_of_restates h hkept 2)
      rw [drafting_toDraft.object, readMetadata, Reader.map, members_of_forall₂ hread, Except.map,
        Metadata.ofList_perm hentries]

/-! ## Parts -/

theorem nodup_partMembers (p : Part) : ((partMembers p).map Prod.fst).Nodup := by
  have hnames : (partMembers p).map Prod.fst = partFields.names := rfl
  rw [hnames]
  decide

theorem reads_part {p : Part} (h : p.Finite) : Reads Json.toDraft false (write p) read p := by
  have hcategory : Reads Json.toDraft false (write p.category) read p.category :=
    reads_choice drafting_toDraft (Category.lookup_name p.category)
  have hdimensions : Reads Json.toDraft false (writeOption p.dimensions) (Reader.option read)
      p.dimensions :=
    reads_option drafting_toDraft (fun _ => ⟨_, rfl⟩) fun d hd => reads_dimensions (h.1 d hd)
  have hmanufacturer : Reads Json.toDraft false (writeOption p.manufacturer) (Reader.option read)
      p.manufacturer :=
    reads_option drafting_toDraft (fun _ => ⟨_, rfl⟩) fun m _ => reads_manufacturer m
  have htags : Reads Json.toDraft false (writeList p.tags) (Reader.list read) p.tags :=
    reads_list drafting_toDraft fun s _ => reads_text s
  refine reads_record drafting_toDraft (.seq (.seq (.seq (.seq (.seq (.seq (.seq (.seq (.seq (.seq (.seq
    (.map Part.mk ?_) ?_) ?_) ?_) ?_) ?_) ?_) ?_) ?_) ?_) ?_) ?_) (nodup_partMembers p) rfl
  · exact .required rfl (reads_id drafting_toDraft p.id)
  · exact .required rfl (reads_text p.name)
  · exact .required rfl (reads_text p.description)
  · exact .required rfl (reads_money drafting_toDraft p.price)
  · exact .required rfl (reads_stock p.stock)
  · exact .required rfl hcategory
  · exact .optional rfl hdimensions
  · exact .optional rfl hmanufacturer
  · exact .required rfl htags
  · exact .required rfl (reads_metadata h.2)
  · exact .required rfl (reads_instant drafting_toDraft p.createdAt)
  · exact .required rfl (reads_instant drafting_toDraft p.updatedAt)

end Wire

/-- Reading the value of a part gives the part back, with every metadata value of its kind and every
number to the bit: from the value with its members in the order of their names, as a map keeps them, and
from the value with the members of its objects in any other order. -/
theorem part_round_trip (p : Part) (h : p.Finite) :
    Reader.ofJson Wire.read (Wire.write p).sorted = .ok p ∧
      ∀ w, Json.Restates false (Wire.write p) w → Reader.ofJson Wire.read w = .ok p := by
  have hread : ∀ w, Json.Restates false (Wire.write p) w → Reader.ofJson Wire.read w = .ok p := by
    intro w hw
    rw [Reader.ofJson, Wire.reads_part h w hw]
    rfl
  exact ⟨hread _ (Json.restates_sorted false _), hread⟩

/-- A part with metadata of every kind that looks like another one: a whole floating-point number, one
below zero by its sign only, the largest one, and texts that look like a number and a truth value. -/
def Wire.lookalikes : Part where
  id := ⟨⟨2#128⟩⟩
  name := "Porthole"
  description := ""
  price := ⟨-1, by decide, by decide⟩
  stock := -9223372036854775808
  category := .porthole
  dimensions := some ⟨⟨9223372036854775808⟩, ⟨4607182418800017408⟩, ⟨1⟩, ⟨9218868437227405311⟩⟩
  manufacturer := none
  tags := ["round", "round"]
  metadata := ⟨[("a", .bool true), ("b", .int 1), ("c", .double ⟨4607182418800017408⟩),
    ("d", .double ⟨9223372036854775808⟩), ("e", .double ⟨9218868437227405311⟩), ("f", .string "1"),
    ("g", .string "true")], by decide⟩
  createdAt := ⟨⟨2024, 2, 29, by decide⟩, 3601, 125000000, by decide, by decide, by decide⟩
  updatedAt := ⟨⟨2024, 12, 31, by decide⟩, 59, 1500000000, by decide, by decide, by decide⟩

theorem part_round_trip_lookalikes :
    Wire.lookalikes.Finite ∧
      Reader.ofJson Wire.read (Wire.write Wire.lookalikes).sorted = .ok Wire.lookalikes := by
  have hfinite : Wire.lookalikes.Finite := by decide
  exact ⟨hfinite, (part_round_trip Wire.lookalikes hfinite).1⟩

end OrderDesk
