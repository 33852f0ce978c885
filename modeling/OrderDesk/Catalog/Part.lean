/-
# Parts

The records of the catalog. The metadata of a part is a finite map from names to values of four kinds,
kept in the order of the names, so that equal maps are equal records.
-/
import OrderDesk.Identifier
import OrderDesk.Money
import OrderDesk.Double.Basic
import OrderDesk.Time.Instant

namespace OrderDesk

/-! ## Properties of a part -/

/-- What a part is for. -/
inductive Category
  | unspecified
  | engine
  | fuel
  | porthole
  | wing
  | shield
  deriving DecidableEq

namespace Category

/-- The name of a category. -/
def name : Category → String
  | unspecified => "UNSPECIFIED"
  | engine => "ENGINE"
  | fuel => "FUEL"
  | porthole => "PORTHOLE"
  | wing => "WING"
  | shield => "SHIELD"

/-- Every category with its name. -/
def names : List (String × Category) :=
  [unspecified, engine, fuel, porthole, wing, shield].map fun c => (c.name, c)

/-- Every name leads back to its category. -/
@[simp] theorem lookup_name (c : Category) : names.lookup c.name = some c := by
  cases c <;> decide

end Category

/-- The measures of a part. -/
structure Dimensions where
  length : Double
  width : Double
  height : Double
  weight : Double
  deriving DecidableEq

/-- Who makes a part. -/
structure Manufacturer where
  name : String
  country : String
  website : String
  deriving DecidableEq

/-! ## Metadata -/

/-- A value attached to a part. -/
inductive MetadataValue
  | bool (b : Bool)
  | int (i : Int64)
  | double (x : Double)
  | string (s : String)
  deriving DecidableEq

/-- A finite map from names to values, its entries in the order of their names. -/
structure Metadata where
  entries : List (String × MetadataValue)
  sorted : entries.Pairwise fun a b => a.1 < b.1
  deriving DecidableEq

namespace Metadata

/-- No entries. -/
def empty : Metadata := ⟨[], .nil⟩

/-- The entries with one more in its place, or with the value of its name replaced. -/
def insertEntry (name : String) (value : MetadataValue) :
    List (String × MetadataValue) → List (String × MetadataValue)
  | [] => [(name, value)]
  | e :: rest =>
      if name < e.1 then (name, value) :: e :: rest
      else if e.1 < name then e :: insertEntry name value rest
      else (name, value) :: rest

/-- Inserting adds no other name. -/
theorem mem_insertEntry {name : String} {value : MetadataValue} {l : List (String × MetadataValue)}
    {x : String × MetadataValue} (h : x ∈ insertEntry name value l) : x = (name, value) ∨ x ∈ l := by
  induction l with
  | nil => simpa [insertEntry] using h
  | cons e rest ih =>
      unfold insertEntry at h
      split at h
      · simpa using h
      · split at h
        · rcases List.mem_cons.1 h with h | h
          · exact Or.inr (h ▸ List.mem_cons_self)
          · exact (ih h).imp_right (List.mem_cons_of_mem _)
        · rcases List.mem_cons.1 h with h | h
          · exact Or.inl h
          · exact Or.inr (List.mem_cons_of_mem _ h)

/-- Inserting keeps the entries in order. -/
theorem pairwise_insertEntry {name : String} {value : MetadataValue}
    {l : List (String × MetadataValue)} (h : l.Pairwise fun a b => a.1 < b.1) :
    (insertEntry name value l).Pairwise fun a b => a.1 < b.1 := by
  induction l with
  | nil => simp [insertEntry]
  | cons e rest ih =>
      obtain ⟨he, hrest⟩ := List.pairwise_cons.1 h
      unfold insertEntry
      split
      · rename_i hlt
        refine List.pairwise_cons.2 ⟨fun x hx => ?_, h⟩
        rcases List.mem_cons.1 hx with hx | hx
        · exact hx ▸ hlt
        · exact String.lt_trans hlt (he x hx)
      · rename_i hnot
        split
        · rename_i hlt
          refine List.pairwise_cons.2 ⟨fun x hx => ?_, ih hrest⟩
          rcases mem_insertEntry hx with hx | hx
          · exact hx ▸ hlt
          · exact he x hx
        · rename_i hnot'
          have hname : name = e.1 := String.le_antisymm hnot' hnot
          exact List.pairwise_cons.2 ⟨fun x hx => hname ▸ he x hx, hrest⟩

/-- The map with one more entry, or with the value of its name replaced. -/
def insert (m : Metadata) (name : String) (value : MetadataValue) : Metadata :=
  ⟨insertEntry name value m.entries, pairwise_insertEntry m.sorted⟩

/-- The map of a list of entries; the last one of a name counts. -/
def ofList (entries : List (String × MetadataValue)) : Metadata :=
  entries.foldl (fun m e => m.insert e.1 e.2) empty

end Metadata

/-! ## Parts -/

/-- A part that can be ordered. -/
structure Part where
  id : PartId
  name : String
  description : String
  price : Money
  stock : Int64
  category : Category
  dimensions : Option Dimensions
  manufacturer : Option Manufacturer
  tags : List String
  metadata : Metadata
  createdAt : Instant
  updatedAt : Instant
  deriving DecidableEq

/-- What pricing an order needs to know of a part. -/
structure PartSnapshot where
  id : PartId
  price : Money
  deriving DecidableEq

/-- The snapshot of a part. -/
def Part.snapshot (p : Part) : PartSnapshot :=
  ⟨p.id, p.price⟩

end OrderDesk
