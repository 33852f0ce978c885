/-
# Searching parts

A filter has five criteria and a part has to meet every one. An empty criterion is met by every part. A
list of identifiers, names, categories or countries is met by a part with any of them, a list of tags
only by a part with all of them.
-/
import OrderDesk.Catalog.Part

namespace OrderDesk

/-- A condition on parts. -/
structure PartsFilter where
  ids : List PartId
  names : List String
  categories : List Category
  countries : List String
  tags : List String
  deriving DecidableEq

namespace PartsFilter

/-- The filter that every part meets. -/
def all : PartsFilter := ⟨[], [], [], [], []⟩

/-- `by_ids` : the filter on identifiers alone. -/
def byIds (ids : List PartId) : PartsFilter :=
  { all with ids }

/-- Whether a list of allowed values, if there are any, has a value. -/
def admits {α : Type} [DecidableEq α] (allowed : List α) (a : α) : Bool :=
  allowed.isEmpty || allowed.contains a

/-- `matches` : whether a part meets every criterion. -/
def matchesPart (f : PartsFilter) (p : Part) : Bool :=
  admits f.ids p.id && admits f.names p.name && admits f.categories p.category &&
    (match p.manufacturer with
      | some m => admits f.countries m.country
      | none => f.countries.isEmpty) &&
    f.tags.all p.tags.contains

@[simp] theorem matchesPart_all (p : Part) : all.matchesPart p = true := by
  simp only [matchesPart, all, admits]
  cases p.manufacturer <;> rfl

end PartsFilter

end OrderDesk
