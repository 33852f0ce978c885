/-
# The inventory service

`InMemoryInventoryService`, a catalog of parts, at most one for an identifier, and `list_parts`, which
answers price requests from it. A request is counted when it arrives; whether it fails is decided then, its
answer is taken from the catalog when its latency is over.

* `Inventory.find` : the parts that meet a filter, in the order of their names;
* `Inventory.snapshots` : the snapshots of the listed parts that exist.
-/
import OrderDesk.Catalog.Filter
import OrderDesk.Gateway
import OrderDesk.Keyed

namespace OrderDesk

/-- The inventory service: `fails` is set by `set_fail_on_list`, `latency` by `set_latency`, and `calls` is
its `call_count`. -/
structure Inventory where
  parts : List Part
  distinct : (parts.map Part.id).Nodup
  fails : Bool
  latency : Span
  calls : Nat

namespace Inventory

/-- The service without parts. -/
def empty : Inventory := ⟨[], .nil, false, ⟨0⟩, 0⟩

/-! ## The catalog -/

/-- `add_part` : adds a part, in the place of an earlier one of its identifier. -/
def add (i : Inventory) (p : Part) : Inventory :=
  { i with
    parts := Keyed.put Part.id p i.parts
    distinct := Keyed.nodup_put Part.id i.distinct }

/-- `get_part` : the part of an identifier. -/
def get? (i : Inventory) (id : PartId) : Option Part :=
  Keyed.find? Part.id id i.parts

/-- Whether a part comes before another in an answer: by name, and under one name by identifier. -/
def precedes (p q : Part) : Bool :=
  p.name < q.name ∨ (p.name = q.name ∧ p.id ≤ q.id)

/-- `find_parts` : the parts that meet a filter, in the order of their names. -/
def find (i : Inventory) (f : PartsFilter) : List Part :=
  (i.parts.filter f.matchesPart).mergeSort precedes

/-- The snapshots of the listed parts that exist. No identifiers stand for no parts, although an empty
criterion is met by every part. -/
def snapshots (i : Inventory) (ids : List PartId) : List PartSnapshot :=
  if ids = [] then [] else (i.find (.byIds ids)).map Part.snapshot

/-! ## The service -/

/-- `list_parts` up to its latency: counts a request that arrives. -/
def arrive (i : Inventory) : Inventory :=
  { i with calls := i.calls + 1 }

/-- `list_parts` from its latency on: the answer to a request that was, or was not, to fail on arrival. -/
def answer (i : Inventory) (failed : Bool) (ids : List PartId) :
    Except GatewayError (List PartSnapshot) :=
  if failed then .error (.unavailable "inventory service unreachable") else .ok (i.snapshots ids)

end Inventory

end OrderDesk
