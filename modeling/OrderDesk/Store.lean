/-
# The order store

`InMemoryOrderStore`, a finite map from identifiers to order records. Every accepted write gives the record
the next version; a conditional write is accepted only if the stored version is the one it expects. A
record that does not exist counts as being at version 0. Each operation holds the lock from its first look
at the map to its end, so it is one step here.

* `Store.get?` : the view of the store, a record for some identifiers;
* `Store.get?_set` : a write changes the view at one identifier;
* `Store.put` : the new store and version, or the reason why nothing was written.
-/
import OrderDesk.Order.Basic
import OrderDesk.Keyed

namespace OrderDesk

/-! ## Refusals -/

/-- Why the store has no record to give or does not take one. -/
inductive StoreError
  | notFound (id : OrderId)
  | conflict (id : OrderId) (expected actual : Version)
  deriving DecidableEq

/-- The wording of a refusal. -/
def StoreError.message : StoreError → String
  | notFound id => "Order not found: " ++ id.text
  | conflict id expected actual =>
      "Concurrency conflict for order " ++ id.text ++ ": expected version " ++ expected.text ++
        ", found " ++ actual.text

/-! ## Records -/

/-- Order records, at most one for an identifier. -/
structure Store where
  records : List Order
  distinct : (records.map Order.id).Nodup

namespace Store

/-- The store without records. -/
def empty : Store := ⟨[], .nil⟩

/-- The record of an identifier. -/
def get? (s : Store) (id : OrderId) : Option Order :=
  Keyed.find? Order.id id s.records

/-- `len` : the number of records. -/
def size (s : Store) : Nat :=
  s.records.length

/-- `is_empty` : whether there is no record at all. -/
def isEmpty (s : Store) : Bool :=
  s.records.isEmpty

/-- The store with a record put in, whatever it held before. -/
def set (s : Store) (o : Order) : Store :=
  ⟨Keyed.put Order.id o s.records, Keyed.nodup_put Order.id s.distinct⟩

@[simp] theorem get?_empty (id : OrderId) : empty.get? id = none := rfl

/-- A put is seen under its own identifier and nowhere else. -/
theorem get?_set (s : Store) (o : Order) (id : OrderId) :
    (s.set o).get? id = if o.id = id then some o else s.get? id :=
  Keyed.find?_put Order.id o id s.records

/-- A record is stored under its own identifier. -/
theorem id_of_get? {s : Store} {id : OrderId} {o : Order} (h : s.get? id = some o) : o.id = id :=
  Keyed.key_of_find? Order.id h

/-! ## Reading and writing -/

/-- `get` : the record of an identifier, or the reason why there is none. -/
def get (s : Store) (id : OrderId) : Except StoreError Order :=
  match s.get? id with
  | some o => .ok o
  | none => .error (.notFound id)

/-- The version of the record of an identifier. -/
def versionOf (s : Store) (id : OrderId) : Version :=
  ((s.get? id).map Order.version).getD .initial

/-- `put` : writes an order with the next version, unless another version than the expected one of its
`PutOptions` is stored. -/
def put (s : Store) (o : Order) (expected : Option Version) : Except StoreError (Store × Version) :=
  let current := s.versionOf o.id
  match expected with
  | some v =>
      if current = v then .ok (s.set (o.withVersion current.next), current.next)
      else .error (.conflict o.id v current)
  | none => .ok (s.set (o.withVersion current.next), current.next)

/-- `insert_new` : writes an order that must not be stored yet. -/
def insertNew (s : Store) (o : Order) : Except StoreError (Store × Version) :=
  s.put o (some .initial)

/-- `update` : writes an order back if its record is still at the version that the copy carries. -/
def update (s : Store) (o : Order) : Except StoreError (Store × Version) :=
  s.put o (some o.version)

end Store

end OrderDesk
