/-
# Pricing an order

The part of `try_create_order` between the answer of `list_parts` and `Order.place`: the total of the
requested parts, every occurrence counted, or the first of these problems: a negative price, parts without
an answer, a total out of range.
-/
import OrderDesk.Desk.Failure
import OrderDesk.Catalog.Part

namespace OrderDesk.Pricing

/-- The identifiers that `list_parts` is asked for: the requested ones without repetitions, in the order
of their first occurrence. -/
def distinct (parts : List PartId) : List PartId :=
  parts.eraseDups

/-- The price that an answer gives for a part, the last one if it gives several: prices are collected in
a map by identifier. -/
def price? (snapshots : List PartSnapshot) (id : PartId) : Option Money :=
  (snapshots.reverse.find? (·.id = id)).map PartSnapshot.price

/-- The requested identifiers that an answer gives no price for. -/
def missing (snapshots : List PartSnapshot) (parts : List PartId) : List PartId :=
  (distinct parts).filter fun id => (price? snapshots id).isNone

/-- The sum of amounts by `checked_add` from zero on, as long as every sum on the way fits. -/
def sum? (amounts : List Money) : Option Money :=
  amounts.foldlM Money.add? Money.zero

/-- The total of the requested parts at the prices of an answer. -/
def total (snapshots : List PartSnapshot) (parts : List PartId) : Except OrderError Money :=
  match snapshots.find? (·.price.isNegative) with
  | some bad =>
      .error <| .inventoryUnavailable <|
        "part " ++ bad.id.text ++ " has negative price " ++ bad.price.text
  | none =>
      if missing snapshots parts ≠ [] then .error (.partsNotFound (missing snapshots parts))
      else
        match sum? (parts.filterMap (price? snapshots)) with
        | some amount => .ok amount
        | none => .error .totalTooLarge

end OrderDesk.Pricing
