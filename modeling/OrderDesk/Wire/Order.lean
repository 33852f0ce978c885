/-
# Orders in JSON

The JSON form of an order and its parts. The version may be left out for an order that was never
written.
-/
import OrderDesk.Order.Basic
import OrderDesk.Wire.Basic

namespace OrderDesk.Wire

/-- Statuses are their names. -/
instance : Wire OrderStatus where
  write s := .string s.name
  read := Reader.choice OrderStatus.names

/-- Payment methods are their names. -/
instance : Wire PaymentMethod where
  write m := .string m.name
  read := Reader.choice PaymentMethod.names

instance : Wire PaymentDetails where
  write p := .object [("method", write p.method), ("transaction_id", write p.transaction)]
  read := Fields.read <|
    PaymentDetails.mk <$> .required "method" read <*> .required "transaction_id" read

/-- The members of the object that an order is written as. -/
def orderMembers (o : Order) : List (String × Json) := [
  ("id", write o.id),
  ("user_id", write o.user),
  ("part_ids", writeList o.parts),
  ("total_price", write o.total),
  ("status", write o.status),
  ("payment", writeOption o.payment),
  ("version", write o.version),
  ("created_at", write o.createdAt),
  ("updated_at", write o.updatedAt)]

/-- The description of an order. -/
def orderFields : Fields Order :=
  Order.mk <$> .required "id" read <*> .required "user_id" read <*>
    .required "part_ids" (Reader.list read) <*> .required "total_price" read <*>
    .required "status" read <*> .optional "payment" read <*>
    .withDefault "version" read Version.initial <*>
    .required "created_at" read <*> .required "updated_at" read

instance : Wire Order where
  write o := .object (orderMembers o)
  read := orderFields.read

end OrderDesk.Wire
