/-
# Messages

The bodies of requests and answers, with their JSON forms. Amounts are sent as floating-point numbers of
whole units.
-/
import OrderDesk.Wire.Order

namespace OrderDesk

/-- `as_f64` : an amount in whole units, as a floating-point number. -/
def Money.toDouble (m : Money) : Double :=
  (Double.ofInt m.cents).div (Double.ofInt 100)

/-! ## Requests -/

/-- `CreateOrderRequest` : a request for a new order; the identifiers are still texts. -/
structure NewOrder where
  user : String
  parts : List String
  deriving DecidableEq

/-- `PayOrderRequest` : a request to pay an order. -/
structure PaymentRequest where
  method : String
  deriving DecidableEq

/-! ## Answers -/

/-- `CreateOrderResponse` : the answer to a request for a new order. -/
structure CreatedOrder where
  order : OrderId
  total : Double
  deriving DecidableEq

/-- `PayOrderResponse` : the answer to a request to pay. -/
structure PaidOrder where
  transaction : TransactionId
  deriving DecidableEq

/-- `OrderResponse` : an order as it is shown. -/
structure OrderView where
  order : OrderId
  user : UserId
  parts : List PartId
  total : Double
  status : OrderStatus
  method : Option PaymentMethod
  transaction : Option TransactionId
  createdAt : Instant
  updatedAt : Instant
  deriving DecidableEq

/-- The view of an order. -/
def Order.view (o : Order) : OrderView where
  order := o.id
  user := o.user
  parts := o.parts
  total := o.total.toDouble
  status := o.status
  method := o.payment.map PaymentDetails.method
  transaction := o.payment.map PaymentDetails.transaction
  createdAt := o.createdAt
  updatedAt := o.updatedAt

/-! ## JSON forms -/

namespace Wire

instance : Wire NewOrder where
  write r := .object [("user_uuid", write r.user), ("part_uuids", writeList r.parts)]
  read := Fields.read <|
    NewOrder.mk <$> .required "user_uuid" read <*> .required "part_uuids" (Reader.list read)

instance : Wire PaymentRequest where
  write r := .object [("payment_method", write r.method)]
  read := Fields.read <| PaymentRequest.mk <$> .required "payment_method" read

instance : Wire CreatedOrder where
  write r := .object [("order_uuid", write r.order), ("total_price", write r.total)]
  read := Fields.read <|
    CreatedOrder.mk <$> .required "order_uuid" read <*> .required "total_price" read

instance : Wire PaidOrder where
  write r := .object [("transaction_uuid", write r.transaction)]
  read := Fields.read <| PaidOrder.mk <$> .required "transaction_uuid" read

instance : Wire OrderView where
  write v := .object [
    ("order_uuid", write v.order),
    ("user_uuid", write v.user),
    ("part_uuids", writeList v.parts),
    ("total_price", write v.total),
    ("status", write v.status),
    ("payment_method", writeOption v.method),
    ("transaction_uuid", writeOption v.transaction),
    ("created_at", write v.createdAt),
    ("updated_at", write v.updatedAt)]
  read := Fields.read <|
    OrderView.mk <$> .required "order_uuid" read <*> .required "user_uuid" read <*>
      .required "part_uuids" (Reader.list read) <*> .required "total_price" read <*>
      .required "status" read <*> .optional "payment_method" read <*>
      .optional "transaction_uuid" read <*>
      .required "created_at" read <*> .required "updated_at" read

end Wire

end OrderDesk
