/-
# Payment methods

The closed set of ways to pay, each with the exact name that a client asks for it by.
-/

namespace OrderDesk

/-- A way to pay. -/
inductive PaymentMethod
  | card
  | sbp
  | creditCard
  | investorMoney
  deriving DecidableEq

namespace PaymentMethod

/-- The name of a method. -/
def name : PaymentMethod → String
  | card => "CARD"
  | sbp => "SBP"
  | creditCard => "CREDIT_CARD"
  | investorMoney => "INVESTOR_MONEY"

/-- Every method, in the order of their introduction. -/
def all : List PaymentMethod := [card, sbp, creditCard, investorMoney]

/-- Every method with its name. -/
def names : List (String × PaymentMethod) :=
  all.map fun m => (m.name, m)

/-- The method that has exactly this name, as `from_str` reads it. -/
def ofName? (name : String) : Option PaymentMethod :=
  names.lookup name

/-- Every name leads back to its method. -/
@[simp] theorem ofName?_name (m : PaymentMethod) : ofName? m.name = some m := by
  cases m <;> decide

/-- What is said about a name that no method has. -/
def unsupportedMessage (requested : String) : String :=
  "Payment method " ++ requested ++ " is not supported"

end PaymentMethod

end OrderDesk
