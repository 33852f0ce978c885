/-
# JSON values

Values of the JSON data format. Integers and floating-point numbers are kept apart, and an object keeps
the order of its members.
-/
import OrderDesk.Double.Basic

namespace OrderDesk

/-! ## Values -/

/-- A number, by the notation it has. -/
inductive Number
  | int (i : Int)
  | double (x : Double)
  deriving DecidableEq

/-- A value without parts. -/
inductive Scalar
  | null
  | bool (b : Bool)
  | number (n : Number)
  | string (s : String)
  deriving DecidableEq

/-- A JSON value. -/
inductive Json
  | scalar (s : Scalar)
  | array (items : List Json)
  | object (members : List (String × Json))

namespace Json

/-- The value `null`. -/
@[match_pattern] abbrev null : Json := .scalar .null

/-- A truth value. -/
@[match_pattern] abbrev bool (b : Bool) : Json := .scalar (.bool b)

/-- A whole number. -/
@[match_pattern] abbrev int (i : Int) : Json := .scalar (.number (.int i))

/-- A floating-point number. -/
@[match_pattern] abbrev double (x : Double) : Json := .scalar (.number (.double x))

/-- A text. -/
@[match_pattern] abbrev string (s : String) : Json := .scalar (.string s)

/-- The value of a result that may be absent. -/
def ofOption {α : Type} (f : α → Json) : Option α → Json
  | none => null
  | some a => f a

/-! ## Objects -/

/-- The members of an object with one more, which takes the place of an earlier one of its name. -/
def insertMember (members : List (String × Json)) (name : String) (value : Json) :
    List (String × Json) :=
  if members.any (·.1 = name) then members.map fun m => if m.1 = name then (name, value) else m
  else members ++ [(name, value)]

/-- The member of an object with a name. -/
def get? (name : String) : Json → Option Json
  | object members => members.lookup name
  | _ => none

mutual

/-- The same value with the members of every object in the order of their names. -/
def sorted : Json → Json
  | scalar s => scalar s
  | array items => array (sortedItems items)
  | object members => object ((sortedMembers members).mergeSort fun a b => a.1 ≤ b.1)

/-- Sorts within every item. -/
def sortedItems : List Json → List Json
  | [] => []
  | v :: rest => sorted v :: sortedItems rest

/-- Sorts within every member. -/
def sortedMembers : List (String × Json) → List (String × Json)
  | [] => []
  | (name, v) :: rest => (name, sorted v) :: sortedMembers rest

end

end Json

end OrderDesk
