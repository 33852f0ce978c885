/-
# Request paths

Which resource a request target names. A fixed segment has to stand in the path as it is; the segment of
an order identifier is decoded, and has to be UTF-8 then.
-/
import OrderDesk.Text.Digits

namespace OrderDesk

/-! ## Decoding -/

/-- The bytes of a text in which a percent sign and two hexadecimal digits stand for a byte. A percent
sign without them stands for itself. -/
def percentBytes : List Char → List UInt8
  | '%' :: a :: b :: rest =>
      match Digits.hexValue? a, Digits.hexValue? b with
      | some x, some y => UInt8.ofNat (x * 16 + y) :: percentBytes rest
      | _, _ => 37 :: percentBytes (a :: b :: rest)
  | c :: rest => String.utf8EncodeChar c ++ percentBytes rest
  | [] => []

/-- The text that a path segment stands for, if it is one. -/
def percentDecode? (segment : List Char) : Option String :=
  String.fromUTF8? ⟨(percentBytes segment).toArray⟩

/-! ## Resources -/

/-- The resources of the service. An order is named by its path segment as it stands. -/
inductive Resource
  | health
  | metrics
  | orders
  | order (segment : List Char)
  | payment (segment : List Char)
  | cancellation (segment : List Char)
  deriving DecidableEq

namespace Resource

/-- The segments of a path between its slashes. -/
def segments (cs : List Char) : List (List Char) :=
  cs.foldr (fun c acc =>
    if c = '/' then [] :: acc
    else
      match acc with
      | [] => [[c]]
      | s :: rest => (c :: s) :: rest) [[]]

/-- Whether a character may stand in the scheme of an absolute target. -/
def isScheme (c : Char) : Bool :=
  c.isAlphanum || c = '+' || c = '-' || c = '.' || c = '~'

/-- What follows the scheme and the authority of an absolute target; any other target as it is. -/
def afterAuthority (target : List Char) : List Char :=
  match target.dropWhile isScheme with
  | ':' :: '/' :: '/' :: rest => rest.dropWhile fun c => c ≠ '/' && c ≠ '?' && c ≠ '#'
  | _ => target

/-- The path of a request target, without the query and the fragment. -/
def pathOf (target : String) : List Char :=
  (afterAuthority target.toList).takeWhile fun c => c ≠ '?' && c ≠ '#'

/-- The resource that a request target names. The segment of an order may be empty, except at the end. -/
def ofTarget? (target : String) : Option Resource :=
  match (segments (pathOf target)).map String.ofList with
  | ["", "health"] => some health
  | ["", "metrics"] => some metrics
  | ["", "api", "v1", "orders"] => some orders
  | ["", "api", "v1", "orders", id] => if id = "" then none else some (order id.toList)
  | ["", "api", "v1", "orders", id, "pay"] => some (payment id.toList)
  | ["", "api", "v1", "orders", id, "cancel"] => some (cancellation id.toList)
  | _ => none

/-- Whether a resource is read; the others are posted to. -/
def isRead : Resource → Bool
  | health | metrics | order _ => true
  | orders | payment _ | cancellation _ => false

/-- The methods that a resource allows, as the `allow` header lists them. -/
def allowed (r : Resource) : String :=
  if r.isRead then "GET,HEAD" else "POST"

/-- Whether a resource allows a method. -/
def allows (r : Resource) (method : String) : Bool :=
  if r.isRead then method = "GET" || method = "HEAD" else method = "POST"

end Resource

end OrderDesk
