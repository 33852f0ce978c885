/-
# Number texts

The parts of a JSON number as they stand in a text, and the number they denote. Whole notation in the
range of 64-bit integers denotes an integer. Every other number is a floating-point number: as many
leading digits as fit into 64 bits form its significand, the others only count for the exponent.
-/
import OrderDesk.Json.Value

namespace OrderDesk

/-- A number as written: its sign, the digits before and after the point, and the digits of the
exponent of ten, with `true` for a negative exponent. -/
structure Numeral where
  negative : Bool
  whole : List Char
  fraction : List Char
  exponent : Option (Bool × List Char)

namespace Numeral

/-- Appends digits to a significand as long as it stays within 64 bits: the significand, and the digits
from the first one on that does not fit. -/
def absorb (significand : Nat) : List Char → Nat × List Char
  | [] => (significand, [])
  | c :: cs =>
      let longer := significand * 10 + (c.toNat - 48)
      if longer < UInt64.size then absorb longer cs else (significand, c :: cs)

/-- The significand and the exponent of ten of a number that is not in whole notation. -/
def scientific (n : Numeral) : Nat × Int :=
  let (wholePart, left) := absorb 0 n.whole
  let (significand, beyond) := absorb wholePart n.fraction
  let written : Int :=
    match n.exponent with
    | none => 0
    | some (true, ds) => -(Nat.ofDigitChars 10 ds 0 : Int)
    | some (false, ds) => Nat.ofDigitChars 10 ds 0
  (significand, left.length - (n.fraction.length - beyond.length) + written)

/-- The number denoted; nothing when it is beyond every floating-point number. -/
def value? (n : Numeral) : Option Number :=
  let digits := Nat.ofDigitChars 10 n.whole 0
  if n.fraction = [] ∧ n.exponent = none ∧ digits < UInt64.size ∧ ¬n.negative then some (.int digits)
  else if n.fraction = [] ∧ n.exponent = none ∧ 0 < digits ∧ Int64.minValue.toInt ≤ -digits ∧ n.negative then
    some (.int (-digits))
  else
    let (significand, exponent) := n.scientific
    (Double.ofDecimal? n.negative significand exponent).map .double

end Numeral

end OrderDesk
