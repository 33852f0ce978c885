/-
# Binary floating-point numbers

The 64-bit floating-point numbers as bit patterns, with rounding to the nearest one in exact integer
arithmetic. A finite number is a significand times a power of two; `Double.round` finds, for a quotient
of naturals, the number nearest to it, of two equally near ones the one with an even significand.
-/
import OrderDesk.Text.Digits

namespace OrderDesk

/-- A floating-point number of 64 bits: a sign, 11 bits of exponent and 52 bits of fraction. -/
structure Double where
  bits : UInt64
  deriving DecidableEq

namespace Double

/-! ## Reading the bit pattern -/

/-- The place value of the sign bit. -/
def signBit : Nat := 1 <<< 63

/-- The place value of the lowest exponent bit, which is also that of the leading bit of a significand
when the pattern does not hold it. -/
def hiddenBit : Nat := 1 <<< 52

/-- Whether the sign bit is set. -/
def isNegative (x : Double) : Bool :=
  signBit ≤ x.bits.toNat

/-- The bits below the sign. -/
def magnitude (x : Double) : Nat :=
  x.bits.toNat % signBit

/-- Whether the number is a zero of either sign. -/
def isZero (x : Double) : Bool :=
  x.magnitude = 0

/-- Whether the number is neither infinite nor undefined. -/
def isFinite (x : Double) : Bool :=
  x.magnitude < 2047 * hiddenBit

/-- The significand of a finite number. -/
def significand (x : Double) : Nat :=
  if x.magnitude < hiddenBit then x.magnitude else hiddenBit + x.magnitude % hiddenBit

/-- The exponent of two that goes with the significand, counted up from the smallest, `-1074`. -/
def scale (x : Double) : Nat :=
  x.magnitude / hiddenBit - 1

/-! ## Rounding -/

/-- The whole number nearest to a quotient, an even one when two are equally near. -/
def roundQuotient (n d : Nat) : Nat :=
  let q := n / d
  let r := n % d
  if 2 * r < d then q else if d < 2 * r then q + 1 else q + q % 2

/-- The number with a sign and a magnitude pattern; a pattern beyond the largest finite one stands for
infinity. -/
def ofMagnitude (negative : Bool) (magnitude : Nat) : Double :=
  ⟨UInt64.ofNat (min magnitude (2047 * hiddenBit) + if negative then signBit else 0)⟩

/-- The exponent of the largest power of two at most the quotient of two positive numbers. -/
def floorLog (n d : Nat) : Int :=
  let k : Int := (n.log2 : Int) - d.log2
  if n <<< (-k).toNat < d <<< k.toNat then k - 1 else k

/-- The number nearest to a quotient, with the given sign. -/
def round (negative : Bool) (n d : Nat) : Double :=
  if n = 0 then ofMagnitude negative 0
  else
    let q : Int := max (floorLog n d - 52) (-1074)
    let m := roundQuotient (n <<< (-q).toNat) (d <<< q.toNat)
    ofMagnitude negative ((q + 1074).toNat * hiddenBit + m)

/-- The number nearest to an integer. -/
def ofInt (i : Int) : Double :=
  round (i < 0) i.natAbs 1

/-! ## Products and quotients -/

/-- The number nearest to the exact product of two finite numbers. -/
def mul (x y : Double) : Double :=
  round (x.isNegative != y.isNegative) ((x.significand * y.significand) <<< (x.scale + y.scale))
    (1 <<< 2148)

/-- The number nearest to the exact quotient of two finite numbers, the second not zero. -/
def div (x y : Double) : Double :=
  round (x.isNegative != y.isNegative) (x.significand <<< x.scale) (y.significand <<< y.scale)

/-! ## Powers of ten -/

/-- The largest exponent of ten that is still a finite number. -/
def maxTen : Nat := 308

/-- The number nearest to a power of ten. -/
def ten (e : Nat) : Double :=
  round false (Digits.powTen e) 1

/-- Divides by a power of ten, in steps of the largest finite one. -/
def downTen (x : Double) (e : Nat) : Double :=
  if e ≤ maxTen then x.div (ten e)
  else if x.isZero then x
  else downTen (x.div (ten maxTen)) (e - maxTen)
termination_by e
decreasing_by simp only [maxTen] at *; omega

/-- The number that decimal notation with a significand and an exponent of ten denotes: the significand
is rounded first, then multiplied or divided by the power of ten. Nothing when the result is too
large. -/
def ofDecimal? (negative : Bool) (significand : Nat) (exponent : Int) : Option Double :=
  let x := round negative significand 1
  if exponent < 0 then some (x.downTen exponent.natAbs)
  else if x.isZero ∧ maxTen < exponent.natAbs then some x
  else if maxTen < exponent.natAbs then none
  else
    let y := x.mul (ten exponent.natAbs)
    if y.isFinite then some y else none

end Double

end OrderDesk
