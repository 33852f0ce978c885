/-
# Shortest decimal text

The decimal text of a floating-point number with the fewest digits that read back as the same number,
and of those the nearest to it.

The reals that round to a finite number form an interval around it, with its ends exactly when the
significand is even. For 1, 2, … 17 digits the two neighbours of the number on that decimal grid are
tested against the interval; the first grid with a hit wins.
-/
import OrderDesk.Double.Basic
import OrderDesk.Text.Digits

namespace OrderDesk.Double

/-! ## The interval of a number -/

/-- The reals that round to a positive number, over one common denominator. -/
structure Interval where
  low : Nat
  value : Nat
  high : Nat
  denominator : Nat
  closed : Bool

/-- The interval of a finite number other than zero, without its sign. The step below a power of two is
half the step above it. -/
def interval (x : Double) : Interval :=
  let m := x.significand
  let below := if m = hiddenBit ∧ 0 < x.scale then 1 else 2
  ⟨(4 * m - below) <<< x.scale, (4 * m) <<< x.scale, (4 * m + 2) <<< x.scale, 4 <<< 1074, m % 2 = 0⟩

/-- Whether the decimal `d · 10 ^ e` lies in an interval. -/
def Interval.contains (i : Interval) (d : Nat) (e : Int) : Bool :=
  let n := d * Digits.powTen e.toNat * i.denominator
  let s := Digits.powTen (-e).toNat
  if i.closed then i.low * s ≤ n ∧ n ≤ i.high * s else i.low * s < n ∧ n < i.high * s

/-! ## Choosing the digits -/

/-- The exponent of the largest power of ten at most a positive quotient. -/
def floorLogTen (n d : Nat) : Int :=
  if d ≤ n then ((Nat.toDigits 10 (n / d)).length : Int) - 1
  else -((Nat.toDigits 10 ((d - 1) / n)).length : Int)

/-- The neighbour of a number on the grid of step `10 ^ e` that lies in its interval, the nearer one if
both do; of two equally near ones the even one. -/
def onGrid? (i : Interval) (e : Int) : Option Nat :=
  let n := i.value * Digits.powTen (-e).toNat
  let d := i.denominator * Digits.powTen e.toNat
  let below := n / d
  let r := n % d
  match i.contains below e, i.contains (below + 1) e with
  | true, true =>
      some (if 2 * r < d then below else if d < 2 * r then below + 1 else below + below % 2)
  | true, false => some below
  | false, true => some (below + 1)
  | false, false => none

/-- A whole number of powers of ten: `digits · 10 ^ exponent`. -/
structure Decimal where
  digits : Nat
  exponent : Int

/-- The first hit on the grids of 17 digits, 16 of them still finer than the leading one. -/
def search (i : Interval) (top : Int) : Nat → Decimal
  | 0 =>
      ⟨i.value * Digits.powTen (16 - top).toNat / (i.denominator * Digits.powTen (top - 16).toNat),
        top - 16⟩
  | left + 1 =>
      let e := top - (16 - left : Nat)
      match onGrid? i e with
      | some d => ⟨d, e⟩
      | none => search i top left

/-- The shortest decimal of a finite number other than zero, without its sign. -/
def shortest (x : Double) : Decimal :=
  let i := x.interval
  search i (floorLogTen i.value i.denominator) 17

/-! ## The text -/

/-- Positional notation starts at this exponent of ten of the leading digit. -/
def positionalFrom : Int := -5

/-- Positional notation ends before this exponent of ten of the leading digit. -/
def positionalTo : Int := 16

/-- The text of the digits with the leading one at the given exponent of ten: positional with at least
one decimal, or scientific with a signed exponent. -/
def layout (ds : List Char) (top : Int) : List Char :=
  if positionalFrom ≤ top ∧ top < positionalTo then
    if top < 0 then '0' :: '.' :: (List.replicate (-top - 1).toNat '0' ++ ds)
    else
      let whole := ds.take (top.toNat + 1)
      let rest := ds.drop (top.toNat + 1)
      whole ++ List.replicate (top.toNat + 1 - whole.length) '0' ++ '.' ::
        (if rest.isEmpty then ['0'] else rest)
  else
    let exponent := (if top < 0 then '-' else '+') :: Nat.toDigits 10 top.natAbs
    match ds with
    | [] => exponent
    | [d] => d :: 'e' :: exponent
    | d :: more => d :: '.' :: (more ++ 'e' :: exponent)

/-- The text of a finite number. -/
def text (x : Double) : List Char :=
  let sign := if x.isNegative then ['-'] else []
  if x.isZero then sign ++ ['0', '.', '0']
  else
    let decimal := x.shortest
    let all := Nat.toDigits 10 decimal.digits
    let ds := (all.reverse.dropWhile (· = '0')).reverse
    sign ++ layout ds (decimal.exponent + all.length - 1)

/-- The bit pattern in 16 lower-case hexadecimal digits. -/
def hexBits (x : Double) : String :=
  String.ofList (Digits.padded 16 16 x.bits.toNat)

end OrderDesk.Double
