/-
# Amounts of money

Prices and totals are whole numbers of cents in the range of 64-bit integers. Sums come in two kinds:
one that reports a result out of range and one that stops at the nearer end of it.

* `Money.add?` , `Money.ofUnits?` : nothing when the exact result does not fit;
* `Money.add` , `Money.increase` , `Money.ofUnits` : the exact result brought into range by `Money.clamp`;
* `Money.text` : units, a point and two digits of cents.

Arithmetic that leaves the range wraps around, as in a build without overflow checks; in this module it
is only the absolute value of the lowest amount that does.
-/
import OrderDesk.Text.Digits

namespace OrderDesk

/-- An amount in cents that a 64-bit integer can hold. -/
structure Money where
  cents : Int
  lower : Int64.minValue.toInt ≤ cents
  upper : cents ≤ Int64.maxValue.toInt
  deriving DecidableEq

namespace Money

@[ext] theorem ext {a b : Money} (h : a.cents = b.cents) : a = b := by
  cases a; cases b; cases h; rfl

theorem le_cents (m : Money) : -9223372036854775808 ≤ m.cents := m.lower

theorem cents_le (m : Money) : m.cents ≤ 9223372036854775807 := m.upper

/-! ## From numbers -/

/-- `from_cents` : the amount of a number of cents that fits. -/
def ofCents? (cents : Int) : Option Money :=
  if h : Int64.minValue.toInt ≤ cents ∧ cents ≤ Int64.maxValue.toInt then some ⟨cents, h.1, h.2⟩
  else none

/-- The amount nearest to a number of cents. -/
def clamp (cents : Int) : Money :=
  ⟨max Int64.minValue.toInt (min cents Int64.maxValue.toInt), Int.le_max_left _ _,
    Int.max_le.2 ⟨by decide, Int.min_le_right _ _⟩⟩

/-- No money. -/
def zero : Money := ⟨0, by decide, by decide⟩

/-- `checked_from_units` : the amount of a number of whole units that fits. -/
def ofUnits? (units : Int) : Option Money :=
  ofCents? (units * 100)

/-- `from_units` : the amount nearest to a number of whole units. -/
def ofUnits (units : Int) : Money :=
  clamp (units * 100)

theorem ofCents?_eq_some_iff {cents : Int} {m : Money} : ofCents? cents = some m ↔ m.cents = cents := by
  unfold ofCents?
  split
  · constructor
    · rintro h
      cases h
      rfl
    · intro h
      exact congrArg some (ext h.symm)
  · rename_i h
    constructor
    · intro h'
      cases h'
    · intro h'
      exact absurd ⟨h' ▸ m.lower, h' ▸ m.upper⟩ h

@[simp] theorem ofCents?_cents (m : Money) : ofCents? m.cents = some m :=
  ofCents?_eq_some_iff.2 rfl

theorem cents_clamp (cents : Int) :
    (clamp cents).cents = max (-9223372036854775808) (min cents 9223372036854775807) := rfl

@[simp] theorem clamp_cents (m : Money) : clamp m.cents = m := by
  have hl := m.le_cents
  have hu := m.cents_le
  apply ext
  rw [cents_clamp]
  omega

/-! ## Sums -/

/-- `checked_add` : the exact sum, if it fits. -/
def add? (a b : Money) : Option Money :=
  ofCents? (a.cents + b.cents)

/-- `add` : the amount nearest to the exact sum. -/
def add (a b : Money) : Money :=
  clamp (a.cents + b.cents)

instance : Add Money where
  add := add

/-- `add_assign` : adds an amount to a running total, which stays at the nearer end of the range if the sum
leaves it. -/
def increase (amount : Money) : StateM Money Unit :=
  modify fun total => clamp (total.cents + amount.cents)

/-! ## Parts and text -/

/-- `units` : the whole units, without the cents. -/
def units (m : Money) : Int :=
  m.cents.tdiv 100

/-- `cents_part`: the cents beside the whole units, without a sign. The lowest amount has no absolute
value in range and keeps its sign, so its cents are below zero. -/
def centsPart (m : Money) : Int :=
  ((Int64.ofIntLE m.cents m.lower m.upper).abs % 100).toInt

/-- `is_negative` : whether the amount is below zero. -/
def isNegative (m : Money) : Bool :=
  m.cents < 0

/-- An integer in at least two places, of which a minus sign takes one. -/
def twoPlaces (i : Int) : List Char :=
  if 0 ≤ i ∧ i < 100 then Digits.padded 10 2 i.toNat else Digits.integer i

/-- `fmt` : the displayed form, a sign for a negative amount, the whole units, a point and two places. -/
def text (m : Money) : String :=
  let amount := Nat.toDigits 10 m.units.natAbs ++ '.' :: twoPlaces m.centsPart
  String.ofList (if m.isNegative then '-' :: amount else amount)

/-! ## Order -/

instance : LE Money where
  le a b := a.cents ≤ b.cents

instance (a b : Money) : Decidable (a ≤ b) :=
  inferInstanceAs (Decidable (a.cents ≤ b.cents))

/-- Sorts amounts from the smallest on. -/
def sort (amounts : List Money) : List Money :=
  amounts.mergeSort fun a b => a ≤ b

end Money

end OrderDesk
