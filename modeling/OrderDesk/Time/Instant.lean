/-
# Instants

A moment in universal time to the nanosecond. A leap second is the second after the last one of a
minute; it is kept as that last second with a billion nanoseconds more.
-/
import OrderDesk.Time.Date
import OrderDesk.Text.Digits

namespace OrderDesk

/-- A moment: its day, its second of that day, and its nanosecond. -/
structure Instant where
  date : Date
  second : Nat
  nano : Nat
  second_lt : second < 86400
  nano_lt : nano < 2000000000
  leap : 1000000000 ≤ nano → second % 60 = 59
  deriving DecidableEq

namespace Instant

/-! ## Construction -/

/-- The moment of a day at a second and a nanosecond. -/
def of? (date : Date) (second nano : Nat) : Option Instant :=
  if h : second < 86400 ∧ nano < 2000000000 ∧ (1000000000 ≤ nano → second % 60 = 59) then
    some ⟨date, second, nano, h.1, h.2.1, h.2.2⟩
  else none

@[simp] theorem of?_self (t : Instant) : of? t.date t.second t.nano = some t :=
  dif_pos ⟨t.second_lt, t.nano_lt, t.leap⟩

/-- The moment that local clocks ahead of universal time by so many minutes show as the given one. -/
def ofLocal? (date : Date) (second nano : Nat) (ahead : Int) : Option Instant :=
  let universal := (second : Int) - ahead * 60
  if universal < 0 then do of? (← date.previous?) (universal + 86400).toNat nano
  else if 86400 ≤ universal then do of? (← date.next?) (universal - 86400).toNat nano
  else of? date universal.toNat nano

/-! ## Order -/

/-- A number that grows with the moment. -/
def rank (t : Instant) : Int :=
  (t.date.rank * 86400 + t.second) * 2000000000 + t.nano

instance : LE Instant where
  le a b := a.rank ≤ b.rank

instance (a b : Instant) : Decidable (a ≤ b) :=
  inferInstanceAs (Decidable (a.rank ≤ b.rank))

/-! ## Text -/

/-- A year: four digits, and a sign when it is outside 0 to 9999. -/
def yearChars (year : Int) : List Char :=
  let digits := if year.natAbs < 10000 then Digits.padded 10 4 year.natAbs
    else Nat.toDigits 10 year.natAbs
  if year < 0 then '-' :: digits else if 9999 < year then '+' :: digits else digits

/-- The fraction of a second in the fewest of 0, 3, 6 and 9 digits that lose nothing. -/
def fractionChars (nano : Nat) : List Char :=
  if nano = 0 then []
  else if nano % 1000000 = 0 then '.' :: Digits.padded 10 3 (nano / 1000000)
  else if nano % 1000 = 0 then '.' :: Digits.padded 10 6 (nano / 1000)
  else '.' :: Digits.padded 10 9 nano

/-- The second of the minute as shown: 60 for a leap second. -/
def shownSecond (t : Instant) : Nat :=
  if 1000000000 ≤ t.nano then t.second % 60 + 1 else t.second % 60

/-- The displayed form, in universal time. -/
def text (t : Instant) : String :=
  String.ofList <|
    yearChars t.date.year ++ '-' :: Digits.padded 10 2 t.date.month ++
      '-' :: Digits.padded 10 2 t.date.day ++
      'T' :: Digits.padded 10 2 (t.second / 3600) ++
      ':' :: Digits.padded 10 2 (t.second / 60 % 60) ++
      ':' :: Digits.padded 10 2 t.shownSecond ++
      fractionChars (t.nano % 1000000000) ++ ['Z']

end Instant

end OrderDesk
