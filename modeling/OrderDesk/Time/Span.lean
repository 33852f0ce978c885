/-
# Spans of time

Lengths of time in nanoseconds, as they bound a call to another service. Timers count whole
milliseconds, so a span is rounded up to them before it is compared.
-/
import OrderDesk.Text.Digits

namespace OrderDesk

/-- A length of time in nanoseconds. -/
structure Span where
  nanos : Nat
  deriving DecidableEq

namespace Span

/-- A number of milliseconds. -/
def ofMillis (ms : Nat) : Span :=
  ⟨ms * 1000000⟩

/-- The whole milliseconds that a timer counts for a span. -/
def timerMillis (s : Span) : Nat :=
  (s.nanos + 999999) / 1000000

@[simp] theorem timerMillis_ofMillis (ms : Nat) : (ofMillis ms).timerMillis = ms := by
  simp only [ofMillis, timerMillis]
  omega

/-! ## Text -/

/-- The digits after the point of `part / 10 ^ places`, without zeros at the end. -/
def decimals (places part : Nat) : List Char :=
  match places with
  | 0 => []
  | places + 1 =>
      if part = 0 then []
      else Nat.digitChar (part / Digits.powTen places) :: decimals places (part % Digits.powTen places)

/-- A quotient by a power of ten as an exact decimal with a unit. -/
def inUnit (nanos places : Nat) (unit : String) : String :=
  let whole := Nat.toDigits 10 (nanos / Digits.powTen places)
  let rest := decimals places (nanos % Digits.powTen places)
  String.ofList (if rest = [] then whole else whole ++ '.' :: rest) ++ unit

/-- The displayed form: an exact decimal in the largest unit that has a whole part. -/
def text (s : Span) : String :=
  if 1000000000 ≤ s.nanos then inUnit s.nanos 9 "s"
  else if 1000000 ≤ s.nanos then inUnit s.nanos 6 "ms"
  else if 1000 ≤ s.nanos then inUnit s.nanos 3 "µs"
  else inUnit s.nanos 0 "ns"

end Span

end OrderDesk
