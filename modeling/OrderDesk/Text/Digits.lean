/-
# Positional numerals

Runs of digits: the value of a hexadecimal or decimal run, and the run of a value padded to a fixed
number of places. The decimal digits of a number without padding are `Nat.toDigits 10`.
-/

namespace OrderDesk.Digits

/-! ## Hexadecimal digits -/

/-- The value of a hexadecimal digit of either case. -/
def hexValue? (c : Char) : Option Nat :=
  if '0' ≤ c ∧ c ≤ '9' then some (c.toNat - 48)
  else if 'a' ≤ c ∧ c ≤ 'f' then some (c.toNat - 87)
  else if 'A' ≤ c ∧ c ≤ 'F' then some (c.toNat - 55)
  else none

/-- Whether a character is a hexadecimal digit of either case. -/
def isHex (c : Char) : Bool :=
  (hexValue? c).isSome

/-- The number a run of hexadecimal digits denotes; any other character counts as zero. -/
def hexNumber (cs : List Char) : Nat :=
  cs.foldl (fun n c => n * 16 + (hexValue? c).getD 0) 0

@[simp] theorem hexNumber_nil : hexNumber [] = 0 := rfl

/-- A further digit multiplies the number by sixteen and adds its own value. -/
theorem hexNumber_concat (cs : List Char) (c : Char) :
    hexNumber (cs ++ [c]) = hexNumber cs * 16 + (hexValue? c).getD 0 := by
  simp [hexNumber]

/-! ## Padded numerals -/

/-- The last `width` digits of a number in the given base, most significant first. -/
def padded (base : Nat) : Nat → Nat → List Char
  | 0, _ => []
  | width + 1, n => padded base width (n / base) ++ [Nat.digitChar (n % base)]

@[simp] theorem length_padded (base width n : Nat) : (padded base width n).length = width := by
  induction width generalizing n with
  | zero => rfl
  | succ w ih => simp [padded, ih]

/-! ## Decimal numerals -/

/-- The value of a one with the given number of zeros after it. -/
def powTen (zeros : Nat) : Nat :=
  Nat.pow 10 zeros

/-- The number a non-empty run of ASCII decimal digits denotes. -/
def decimal? (cs : List Char) : Option Nat :=
  if cs ≠ [] ∧ cs.all Char.isDigit then some (Nat.ofDigitChars 10 cs 0) else none

/-- Writing a number in decimal and reading it back gives the number. -/
@[simp] theorem decimal?_toDigits (n : Nat) : decimal? (Nat.toDigits 10 n) = some n := by
  have hd : (Nat.toDigits 10 n).all Char.isDigit = true := by
    rw [List.all_eq_true]
    intro c hc
    exact Nat.isDigit_of_mem_toDigits (by omega) (by omega) hc
  simp [decimal?, hd, Nat.toDigits_ne_nil]

/-- The decimal text of an integer: a minus sign for a negative one, then its digits. -/
def integer (i : Int) : List Char :=
  if i < 0 then '-' :: Nat.toDigits 10 i.natAbs else Nat.toDigits 10 i.natAbs

end OrderDesk.Digits
