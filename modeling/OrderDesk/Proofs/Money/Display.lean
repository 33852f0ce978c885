/-
# Displayed amounts

An amount is displayed as a decimal of whole units with two places: the sign first, which an amount below
zero has even if it is less than a unit, then the units without zeros in front, then the cents. Read as a
decimal, the text is the amount again, to the cent.

* `Decimal.read?` : the number that a decimal text is;
* `Money.centsPart_eq` , `Money.natAbs_cents` : an amount is its units and its cents;
* `Money.toList_text` : the parts of the displayed text;
* `Money.read?_text` : the text is read as the amount;
* `money_display` : the whole.
-/
import OrderDesk.Money
import OrderDesk.Proofs.Text.Numerals
import Mathlib.Data.List.TakeWhile
import Mathlib.Algebra.Order.Ring.Rat
import Mathlib.Tactic.Ring

namespace OrderDesk

/-! ## Reading decimals -/

namespace Decimal

/-- The number that a text without a sign is: digits, a point, and digits again. -/
def unsigned? (cs : List Char) : Option ℚ := do
  let whole ← Digits.decimal? (cs.takeWhile (· ≠ '.'))
  let places := (cs.dropWhile (· ≠ '.')).drop 1
  let part ← Digits.decimal? places
  return (whole : ℚ) + part / 10 ^ places.length

/-- The number that a text is, with a minus sign in front or without. -/
def read? : List Char → Option ℚ
  | '-' :: rest => (unsigned? rest).map fun q => -q
  | cs => unsigned? cs

variable {whole places : List Char} {w p : Nat}

theorem unsigned?_of_denotes (hw : Digits.Denotes whole w) (hp : Digits.Denotes places p) :
    unsigned? (whole ++ '.' :: places) = some ((w : ℚ) + p / 10 ^ places.length) := by
  have hdigits : ∀ c ∈ whole, decide (c ≠ '.') = true := by
    intro c hc
    have hdigit := hw.isDigit.2 c hc
    rw [decide_eq_true_eq]
    rintro rfl
    cases hdigit
  have htake : (whole ++ '.' :: places).takeWhile (· ≠ '.') = whole := by
    rw [List.takeWhile_append_of_pos hdigits, List.takeWhile_cons_of_neg (by decide), List.append_nil]
  have hdrop : (whole ++ '.' :: places).dropWhile (· ≠ '.') = '.' :: places := by
    rw [List.dropWhile_append_of_pos hdigits, List.dropWhile_cons_of_neg (by decide)]
  simp only [unsigned?, htake, hdrop, List.drop_one, List.tail_cons,
    Digits.decimal?_eq_some_iff.2 hw, Digits.decimal?_eq_some_iff.2 hp]
  rfl

/-- A text that begins with a digit has no sign. -/
theorem read?_of_denotes (hw : Digits.Denotes whole w) (cs : List Char) :
    read? (whole ++ cs) = unsigned? (whole ++ cs) := by
  obtain ⟨hne, hdigits⟩ := hw.isDigit
  obtain ⟨c, rest, rfl⟩ := List.exists_cons_of_ne_nil hne
  have hc : c ≠ '-' := by
    rintro rfl
    cases hdigits '-' List.mem_cons_self
  rw [List.cons_append, read?]
  rintro _ ⟨⟩
  exact hc rfl

end Decimal

namespace Money

/-! ## The parts of an amount -/

theorem natAbs_units (m : Money) : m.units.natAbs = m.cents.natAbs / 100 :=
  Int.natAbs_tdiv m.cents 100

/-- The sign of a displayed amount. -/
def sign (m : Money) : List Char :=
  if m.cents < 0 then ['-'] else []

section Displayed

variable {m : Money} (h : m.cents ≠ -2 ^ 63)
include h

/-- Only the lowest amount has an absolute value out of range. -/
theorem toInt_abs : (Int64.ofIntLE m.cents m.lower m.upper).abs.toInt = m.cents.natAbs := by
  have hcents : (Int64.ofIntLE m.cents m.lower m.upper).toInt = m.cents := Int64.toInt_ofIntLE
  have hne : (Int64.ofIntLE m.cents m.lower m.upper).toBitVec ≠ BitVec.intMin 64 := by
    intro hmin
    apply h
    rw [← hcents, Int64.toInt, hmin]
    rfl
  rw [Int64.toInt, Int64.toBitVec_abs, BitVec.toInt_abs_eq_natAbs_of_ne_intMin hne, ← Int64.toInt,
    hcents]

theorem centsPart_eq : m.centsPart = (m.cents.natAbs % 100 : Nat) := by
  have hhundred : Int64.toInt 100 = 100 := rfl
  rw [centsPart, Int64.toInt_mod, toInt_abs h, hhundred]
  exact (Int.ofNat_tmod _ 100).symm

theorem centsPart_bounds : 0 ≤ m.centsPart ∧ m.centsPart < 100 := by
  rw [centsPart_eq h]
  omega

/-- An amount without its sign is a hundred cents for every unit, and the cents beside them. -/
theorem natAbs_cents : (m.cents.natAbs : Int) = m.units.natAbs * 100 + m.centsPart := by
  rw [natAbs_units, centsPart_eq h]
  omega

/-- The text of an amount is its sign, its units, a point and two digits of cents. -/
theorem toList_text :
    m.text.toList =
      m.sign ++ (Nat.toDigits 10 m.units.natAbs ++ '.' :: Digits.padded 10 2 m.centsPart.toNat) := by
  simp only [text, twoPlaces, if_pos (centsPart_bounds h), isNegative, String.toList_ofList,
    decide_eq_true_eq, sign]
  split <;> rfl

theorem denotes_centsPart :
    Digits.Denotes (Digits.padded 10 2 m.centsPart.toNat) m.centsPart.toNat := by
  have hbounds := centsPart_bounds h
  exact Digits.denotes_padded (by decide) (by omega)

/-! ## Reading an amount -/

/-- The text of an amount, read as a decimal, is the amount in units. -/
theorem read?_text : Decimal.read? m.text.toList = some (m.cents / 100 : ℚ) := by
  have hunits := Digits.denotes_toDigits m.units.natAbs
  have habs : (m.units.natAbs +
      m.centsPart.toNat / 10 ^ (Digits.padded 10 2 m.centsPart.toNat).length : ℚ) =
        m.cents.natAbs / 100 := by
    have hnat : m.cents.natAbs = m.units.natAbs * 100 + m.centsPart.toNat := by
      have hcents := natAbs_cents h
      have hbounds := centsPart_bounds h
      omega
    rw [Digits.length_padded, hnat]
    push_cast
    ring
  rw [toList_text h, sign]
  by_cases hneg : m.cents < 0
  · have hcents : (m.cents : ℚ) = -m.cents.natAbs := by
      have hint : m.cents = -(m.cents.natAbs : ℤ) := by omega
      rw [hint, Int.cast_neg, Int.cast_natCast, Int.natAbs_neg, Int.natAbs_natCast]
    rw [if_pos hneg, List.singleton_append, Decimal.read?,
      Decimal.unsigned?_of_denotes hunits (denotes_centsPart h), habs, Option.map_some, hcents, neg_div]
  · have hcents : (m.cents : ℚ) = m.cents.natAbs := by
      have hint : m.cents = (m.cents.natAbs : ℤ) := by omega
      rw [hint, Int.cast_natCast, Int.natAbs_natCast]
    rw [if_neg hneg, List.nil_append, Decimal.read?_of_denotes hunits,
      Decimal.unsigned?_of_denotes hunits (denotes_centsPart h), habs, hcents]

/-- Different amounts are displayed in different ways. -/
theorem text_injective {other : Money} (hother : other.cents ≠ -2 ^ 63) (hsame : other.text = m.text) :
    other = m := by
  have hread := read?_text hother
  rw [hsame, read?_text h, Option.some.injEq] at hread
  apply Money.ext
  have hcents : (m.cents : ℚ) = other.cents := (div_left_inj' (by norm_num)).1 hread
  exact_mod_cast hcents.symm

end Displayed

end Money

/-- How amounts are displayed. The lowest one is left out, which has no opposite among them. The text is a
minus sign, exactly if the amount is below zero, the digits of the units without zeros in front, a point,
and the two digits of the cents; read as a decimal, it is a hundredth of the cents, so no other amount has
this text; and the amount without its sign is a hundred cents for every unit and fewer than that beside
them. -/
theorem money_display : ∀ m : Money, m.cents ≠ -2 ^ 63 →
    (∃ sign whole tens ones, m.text.toList = sign ++ (whole ++ ['.', tens, ones]) ∧
      sign = (if m.cents < 0 then ['-'] else []) ∧
      Digits.Denotes whole m.units.natAbs ∧ (whole.head? = some '0' → whole = ['0']) ∧
      Digits.Denotes [tens, ones] m.centsPart.toNat) ∧
    (∃ q, Decimal.read? m.text.toList = some q ∧ q * 100 = m.cents) ∧
    (∀ other : Money, other.cents ≠ -2 ^ 63 → other ≠ m → other.text ≠ m.text) ∧
    (m.cents.natAbs : Int) = m.units.natAbs * 100 + m.centsPart ∧ 0 ≤ m.centsPart ∧
    m.centsPart < 100 := by
  intro m h
  refine ⟨⟨m.sign, Nat.toDigits 10 m.units.natAbs, _, _, Money.toList_text h, rfl,
    Digits.denotes_toDigits _, Digits.toDigits_eq_of_head?_eq_zero, Money.denotes_centsPart h⟩,
    ⟨_, Money.read?_text h, ?_⟩, fun other hother hne hsame => hne (Money.text_injective h hother hsame),
    Money.natAbs_cents h, Money.centsPart_bounds h⟩
  exact div_mul_cancel₀ _ (by norm_num)

/-- The absolute value of the lowest amount wraps around to the amount itself. -/
example : (Money.clamp (-2 ^ 63)).text.toList = "-92233720368547758.-8".toList := by
  decide

/-- Five cents below zero, which are no whole unit, and five cents. -/
theorem money_display_cents :
    let debt := Money.clamp (-5)
    let cents := Money.clamp 5
    (debt.cents ≠ -2 ^ 63 ∧ (∃ q, Decimal.read? "-0.05".toList = some q ∧ q * 100 = debt.cents)) ∧
      cents.cents ≠ -2 ^ 63 ∧ cents ≠ debt ∧ cents.text ≠ debt.text := by
  intro debt cents
  have hdebt : debt.cents ≠ -2 ^ 63 := by decide
  have hcents : cents.cents ≠ -2 ^ 63 := by decide
  have hne : cents ≠ debt := by decide
  have htext : debt.text.toList = "-0.05".toList := by decide
  obtain ⟨-, hread, hother, -⟩ := money_display debt hdebt
  exact ⟨⟨hdebt, htext ▸ hread⟩, hcents, hne, hother cents hcents hne⟩

end OrderDesk
