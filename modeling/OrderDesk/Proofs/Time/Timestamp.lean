/-
# The displayed form of an instant is read back

Every instant has one displayed form: a year with a sign only where it needs one, a fraction of as few
digits as lose nothing, second 60 for a leap second, and `Z`. The reader takes many other forms; of this
one it gets the same instant, whatever the year, the fraction and the second.

* `Timestamp.digits?_append` : a run of digits is taken up to the character that ends it;
* `Timestamp.year?_yearChars`, `Timestamp.fraction?_fractionChars` : the two parts of varying length;
* `Instant.parse?_text` : the displayed form of an instant names it.
-/
import OrderDesk.Time.Timestamp
import OrderDesk.Proofs.Text.Digits

namespace OrderDesk

namespace Timestamp

/-! ## Runs of digits -/

theorem isBlank_of_isDigit {c : Char} (h : c.isDigit = true) : isBlank c = false := by
  have hlow : 48 ≤ c.toNat := by
    rw [Char.isDigit, Bool.and_eq_true, decide_eq_true_eq] at h
    exact UInt32.le_iff_toNat_le.1 h.1
  have hhigh : c.toNat ≤ 57 := by
    rw [Char.isDigit, Bool.and_eq_true, decide_eq_true_eq, decide_eq_true_eq] at h
    exact UInt32.le_iff_toNat_le.1 h.2
  simp only [isBlank, Bool.or_eq_false_iff, Bool.and_eq_false_iff, decide_eq_false_iff_not]
  omega

theorem trim_cons {c : Char} (h : isBlank c = false) (cs : List Char) : trim (c :: cs) = c :: cs := by
  simp [trim, h]

theorem trim_digits {ds : List Char} (hne : ds ≠ []) (hds : ∀ c ∈ ds, c.isDigit = true)
    (cs : List Char) : trim (ds ++ cs) = ds ++ cs := by
  cases ds with
  | nil => exact absurd rfl hne
  | cons d ds => exact trim_cons (isBlank_of_isDigit (hds d List.mem_cons_self)) _

/-- A run of digits is taken up to the character that ends it. -/
theorem digits?_append {most : Nat} {ds : List Char} {c : Char} (hne : ds ≠ [])
    (hds : ∀ d ∈ ds, d.isDigit = true) (hmost : ds.length ≤ most) (hc : c.isDigit = false)
    (rest : List Char) : digits? most (ds ++ c :: rest) = some (ds, c :: rest) := by
  have hrest : ((c :: rest).take (most - ds.length)).takeWhile Char.isDigit = [] := by
    cases most - ds.length with
    | zero => rfl
    | succ n => simp [hc]
  have htaken : ((ds ++ c :: rest).take most).takeWhile Char.isDigit = ds := by
    rw [List.take_append, List.take_of_length_le hmost, List.takeWhile_append_of_pos hds, hrest,
      List.append_nil]
  simp only [digits?, htaken, if_neg hne, List.drop_left]

/-- A number of two places is read up to the character that ends it. -/
theorem number?_padded {n : Nat} {c : Char} (hn : n < 100) (hc : c.isDigit = false)
    (rest : List Char) :
    number? 2 (Digits.padded 10 2 n ++ c :: rest) = some (n, c :: rest) := by
  have hds : ∀ d ∈ Digits.padded 10 2 n, d.isDigit = true := fun _ => Digits.isDigit_of_mem_padded
  have hne : Digits.padded 10 2 n ≠ [] := by simp [Digits.padded]
  rw [number?, trim_digits hne hds, digits?_append hne hds (by simp) hc]
  have hmod : n % 10 ^ 2 = n := Nat.mod_eq_of_lt hn
  simp only [Option.bind_eq_bind, Option.bind_some, Digits.ofDigitChars_padded, hmod]
  rfl

/-! ## Years and fractions -/

theorem year?_minus (cs : List Char) :
    year? ('-' :: cs) =
      (digits? cs.length cs).map fun p => (-(Nat.ofDigitChars 10 p.1 0 : Int), p.2) := by
  rw [year?, trim_cons (by decide)]
  simp only [Option.bind_eq_bind]
  cases digits? cs.length cs <;> rfl

theorem year?_plus (cs : List Char) :
    year? ('+' :: cs) =
      (digits? cs.length cs).map fun p => ((Nat.ofDigitChars 10 p.1 0 : Int), p.2) := by
  rw [year?, trim_cons (by decide)]
  simp only [Option.bind_eq_bind]
  cases digits? cs.length cs <;> rfl

theorem year?_digit {d : Char} (hd : d.isDigit = true) (cs : List Char) :
    year? (d :: cs) =
      (digits? 4 (d :: cs)).map fun p => ((Nat.ofDigitChars 10 p.1 0 : Int), p.2) := by
  rw [year?, trim_cons (isBlank_of_isDigit hd)]
  split
  · rename_i h
    cases h
    cases hd
  · rename_i h
    cases h
    cases hd
  · cases digits? 4 (d :: cs) <;> rfl

/-- The digits of a year, without its sign. -/
theorem exists_yearDigits (n : Nat) :
    ∃ d ds, (if n < 10000 then Digits.padded 10 4 n else Nat.toDigits 10 n) = d :: ds ∧
      (∀ c ∈ d :: ds, c.isDigit = true) ∧ Nat.ofDigitChars 10 (d :: ds) 0 = n ∧
      (n < 10000 → (d :: ds).length ≤ 4) := by
  by_cases hn : n < 10000
  · obtain ⟨d, ds, hdigits⟩ := List.exists_cons_of_length_eq_add_one (Digits.length_padded 10 4 n)
    rw [if_pos hn, hdigits]
    refine ⟨d, ds, rfl, fun c hc => ?_, ?_, fun _ => ?_⟩
    · exact Digits.isDigit_of_mem_padded (hdigits ▸ hc)
    · have hmod : n % 10 ^ 4 = n := Nat.mod_eq_of_lt hn
      rw [← hdigits, Digits.ofDigitChars_padded, hmod]
    · exact Nat.le_of_eq (hdigits ▸ Digits.length_padded 10 4 n)
  · rw [if_neg hn]
    obtain ⟨d, ds, hdigits, -⟩ := Digits.exists_toDigits_eq_cons (n := n) (by omega)
    rw [hdigits]
    refine ⟨d, ds, rfl, fun c hc => ?_, ?_, fun h => absurd h hn⟩
    · exact Digits.isDigit_of_mem_toDigits (hdigits ▸ hc)
    · rw [← hdigits]
      exact Nat.ofDigitChars_toDigits (by decide) (by decide)

/-- A year is read up to the hyphen that ends it. -/
theorem year?_yearChars (year : Int) (rest : List Char) :
    year? (Instant.yearChars year ++ '-' :: rest) = some (year, '-' :: rest) := by
  obtain ⟨d, ds, hyear, hds, hvalue, hfour⟩ := exists_yearDigits year.natAbs
  have htaken : ∀ most, (d :: ds).length ≤ most →
      digits? most (d :: ds ++ '-' :: rest) = some (d :: ds, '-' :: rest) := by
    intro most hmost
    exact digits?_append (List.cons_ne_nil _ _) hds hmost (by decide) rest
  simp only [Instant.yearChars, hyear]
  by_cases hneg : year < 0
  · rw [if_pos hneg, List.cons_append, year?_minus, htaken _ (by simp)]
    simp only [Option.map_some, hvalue]
    rw [show -(year.natAbs : Int) = year by omega]
  · have habs : (year.natAbs : Int) = year := by omega
    rw [if_neg hneg]
    by_cases hlarge : 9999 < year
    · rw [if_pos hlarge, List.cons_append, year?_plus, htaken _ (by simp)]
      simp only [Option.map_some, hvalue, habs]
    · rw [if_neg hlarge, List.cons_append, year?_digit (hds d List.mem_cons_self)]
      rw [← List.cons_append, htaken 4 (hfour (by omega))]
      simp only [Option.map_some, hvalue, habs]

/-- The digits of a fraction stand for its nanoseconds, at most nine of them. -/
theorem fraction?_padded {width n nano : Nat} {c : Char} (hpos : 0 < width) (hwidth : width ≤ 9)
    (hn : n < 10 ^ width) (hnano : n * 10 ^ (9 - width) = nano) (hc : c.isDigit = false)
    (rest : List Char) :
    fraction? ('.' :: Digits.padded 10 width n ++ c :: rest) = some (nano, c :: rest) := by
  have hlength := Digits.length_padded 10 width n
  have hne : Digits.padded 10 width n ≠ [] := by
    intro h
    rw [h] at hlength
    exact absurd hlength (Nat.ne_of_lt hpos)
  simp only [fraction?, List.cons_append]
  rw [digits?_append hne (fun _ => Digits.isDigit_of_mem_padded) (by simp) hc]
  simp only [Option.bind_eq_bind, Option.bind_some]
  rw [List.take_of_length_le (by omega), hlength, Digits.ofDigitChars_padded, Nat.mod_eq_of_lt hn,
    Digits.powTen_eq, hnano]
  rfl

/-- Nothing of a fraction and the letter after it continues the number in front. -/
theorem exists_fractionChars_append (nano : Nat) (rest : List Char) :
    ∃ c cs, Instant.fractionChars nano ++ 'Z' :: rest = c :: cs ∧ c.isDigit = false := by
  unfold Instant.fractionChars
  split
  · exact ⟨_, _, rfl, by decide⟩
  · split
    · exact ⟨_, _, rfl, by decide⟩
    · split <;> exact ⟨_, _, rfl, by decide⟩

/-- A fraction is read up to the letter after it. -/
theorem fraction?_fractionChars {nano : Nat} (hnano : nano < 1000000000) (rest : List Char) :
    fraction? (Instant.fractionChars nano ++ 'Z' :: rest) = some (nano, 'Z' :: rest) := by
  unfold Instant.fractionChars
  split
  · rename_i hzero
    rw [hzero]
    rfl
  · split
    · exact fraction?_padded (by decide) (by decide) (by omega) (by omega) (by decide) rest
    · split
      · exact fraction?_padded (by decide) (by decide) (by omega) (by omega) (by decide) rest
      · exact fraction?_padded (by decide) (by decide) (by omega) (by omega) (by decide) rest

/-! ## The parts of the displayed form -/

theorem date?_text (d : Date) (rest : List Char) :
    date? (Instant.yearChars d.year ++ '-' :: Digits.padded 10 2 d.month ++
      '-' :: Digits.padded 10 2 d.day ++ 'T' :: rest) = some (d, 'T' :: rest) := by
  have hmonth : d.month < 100 := by
    have := d.valid.2.1.2
    omega
  have hday : d.day < 100 := by
    have hle := d.valid.2.2.2
    have hlength : monthLength d.year d.month ≤ 31 := by
      unfold monthLength
      split
      · split <;> decide
      all_goals decide
    omega
  simp only [List.append_assoc, List.cons_append, date?, year?_yearChars, Option.bind_eq_bind,
    Option.bind_some]
  rw [trim_cons (by decide)]
  simp only [after?, if_true, Option.bind_some]
  rw [number?_padded hmonth (by decide), Option.bind_some, trim_cons (by decide)]
  simp only [if_true, Option.bind_some]
  rw [number?_padded hday (by decide)]
  simp [Date.of?_self]

/-- The time of day is read up to the letter after it; what is shown as second 60 is a leap second. -/
theorem time?_text (t : Instant) (rest : List Char) :
    time? (Digits.padded 10 2 (t.second / 3600) ++
      ':' :: Digits.padded 10 2 (t.second / 60 % 60) ++
      ':' :: Digits.padded 10 2 t.shownSecond ++
      Instant.fractionChars (t.nano % 1000000000) ++ 'Z' :: rest) =
        some (t.second, t.nano, 'Z' :: rest) := by
  have hsecond := t.second_lt
  have hnano := t.nano_lt
  have hshown : t.shownSecond ≤ 60 := by
    unfold Instant.shownSecond
    split <;> omega
  obtain ⟨c, cs, hfraction, hc⟩ := exists_fractionChars_append (t.nano % 1000000000) rest
  simp only [List.append_assoc, List.cons_append, time?, Option.bind_eq_bind]
  rw [number?_padded (by omega) (by decide), Option.bind_some, trim_cons (by decide)]
  simp only [after?, if_true, Option.bind_some]
  rw [number?_padded (by omega) (by decide), Option.bind_some, trim_cons (by decide)]
  simp only [if_true, Option.bind_some]
  rw [hfraction, number?_padded (by omega) hc, Option.bind_some]
  simp only
  rw [← hfraction, fraction?_fractionChars (by omega)]
  simp only [Option.bind_some]
  rw [if_pos ⟨by omega, by omega, hshown⟩]
  -- a leap second is the last second of its minute with a billion nanoseconds more
  by_cases hleap : 1000000000 ≤ t.nano
  · have hlast := t.leap hleap
    rw [if_pos (by rw [Instant.shownSecond, if_pos hleap]; omega)]
    congr 2
    · omega
    · congr 1
      omega
  · have hsame : t.shownSecond = t.second % 60 := if_neg hleap
    rw [if_neg (by omega), hsame]
    congr 2
    · omega
    · congr 1
      omega

end Timestamp

/-- Local clocks that are not ahead show the instant itself. -/
theorem Instant.ofLocal?_zero (t : Instant) : ofLocal? t.date t.second t.nano 0 = some t := by
  have hsecond := t.second_lt
  simp only [ofLocal?, Int.zero_mul, Int.sub_zero]
  rw [if_neg (by omega), if_neg (by omega), Int.toNat_natCast, of?_self]

/-- The displayed form of an instant names it. -/
theorem Instant.parse?_text (t : Instant) : parse? t.text = some t := by
  have hdate := Timestamp.date?_text t.date
  have htime := Timestamp.time?_text t []
  simp only [List.append_assoc, List.cons_append] at hdate htime
  simp only [parse?, text, String.toList_ofList, List.append_assoc, List.cons_append, hdate,
    Option.bind_eq_bind, Option.bind_some]
  rw [show Timestamp.separator? _ = some _ from rfl, Option.bind_some, htime, Option.bind_some]
  have hoffset : Timestamp.offset? ['Z'] = some (0, []) := by decide
  simp only [hoffset, Option.bind_some]
  rw [if_pos (by decide), ofLocal?_zero]

end OrderDesk
