/-
# Written numbers are scanned as numbers

A number that is written as text is one number to the scanner, from its first character to its last:
whole numbers with all their digits, and floating-point numbers in either layout.

* `Scanner.Numbers` : texts that are numbers wherever a value may stand;
* `Scanner.numbers_integer` : whole numbers, with what is scanned of them;
* `Scanner.exists_numbers_text` : floating-point numbers;
* `Numeral.value?_integer` : a whole number of 64 bits, with or without a sign, denotes itself.
-/
import OrderDesk.Json.Printer
import OrderDesk.Json.Token
import OrderDesk.Proofs.Double.Shortest
import Mathlib.Algebra.Group.Int.Defs

namespace OrderDesk

namespace Scanner

/-! ## Numbers and their parts -/

/-- A text leads the scanner from where a value may stand into a number at a phase. -/
def Numbers (cs : List Char) (phase : NumeralPhase) (n : Numeral) : Prop :=
  ∀ ts, cs.foldl step ⟨ts, .between⟩ = ⟨ts, .number phase n⟩

variable {cs ds : List Char} {phase : NumeralPhase} {n : Numeral}

theorem step_number {next : NumeralPhase} {c : Char} (h : phase.step c = .more next)
    (ts : List Token) :
    step ⟨ts, .number phase n⟩ c = ⟨ts, .number next (n.push next c)⟩ := by
  simp only [step, h]

theorem Numbers.step {next : NumeralPhase} {c : Char} (hcs : Numbers cs phase n)
    (h : phase.step c = .more next) : Numbers (cs ++ [c]) next (n.push next c) := by
  intro ts
  rw [List.foldl_append, hcs ts]
  exact step_number h ts

/-- Digits go on with a phase that every digit goes on with. -/
theorem Numbers.digits (hcs : Numbers cs phase n) (hds : ∀ d ∈ ds, d.isDigit = true)
    (hphase : ∀ d : Char, d.isDigit = true → phase.step d = .more phase) :
    Numbers (cs ++ ds) phase (ds.foldl (fun m d => m.push phase d) n) := by
  induction ds generalizing cs n with
  | nil =>
      rw [List.append_nil]
      exact hcs
  | cons d ds ih =>
      rw [List.append_cons]
      exact ih (hcs.step (hphase d (hds d List.mem_cons_self)))
        fun e he => hds e (List.mem_cons_of_mem d he)

end Scanner

namespace NumeralPhase

/-! ## What digits and marks mean -/

theorem ne_of_isDigit {c d : Char} (h : c.isDigit = true) (hd : d.isDigit = false) : c ≠ d := by
  rintro rfl
  rw [h] at hd
  cases hd

variable {c : Char} (h : c.isDigit = true)
include h

theorem step_whole : whole.step c = .more whole := by
  simp [step, h, ne_of_isDigit h (d := '.') (by decide), ne_of_isDigit h (d := 'e') (by decide),
    ne_of_isDigit h (d := 'E') (by decide)]

theorem step_point : point.step c = .more fraction := by
  simp [step, h]

theorem step_fraction : fraction.step c = .more fraction := by
  simp [step, h, ne_of_isDigit h (d := 'e') (by decide), ne_of_isDigit h (d := 'E') (by decide)]

theorem step_markSign : markSign.step c = .more exponent := by
  simp [step, h]

theorem step_exponent : exponent.step c = .more exponent := by
  simp [step, h]

theorem step_sign (hc : c ≠ '0') : sign.step c = .more whole := by
  simp [step, h, hc]

end NumeralPhase

namespace Scanner

variable {cs ds : List Char} {phase : NumeralPhase} {n : Numeral}

/-- A digit other than zero begins a number. -/
theorem begin_digit {d : Char} (h : d.isDigit = true) (hd : d ≠ '0') (s : Scanner) :
    s.begin d = ⟨s.reversed, .number .whole ⟨false, [d], [], none⟩⟩ := by
  have hne : ∀ c : Char, c.isDigit = false → d ≠ c := fun c => NumeralPhase.ne_of_isDigit h
  simp [begin, isBlank, h, hd, hne ' ' (by decide), hne '\t' (by decide), hne '\n' (by decide),
    hne '\r' (by decide), hne '[' (by decide), hne ']' (by decide), hne '{' (by decide),
    hne '}' (by decide), hne ',' (by decide), hne ':' (by decide), hne '"' (by decide),
    hne 'n' (by decide), hne 't' (by decide), hne 'f' (by decide), hne '-' (by decide)]

/-- The digits before the point are all kept. -/
theorem foldl_push_whole (n : Numeral) (ds : List Char) :
    ds.foldl (fun m d => m.push .whole d) n = { n with whole := n.whole ++ ds } := by
  induction ds generalizing n with
  | nil => simp
  | cons d ds ih =>
      rw [List.foldl_cons, ih]
      simp [Numeral.push]

/-! ## Whole numbers -/

/-- The sign in front of a number. -/
def signChars (negative : Bool) : List Char :=
  if negative then ['-'] else []

theorem numbers_zero (negative : Bool) :
    Numbers (signChars negative ++ ['0']) .zero ⟨negative, ['0'], [], none⟩ := by
  cases negative <;> exact fun _ => rfl

/-- Digits that do not begin with zero are the digits before the point, with or without a sign. -/
theorem numbers_whole {d : Char} (hd : d ≠ '0') (hds : ∀ c ∈ d :: ds, c.isDigit = true)
    (negative : Bool) :
    Numbers (signChars negative ++ d :: ds) .whole ⟨negative, d :: ds, [], none⟩ := by
  have hfirst := hds d List.mem_cons_self
  have hhead : Numbers (signChars negative ++ [d]) .whole ⟨negative, [d], [], none⟩ := by
    cases negative with
    | false => exact fun ts => begin_digit hfirst hd _
    | true => exact fun ts => step_number (NumeralPhase.step_sign hfirst hd) ts
  have hall := hhead.digits (fun c hc => hds c (List.mem_cons_of_mem d hc))
    fun _ => NumeralPhase.step_whole
  rw [foldl_push_whole, List.append_assoc] at hall
  exact hall

/-- A whole number is scanned with all its digits. -/
theorem numbers_integer (i : Int) :
    ∃ phase, phase.isComplete = true ∧
      Numbers (Digits.integer i) phase ⟨i < 0, Nat.toDigits 10 i.natAbs, [], none⟩ := by
  have hsign : Digits.integer i = signChars (i < 0) ++ Nat.toDigits 10 i.natAbs := by
    unfold Digits.integer signChars
    by_cases hneg : i < 0 <;> simp [hneg]
  rw [hsign]
  by_cases hzero : i = 0
  · subst hzero
    exact ⟨.zero, rfl, numbers_zero false⟩
  · obtain ⟨d, ds, hdigits, hd⟩ := Digits.exists_toDigits_eq_cons (n := i.natAbs) (by omega)
    refine ⟨.whole, rfl, ?_⟩
    rw [hdigits]
    refine numbers_whole hd (fun c hc => ?_) _
    exact Digits.isDigit_of_mem_toDigits (hdigits ▸ hc)

/-! ## Floating-point numbers -/

/-- A point and at least one digit go on with digits before the point. -/
theorem Numbers.exists_point (hcs : Numbers cs phase n) (hphase : phase = .zero ∨ phase = .whole)
    (hne : ds ≠ []) (hds : ∀ d ∈ ds, d.isDigit = true) :
    ∃ m, Numbers (cs ++ '.' :: ds) .fraction m := by
  obtain ⟨d, ds, rfl⟩ := List.exists_cons_of_ne_nil hne
  have hpoint : phase.step '.' = .more .point := by
    rcases hphase with rfl | rfl <;> rfl
  have hfirst := (hcs.step hpoint).step (NumeralPhase.step_point (hds d List.mem_cons_self))
  have hall := hfirst.digits (fun c hc => hds c (List.mem_cons_of_mem d hc))
    fun _ => NumeralPhase.step_fraction
  rw [List.append_cons, List.append_cons]
  exact ⟨_, hall⟩

/-- A mark, a sign and at least one digit go on with digits. -/
theorem Numbers.exists_exponent (hcs : Numbers cs phase n)
    (hphase : phase = .zero ∨ phase = .whole ∨ phase = .fraction) {sign : Char}
    (hsign : sign = '+' ∨ sign = '-') (hne : ds ≠ []) (hds : ∀ d ∈ ds, d.isDigit = true) :
    ∃ m, Numbers (cs ++ 'e' :: sign :: ds) .exponent m := by
  obtain ⟨d, ds, rfl⟩ := List.exists_cons_of_ne_nil hne
  have hmark : phase.step 'e' = .more .mark := by
    rcases hphase with rfl | rfl | rfl <;> rfl
  have hmarkSign : NumeralPhase.mark.step sign = .more .markSign := by
    rcases hsign with rfl | rfl <;> rfl
  have hfirst := ((hcs.step hmark).step hmarkSign).step
    (NumeralPhase.step_markSign (hds d List.mem_cons_self))
  have hall := hfirst.digits (fun c hc => hds c (List.mem_cons_of_mem d hc))
    fun _ => NumeralPhase.step_exponent
  rw [List.append_cons, List.append_cons, List.append_cons]
  exact ⟨_, hall⟩

/-- Digits that do not begin with zero, with a point among them or in front of them, are a number. -/
theorem exists_numbers_positional {d : Char} (hd : d ≠ '0') (hds : ∀ c ∈ d :: ds, c.isDigit = true)
    (negative : Bool) {top : Int} (htop : Double.positionalFrom ≤ top ∧ top < Double.positionalTo) :
    ∃ m, Numbers (signChars negative ++ Double.layout (d :: ds) top) .fraction m := by
  have hzeros : ∀ k, ∀ c ∈ List.replicate k '0', c.isDigit = true := by
    intro k c hc
    rw [List.eq_of_mem_replicate hc]
    decide
  rw [Double.layout, if_pos htop]
  split
  · -- zeros after the point come first
    have hfraction : ∀ c ∈ List.replicate (-top - 1).toNat '0' ++ d :: ds, c.isDigit = true := by
      intro c hc
      rcases List.mem_append.1 hc with hc | hc
      · exact hzeros _ c hc
      · exact hds c hc
    obtain ⟨m, hm⟩ := (numbers_zero negative).exists_point (Or.inl rfl) (by simp) hfraction
    rw [List.append_assoc] at hm
    exact ⟨m, hm⟩
  · -- the first digits, with zeros up to the point, and the others or one zero after it
    have hwhole : ∀ c ∈ d :: (ds.take top.toNat ++
        List.replicate (top.toNat + 1 - ((d :: ds).take (top.toNat + 1)).length) '0'),
        c.isDigit = true := by
      intro c hc
      rcases List.mem_cons.1 hc with rfl | hc
      · exact hds _ List.mem_cons_self
      · rcases List.mem_append.1 hc with hc | hc
        · exact hds c (List.mem_cons_of_mem d (List.mem_of_mem_take hc))
        · exact hzeros _ c hc
    have hfraction : ∀ c ∈ if ((d :: ds).drop (top.toNat + 1)).isEmpty then ['0']
        else (d :: ds).drop (top.toNat + 1), c.isDigit = true := by
      split
      · simp
      · exact fun c hc => hds c (List.mem_of_mem_drop hc)
    obtain ⟨m, hm⟩ := (numbers_whole hd hwhole negative).exists_point (Or.inr rfl)
      (by split <;> simp_all) hfraction
    rw [List.append_assoc] at hm
    exact ⟨m, hm⟩

/-- Digits that do not begin with zero, the first before the point, are a number with an exponent. -/
theorem exists_numbers_scientific {d : Char} (hd : d ≠ '0') (hds : ∀ c ∈ d :: ds, c.isDigit = true)
    (negative : Bool) {top : Int}
    (htop : ¬(Double.positionalFrom ≤ top ∧ top < Double.positionalTo)) :
    ∃ m, Numbers (signChars negative ++ Double.layout (d :: ds) top) .exponent m := by
  have hexponent : ∀ c ∈ Nat.toDigits 10 top.natAbs, c.isDigit = true :=
    fun _ => Digits.isDigit_of_mem_toDigits
  have hsign : (if top < 0 then '-' else '+') = '+' ∨ (if top < 0 then '-' else '+') = '-' := by
    split <;> simp
  have hfirst : ∀ c ∈ [d], c.isDigit = true := by
    simpa using hds d List.mem_cons_self
  rw [Double.layout, if_neg htop]
  cases ds with
  | nil =>
      obtain ⟨m, hm⟩ := (numbers_whole hd hfirst negative).exists_exponent (Or.inr (Or.inl rfl))
        hsign Nat.toDigits_ne_nil hexponent
      rw [List.append_assoc] at hm
      exact ⟨m, hm⟩
  | cons e ds =>
      obtain ⟨n, hn⟩ := (numbers_whole hd hfirst negative).exists_point (Or.inr rfl)
        (List.cons_ne_nil e ds) fun c hc => hds c (List.mem_cons_of_mem d hc)
      obtain ⟨m, hm⟩ := hn.exists_exponent (Or.inr (Or.inr rfl)) hsign Nat.toDigits_ne_nil hexponent
      rw [List.append_assoc, List.append_assoc] at hm
      exact ⟨m, hm⟩

/-- A floating-point number is written as a number. -/
theorem exists_numbers_text (x : Double) :
    ∃ phase m, phase.isComplete = true ∧ Numbers x.text phase m := by
  have hsign : (if x.isNegative then ['-'] else []) = signChars x.isNegative := rfl
  simp only [Double.text, hsign]
  split
  · obtain ⟨m, hm⟩ := (numbers_zero x.isNegative).exists_point (Or.inl rfl)
      (List.cons_ne_nil '0' []) (by simp)
    refine ⟨.fraction, m, rfl, ?_⟩
    rw [List.append_assoc] at hm
    exact hm
  · rename_i hzero
    obtain ⟨d, ds, hstripped, hd, hds⟩ :=
      Double.exists_stripped (Double.shortest_digits_pos (Bool.eq_false_iff.2 hzero))
    rw [hstripped]
    generalize x.shortest.exponent + _ - 1 = top
    by_cases htop : Double.positionalFrom ≤ top ∧ top < Double.positionalTo
    · obtain ⟨m, hm⟩ := exists_numbers_positional hd hds x.isNegative htop
      exact ⟨.fraction, m, rfl, hm⟩
    · obtain ⟨m, hm⟩ := exists_numbers_scientific hd hds x.isNegative htop
      exact ⟨.exponent, m, rfl, hm⟩

end Scanner

/-- A whole number of 64 bits, with or without a sign, denotes itself. -/
theorem Numeral.value?_integer {i : Int} (hlow : -2 ^ 63 ≤ i) (hhigh : i < 2 ^ 64) :
    value? ⟨i < 0, Nat.toDigits 10 i.natAbs, [], none⟩ = some (.int i) := by
  simp only [value?, Nat.ofDigitChars_ten_toDigits, true_and, decide_eq_true_eq]
  by_cases hneg : i < 0
  · have hpos : 0 < i.natAbs := by omega
    have habs : -(i.natAbs : Int) = i := by omega
    have hfits : Int64.minValue.toInt ≤ -(i.natAbs : Int) := by rwa [habs]
    rw [if_neg fun h => h.2 hneg, if_pos ⟨hpos, hfits, hneg⟩, habs]
  · have hsmall : i.natAbs < 2 ^ 64 := by omega
    have habs : (i.natAbs : Int) = i := by omega
    rw [if_pos ⟨hsmall, hneg⟩, habs]

end OrderDesk
