/-
# Texts between quotes

How a text may stand between quotes, by the grammar of JSON: a character stands for itself, or as a
letter or a number after a backslash, or as a pair of numbers. All spellings are read alike, and what is
written for a text is one of them.

* `Json.Spells` , `Json.Literal` : the spellings of a character and of a text;
* `Json.literal_escape` : what is written for a text spells it;
* `Scanner.foldl_hex` : the number of an escape is read digit by digit;
* `Scanner.foldl_literal` : what spells a text is read as this text.
-/
import OrderDesk.Json.Printer
import OrderDesk.Json.Token
import OrderDesk.Proofs.Text.Digits
import Mathlib.Tactic.SplitIfs

namespace OrderDesk

namespace Json

/-! ## Spellings -/

/-- Four hexadecimal digits of a number. -/
structure FourHex (digits : List Char) (n : Nat) : Prop where
  length : digits.length = 4
  hex : ∀ d ∈ digits, Digits.isHex d = true
  number : Digits.hexNumber digits = n

/-- What may stand after a backslash for a character. -/
inductive Escape (c : Char) : List Char → Prop
  | letter {e : Char} : StringScan.unescape? e = some c → Escape c [e]
  | unit {digits : List Char} : FourHex digits c.toNat → Escape c ('u' :: digits)
  | pair {high low : List Char} {h l : Nat} : FourHex high h → FourHex low l →
      0xd800 ≤ h → h ≤ 0xdbff → 0xdc00 ≤ l → l ≤ 0xdfff →
      c.toNat = 0x10000 + (h - 0xd800) * 0x400 + (l - 0xdc00) →
      Escape c ('u' :: (high ++ '\\' :: 'u' :: low))

/-- The spellings of a character between quotes. -/
inductive Spells (c : Char) : List Char → Prop
  | plain : c ≠ '"' → c ≠ '\\' → 32 ≤ c.toNat → Spells c [c]
  | escaped {cs : List Char} : Escape c cs → Spells c ('\\' :: cs)

/-- The spellings of a text: one of each character after the other. -/
inductive Literal : List Char → List Char → Prop
  | nil : Literal [] []
  | cons {c : Char} {text spelling inside : List Char} :
      Spells c spelling → Literal text inside → Literal (c :: text) (spelling ++ inside)

/-- The number of a character is no surrogate. -/
theorem not_surrogate (c : Char) : c.toNat < 0xd800 ∨ 0xdfff < c.toNat := by
  rcases c.valid with h | h
  · exact Or.inl h
  · exact Or.inr h.1

/-- No letter after a backslash announces a number. -/
theorem ne_u_of_unescape? {c e : Char} (h : StringScan.unescape? e = some c) : e ≠ 'u' := by
  rintro rfl
  cases h

/-! ## Written texts -/

/-- A letter after a backslash may stand for the number of a character. -/
theorem Spells.of_toNat {c e : Char} {n : Nat} (h : c.toNat = n)
    (he : StringScan.unescape? e = some (Char.ofNat n)) : Spells c ['\\', e] := by
  rw [← h, Char.ofNat_toNat] at he
  exact .escaped (.letter he)

/-- What is written for a character spells it. -/
theorem spells_escape (c : Char) : Spells c (escape c) := by
  unfold escape
  split_ifs with hquote hslash hplain hback htab hline hpage hreturn
  · subst hquote
    exact .escaped (.letter rfl)
  · subst hslash
    exact .escaped (.letter rfl)
  · exact .plain hquote hslash hplain
  · exact .of_toNat hback rfl
  · exact .of_toNat htab rfl
  · exact .of_toNat hline rfl
  · exact .of_toNat hpage rfl
  · exact .of_toNat hreturn rfl
  · -- the other control characters
    refine .escaped (.unit ⟨Digits.length_padded 16 4 _, ?_, ?_⟩)
    · exact fun d hd => Digits.isHex_of_mem_padded hd
    · rw [Digits.hexNumber_padded]
      omega

theorem literal_escape (text : List Char) : Literal text (text.flatMap escape) := by
  induction text with
  | nil => exact .nil
  | cons c rest ih => exact .cons (spells_escape c) ih

end Json

/-! ## Digits of an escape -/

namespace Digits

theorem utf8Size_of_isHex {c : Char} (h : isHex c = true) : c.utf8Size = 1 := by
  rw [Char.utf8Size_eq_one_iff, UInt32.le_iff_toNat_le]
  unfold isHex hexValue? at h
  split_ifs at h with hdigit hlower hupper
  · exact Nat.le_trans (UInt32.le_iff_toNat_le.1 hdigit.2) (by decide)
  · exact Nat.le_trans (UInt32.le_iff_toNat_le.1 hlower.2) (by decide)
  · exact Nat.le_trans (UInt32.le_iff_toNat_le.1 hupper.2) (by decide)
  · cases h

/-- Hexadecimal digits are bytes. -/
theorem utf8ByteSize_of_isHex {cs : List Char} (h : ∀ c ∈ cs, isHex c = true) :
    (String.ofList cs).utf8ByteSize = cs.length := by
  induction cs with
  | nil => rfl
  | cons c cs ih =>
      have hc := utf8Size_of_isHex (h c List.mem_cons_self)
      have hcs := ih fun d hd => h d (List.mem_cons_of_mem c hd)
      simp [hc, hcs, Nat.add_comm]

end Digits

/-! ## Reading -/

namespace Scanner

open Json

/-- The last of the digits of a number completes it, and the digits before it are kept. -/
theorem foldl_hex (ts : List Token) (t : StringScan) {seen digits : List Char} (hne : digits ≠ [])
    (hlength : (seen ++ digits).length = 4) (hhex : ∀ c ∈ seen ++ digits, Digits.isHex c = true) :
    digits.foldl step ⟨ts, .string { t with phase := .hex seen }⟩ =
      ⟨ts, .string (t.pushUnit (Digits.hexNumber (seen ++ digits)))⟩ := by
  induction digits generalizing seen with
  | nil => exact absurd rfl hne
  | cons c rest ih =>
      have happend : seen ++ c :: rest = (seen ++ [c]) ++ rest := by simp
      rw [happend] at hlength hhex ⊢
      have hsize : (String.ofList (seen ++ [c])).utf8ByteSize = (seen ++ [c]).length :=
        Digits.utf8ByteSize_of_isHex fun d hd => hhex d (List.mem_append_left _ hd)
      rw [List.foldl_cons]
      cases rest with
      | nil =>
          rw [List.append_nil] at hlength hhex ⊢
          have hfull : ¬(String.ofList (seen ++ [c])).utf8ByteSize < 4 := by omega
          have hall : (seen ++ [c]).all Digits.isHex = true := List.all_eq_true.2 hhex
          simp only [step, StringScan.step, if_neg hfull, hlength, hall, and_self, if_true]
          rfl
      | cons d rest =>
          have hmore : (String.ofList (seen ++ [c])).utf8ByteSize < 4 := by
            rw [hsize]
            simp only [List.length_append, List.length_cons] at hlength ⊢
            omega
          have hstep : step ⟨ts, .string { t with phase := .hex seen }⟩ c =
              ⟨ts, .string { t with phase := .hex (seen ++ [c]) }⟩ := by
            simp only [step, StringScan.step, if_pos hmore]
          rw [hstep]
          exact ih (List.cons_ne_nil d rest) hlength hhex

/-- The digits of a number are read as this number. -/
theorem foldl_fourHex {digits : List Char} {n : Nat} (h : FourHex digits n) (ts : List Token)
    (t : StringScan) :
    digits.foldl step ⟨ts, .string { t with phase := .hex [] }⟩ = ⟨ts, .string (t.pushUnit n)⟩ := by
  have hne : digits ≠ [] := by
    rintro rfl
    cases h.length
  have hlength : ([] ++ digits).length = 4 := h.length
  rw [foldl_hex ts t hne hlength h.hex, List.nil_append, h.number]

/-- Every spelling of a character is read as this character. -/
theorem foldl_spells {c : Char} {cs : List Char} (h : Spells c cs) (ts : List Token)
    (rev : List Char) :
    cs.foldl step ⟨ts, .string ⟨.plain, rev, none, false⟩⟩ =
      ⟨ts, .string ⟨.plain, c :: rev, none, false⟩⟩ := by
  have hslash : ∀ high, step ⟨ts, .string ⟨.plain, rev, high, false⟩⟩ '\\' =
      ⟨ts, .string ⟨.escape, rev, high, false⟩⟩ := fun _ => rfl
  have hu : ∀ high, step ⟨ts, .string ⟨.escape, rev, high, false⟩⟩ 'u' =
      ⟨ts, .string ⟨.hex [], rev, high, false⟩⟩ := fun _ => rfl
  cases h with
  | plain hquote hback hcontrol =>
      simp [step, StringScan.step, StringScan.push, hquote, hback, Nat.not_lt.2 hcontrol]
  | escaped hescape =>
      rw [List.foldl_cons, hslash]
      cases hescape with
      | letter he => simp [step, StringScan.step, StringScan.push, ne_u_of_unescape? he, he]
      | unit hdigits =>
          have hc := not_surrogate c
          have hhigh : ¬(0xd800 ≤ c.toNat ∧ c.toNat ≤ 0xdbff) := by omega
          have hlow : ¬(0xdc00 ≤ c.toNat ∧ c.toNat ≤ 0xdfff) := by omega
          rw [List.foldl_cons, hu, foldl_fourHex hdigits ts ⟨.plain, rev, none, false⟩]
          simp only [StringScan.pushUnit, if_neg hhigh, if_neg hlow, StringScan.push,
            Char.ofNat_toNat]
          rfl
      | @pair high low h l hhigh hlow hfrom hto hfrom' hto' hnumber =>
          -- the first number waits for the second one, and then both make one character
          have hfirst : (⟨.plain, rev, none, false⟩ : StringScan).pushUnit h =
              ⟨.plain, rev, some h, false⟩ := by
            simp only [StringScan.pushUnit, if_pos (And.intro hfrom hto)]
          have hsecond : (⟨.plain, rev, some h, false⟩ : StringScan).pushUnit l =
              ⟨.plain, c :: rev, none, false⟩ := by
            simp only [StringScan.pushUnit, if_pos (And.intro hfrom' hto'), ← hnumber,
              Char.ofNat_toNat]
          rw [List.foldl_cons, hu, List.foldl_append,
            foldl_fourHex hhigh ts ⟨.plain, rev, none, false⟩, hfirst, List.foldl_cons, hslash,
            List.foldl_cons, hu, foldl_fourHex hlow ts ⟨.plain, rev, some h, false⟩, hsecond]

/-- What stands between quotes is read as the text that it spells. -/
theorem foldl_literal {text inside : List Char} (h : Literal text inside) (ts : List Token)
    (rev : List Char) :
    inside.foldl step ⟨ts, .string ⟨.plain, rev, none, false⟩⟩ =
      ⟨ts, .string ⟨.plain, text.reverse ++ rev, none, false⟩⟩ := by
  induction h generalizing rev with
  | nil => rfl
  | cons hc _ ih =>
      rw [List.foldl_append, foldl_spells hc, ih]
      simp

end Scanner

end OrderDesk
