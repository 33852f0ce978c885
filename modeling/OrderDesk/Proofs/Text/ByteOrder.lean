/-
# The order of texts is the order of their bytes

Texts are compared character by character. In UTF-8 this is the same as comparing them byte by byte: of
two characters, the one with the larger number has the larger byte at the first place where they differ,
and no character is the beginning of another.

* `Utf8.bytes` : the bytes of a text;
* `Utf8.Encodes` : the bytes of a character by its number;
* `Utf8.Encodes.append_lt` : what follows two different characters does not matter;
* `Utf8.bytes_lt_iff` , `Utf8.bytes_le_iff` : the order of texts;
* `Utf8.compareBytes` , `Utf8.compareBytes_eq` : texts compared byte by byte;
* `Utf8.sort` , `Utf8.sorts_sort` : texts sorted by their bytes.
-/
import OrderDesk.Proofs.Text.Comparison
import Mathlib.Data.List.Basic
import Mathlib.Data.String.Basic

namespace OrderDesk.Utf8

/-- The bytes of a text. -/
def bytes (s : String) : List UInt8 :=
  s.toUTF8.data.toList

/-! ## Characters -/

/-- The bytes of a number: the first one tells how many follow, and each of these has six bits of it. No
number has more bytes than it needs. -/
inductive Encodes : Nat → List UInt8 → Prop
  | one {a : Nat} : a < 128 → Encodes a [.ofNat a]
  | two {a b : Nat} : 2 ≤ a → a < 32 → b < 64 →
      Encodes (64 * a + b) [.ofNat (192 + a), .ofNat (128 + b)]
  | three {a b c : Nat} : 32 ≤ 64 * a + b → a < 16 → b < 64 → c < 64 →
      Encodes (64 * (64 * a + b) + c) [.ofNat (224 + a), .ofNat (128 + b), .ofNat (128 + c)]
  | four {a b c d : Nat} : 16 ≤ 64 * a + b → a < 8 → b < 64 → c < 64 → d < 64 →
      Encodes (64 * (64 * (64 * a + b) + c) + d)
        [.ofNat (240 + a), .ofNat (128 + b), .ofNat (128 + c), .ofNat (128 + d)]

theorem encodes_utf8EncodeChar (c : Char) : Encodes c.toNat (String.utf8EncodeChar c) := by
  have hmax : c.toNat < 0x110000 := by
    rcases c.valid with h | h
    · exact Nat.lt_trans h (by decide)
    · exact h.2
  unfold String.utf8EncodeChar
  simp only [Char.toNat] at hmax ⊢
  generalize c.val.toNat = n at *
  split
  · exact .one (by omega)
  · split
    · obtain ⟨a, b, hn, hb⟩ : ∃ a b, n = 64 * a + b ∧ b < 64 :=
        ⟨n / 64, n % 64, by omega, by omega⟩
      have hfirst : n / 64 % 32 + 192 = 192 + a := by omega
      have hsecond : n % 64 + 128 = 128 + b := by omega
      rw [hfirst, hsecond, hn]
      exact .two (by omega) (by omega) hb
    · split
      · obtain ⟨a, b, c, hn, hb, hc⟩ : ∃ a b c, n = 64 * (64 * a + b) + c ∧ b < 64 ∧ c < 64 :=
          ⟨n / 4096, n / 64 % 64, n % 64, by omega, by omega, by omega⟩
        have hfirst : n / 4096 % 16 + 224 = 224 + a := by omega
        have hsecond : n / 64 % 64 + 128 = 128 + b := by omega
        have hthird : n % 64 + 128 = 128 + c := by omega
        rw [hfirst, hsecond, hthird, hn]
        exact .three (by omega) (by omega) hb hc
      · obtain ⟨a, b, c, d, hn, hb, hc, hd⟩ : ∃ a b c d,
            n = 64 * (64 * (64 * a + b) + c) + d ∧ b < 64 ∧ c < 64 ∧ d < 64 :=
          ⟨n / 262144, n / 4096 % 64, n / 64 % 64, n % 64, by omega, by omega, by omega, by omega⟩
        have hfirst : n / 262144 % 8 + 240 = 240 + a := by omega
        have hsecond : n / 4096 % 64 + 128 = 128 + b := by omega
        have hthird : n / 64 % 64 + 128 = 128 + c := by omega
        have hfourth : n % 64 + 128 = 128 + d := by omega
        rw [hfirst, hsecond, hthird, hfourth, hn]
        exact .four (by omega) (by omega) hb hc hd

/-- The bytes of a smaller number come first, whatever follows them. -/
theorem Encodes.append_lt {m n : Nat} {xs ys : List UInt8} (hm : Encodes m xs) (hn : Encodes n ys)
    (h : m < n) (vs ws : List UInt8) : xs ++ vs < ys ++ ws := by
  -- at the first byte that differs, or at the first bytes if their numbers of bytes differ
  cases hm <;> cases hn <;>
    simp only [List.cons_append, List.nil_append, List.cons_lt_cons_iff, UInt8.lt_iff_toNat_lt,
      ← UInt8.toNat_inj, UInt8.toNat_ofNat'] <;>
    omega

/-! ## Texts -/

theorem bytes_eq (s : String) : bytes s = s.toList.flatMap String.utf8EncodeChar := by
  rw [bytes, String.toUTF8_eq_toByteArray, ← String.utf8Encode_toList, List.utf8Encode,
    List.toList_data_toByteArray]

theorem flatMap_utf8EncodeChar_lt {cs ds : List Char} (h : cs < ds) :
    cs.flatMap String.utf8EncodeChar < ds.flatMap String.utf8EncodeChar := by
  induction h with
  | @nil d ds =>
      obtain ⟨b, bs, hd⟩ := List.exists_cons_of_ne_nil (String.utf8EncodeChar_ne_nil (c := d))
      rw [List.flatMap_cons, hd]
      exact List.nil_lt_cons b _
  | @cons c cs ds _ ih =>
      rw [List.flatMap_cons, List.flatMap_cons]
      exact List.append_left_lt ih
  | @rel c cs d ds hlt =>
      rw [List.flatMap_cons, List.flatMap_cons]
      exact (encodes_utf8EncodeChar c).append_lt (encodes_utf8EncodeChar d) hlt _ _

/-- A text comes before another exactly if its bytes do. -/
theorem bytes_lt_iff {s t : String} : bytes s < bytes t ↔ s < t := by
  rw [bytes_eq, bytes_eq]
  refine ⟨fun h => ?_, fun h => flatMap_utf8EncodeChar_lt h⟩
  -- texts are totally ordered, so it is enough that their order goes over to the bytes
  by_contra hnot
  rcases Std.le_iff_lt_or_eq.1 (String.not_lt.1 hnot) with hlt | heq
  · exact List.lt_asymm h (flatMap_utf8EncodeChar_lt hlt)
  · exact List.lt_irrefl _ (heq ▸ h)

theorem bytes_le_iff {s t : String} : bytes s ≤ bytes t ↔ s ≤ t := by
  rw [← List.not_lt, ← String.not_lt, bytes_lt_iff]

/-! ## Comparing and sorting texts -/

/-- Compares two texts byte by byte. -/
def compareBytes (s t : String) : Ordering :=
  compare (bytes s) (bytes t)

theorem compareBytes_eq (s t : String) : compareBytes s t = compare s.toList t.toList :=
  compare_of_lt_iff bytes_lt_iff bytes_lt_iff

instance : Std.TransCmp compareBytes :=
  inferInstanceAs (Std.TransCmp (compareOn bytes))

/-- No two texts have the same bytes. -/
instance : Std.LawfulEqCmp compareBytes where
  eq_of_compare {s t} h := by
    rw [compareBytes_eq] at h
    exact String.toList_injective (Std.LawfulEqOrd.eq_of_compare h)

/-- Sorts texts by their bytes. -/
def sort (texts : List String) : List String :=
  texts.mergeSort fun s t => (compareBytes s t).isLE

theorem sorts_sort (texts : List String) : Sorts compareBytes texts (sort texts) :=
  sorts_mergeSort texts

end OrderDesk.Utf8
