/-
# The order of identifiers

Identifiers have the order of their numbers. It is the order of the 16 bytes that a number consists of,
and it is the order of the displayed texts: the digits stand in lower case, so that their characters come
in the order of their values, there are always 32 of them, and the hyphens always stand at the same places.
So it makes no difference whether identifiers are sorted and then displayed, or displayed and then sorted.

* `Uuid.bytes` : the bytes of an identifier, `Uuid.flatMap_bytes` : two digits for each of them;
* `Uuid.compare_bytes` , `Uuid.compareBytes_text` : comparing bytes, and comparing texts;
* `Id.sorts_sort` , `Id.map_text_of_sorts` : sorting identifiers, and sorting their texts;
* `identifier_order` : the whole.
-/
import OrderDesk.Proofs.Identifier.Texts
import OrderDesk.Proofs.Text.ByteOrder
import OrderDesk.Proofs.Text.Places

namespace OrderDesk

namespace Uuid

/-! ## Bytes -/

/-- The 16 bytes of an identifier, most significant first. -/
def bytes (u : Uuid) : List UInt8 :=
  (Digits.places 256 16 u.bits.toNat).map UInt8.ofNat

theorem length_bytes (u : Uuid) : u.bytes.length = 16 := by
  rw [bytes, List.length_map, Digits.length_places]

/-- Identifiers are compared as their bytes are. -/
theorem compare_bytes (u v : Uuid) : compare u.bytes v.bytes = compare u v := by
  have hplaces : compare (Digits.places 256 16 u.bits.toNat) (Digits.places 256 16 v.bits.toNat) =
      compare u v := Digits.compare_places u.bits.isLt v.bits.isLt
  rw [← hplaces]
  exact compare_map fun a ha b hb => Digits.compare_ofNat
    (Digits.lt_of_mem_places (by decide) ha) (Digits.lt_of_mem_places (by decide) hb)

/-- An identifier is displayed by two digits for each of its bytes. -/
theorem flatMap_bytes (u : Uuid) :
    u.bytes.flatMap (fun byte => Digits.padded 16 2 byte.toNat) = u.digits := by
  have hbyte : ∀ d ∈ Digits.places 256 16 u.bits.toNat,
      Digits.padded 16 2 (UInt8.ofNat d).toNat = (Digits.places 16 2 d).map Nat.digitChar := by
    intro d hd
    rw [UInt8.toNat_ofNat_of_lt' (Digits.lt_of_mem_places (by decide) hd), Digits.padded_eq_map_places]
  rw [bytes, List.flatMap_map, List.flatMap_congr hbyte, ← List.map_flatMap, digits,
    Digits.padded_eq_map_places]
  exact congrArg _ (Digits.flatMap_places 16 16 _)

/-! ## Texts -/

/-- The hyphens of two texts stand at the same places, so that the digits decide. -/
theorem Grouped.compare_eq {digits digits' cs cs' : List Char} (h : Grouped digits cs)
    (h' : Grouped digits' cs') : compare cs cs' = compare digits digits' := by
  have hhyphen : ∀ xs ys : List Char, compare ('-' :: xs) ('-' :: ys) = compare xs ys := by
    intro xs ys
    rw [List.compare_cons_cons, Std.ReflOrd.compare_self, Ordering.eq_then]
  obtain ⟨ha, hb, hc, hd, -⟩ := h
  obtain ⟨ha', hb', hc', hd', -⟩ := h'
  -- group by group; nothing follows the last ones, so their length does not matter
  simp only [compare_append (ha.trans ha'.symm), compare_append (hb.trans hb'.symm),
    compare_append (hc.trans hc'.symm), compare_append (hd.trans hd'.symm), hhyphen]

/-- Identifiers are compared as their texts are. -/
theorem compareBytes_text (u v : Uuid) : Utf8.compareBytes u.text v.text = compare u v :=
  calc
    Utf8.compareBytes u.text v.text = compare u.text.toList v.text.toList := Utf8.compareBytes_eq _ _
    _ = compare u.digits v.digits := u.grouped_text.compare_eq v.grouped_text
    _ = compare u v := Digits.compare_padded u.bits.isLt v.bits.isLt

end Uuid

namespace Id

variable {kind : IdKind}

/-- Identifiers of a kind are compared as their texts are. -/
theorem compareBytes_text (i j : Id kind) : Utf8.compareBytes i.text j.text = compare i j :=
  Uuid.compareBytes_text i.uuid j.uuid

theorem isLE_compare {i j : Id kind} : (compare i j).isLE = true ↔ i ≤ j :=
  Nat.isLE_compare

/-! ## Sorting -/

instance : Std.TransOrd (Id kind) :=
  inferInstanceAs (Std.TransCmp (compareOn fun i : Id kind => i.uuid.bits.toNat))

theorem sorts_sort (ids : List (Id kind)) : Sorts compare ids (sort ids) := by
  have hle : (fun i j : Id kind => decide (i ≤ j)) = fun i j => (compare i j).isLE := by
    funext i j
    rw [Bool.eq_iff_iff, decide_eq_true_iff, isLE_compare]
  rw [sort, hle]
  exact sorts_mergeSort ids

/-- Texts of sorted identifiers are sorted, and there is no other way to sort these texts. -/
theorem map_text_of_sorts {ids sorted : List (Id kind)} {texts : List String}
    (h : Sorts compare ids sorted) (htexts : Sorts Utf8.compareBytes (ids.map Id.text) texts) :
    sorted.map Id.text = texts :=
  (h.map compareBytes_text).unique htexts

end Id

/-- Identifiers of every kind have the order of their texts. Comparing two of them gives what comparing
their 16 bytes gives, of which every one is displayed by two digits, and it gives what comparing the bytes
of their texts gives. Sorting identifiers and displaying them gives what displaying them and sorting the
texts gives, and so does any other way to sort either. -/
theorem identifier_order (kind : IdKind) :
    (∀ i j : Id kind,
      compare i j = compare i.uuid.bytes j.uuid.bytes ∧
      compare i j = Utf8.compareBytes i.text j.text ∧
      (i ≤ j ↔ (Utf8.compareBytes i.text j.text).isLE)) ∧
    (∀ i : Id kind, i.uuid.bytes.length = 16 ∧
      Uuid.Grouped (i.uuid.bytes.flatMap fun byte => Digits.padded 16 2 byte.toNat) i.text.toList) ∧
    ∀ ids : List (Id kind),
      Sorts compare ids (Id.sort ids) ∧
      Sorts Utf8.compareBytes (ids.map Id.text) (Utf8.sort (ids.map Id.text)) ∧
      (Id.sort ids).map Id.text = Utf8.sort (ids.map Id.text) ∧
      ∀ (sorted : List (Id kind)) (texts : List String), Sorts compare ids sorted →
        Sorts Utf8.compareBytes (ids.map Id.text) texts → sorted.map Id.text = texts := by
  refine ⟨fun i j => ⟨?_, ?_, ?_⟩, fun i => ⟨i.uuid.length_bytes, ?_⟩, fun ids => ⟨?_, ?_, ?_, ?_⟩⟩
  · exact (Uuid.compare_bytes i.uuid j.uuid).symm
  · exact (Id.compareBytes_text i j).symm
  · rw [Id.compareBytes_text, Id.isLE_compare]
  · rw [Uuid.flatMap_bytes]
    exact i.uuid.grouped_text
  · exact Id.sorts_sort ids
  · exact Utf8.sorts_sort _
  · exact Id.map_text_of_sorts (Id.sorts_sort ids) (Utf8.sorts_sort _)
  · exact fun sorted texts => Id.map_text_of_sorts

/-- Parts whose identifiers differ first by a letter and a digit, or just before and just after a hyphen,
one of them twice. -/
theorem identifier_order_letters :
    let ids : List PartId := [⟨⟨0xa0000000000000000000000000000000⟩⟩,
      ⟨⟨0x00000001000000000000000000000000⟩⟩, ⟨⟨0x9fffffffffffffffffffffffffffffff⟩⟩,
      ⟨⟨0x00000000ffff00000000000000000000⟩⟩, ⟨⟨0xa0000000000000000000000000000000⟩⟩]
    let sorted : List PartId := [⟨⟨0x00000000ffff00000000000000000000⟩⟩,
      ⟨⟨0x00000001000000000000000000000000⟩⟩, ⟨⟨0x9fffffffffffffffffffffffffffffff⟩⟩,
      ⟨⟨0xa0000000000000000000000000000000⟩⟩, ⟨⟨0xa0000000000000000000000000000000⟩⟩]
    let texts : List String := ["00000000-ffff-0000-0000-000000000000",
      "00000001-0000-0000-0000-000000000000", "9fffffff-ffff-ffff-ffff-ffffffffffff",
      "a0000000-0000-0000-0000-000000000000", "a0000000-0000-0000-0000-000000000000"]
    Sorts compare ids sorted ∧ Sorts Utf8.compareBytes (ids.map Id.text) texts ∧
      sorted.map Id.text = texts ∧ (Id.sort ids).map Id.text = texts := by
  intro ids sorted texts
  obtain ⟨hself, -, -, hany⟩ := (identifier_order .part).2.2 ids
  have hsorted : Sorts compare ids sorted := ⟨by decide, by decide⟩
  have htexts : Sorts Utf8.compareBytes (ids.map Id.text) texts := ⟨by decide, by decide⟩
  exact ⟨hsorted, htexts, hany sorted texts hsorted htexts, hany (Id.sort ids) texts hself htexts⟩

end OrderDesk
