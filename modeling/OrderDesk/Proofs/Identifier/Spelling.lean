/-
# Spellings of identifiers

A text spells an identifier by 32 hexadecimal digits: as they are, in groups, in groups with braces, or in
groups after `urn:uuid:`, with letters in either case. There is no other accepted text, and the number
depends on the digits only.

* `Digits.hexNumber_map_toLower` : the case of digits does not matter;
* `Uuid.Spells` : the texts that digits are spelled by;
* `Uuid.read?_eq_some_iff` : a text is read exactly if it is one of those;
* `Uuid.parse_of_alike` : texts with the same digits, up to their case, spell one identifier;
* `Id.parse_text` : the displayed form of an identifier spells it.
-/
import OrderDesk.Identifier
import OrderDesk.Proofs.Text.Digits

namespace OrderDesk

namespace Digits

/-- A digit has the same value in either case. -/
theorem hexValue?_toLower (c : Char) : hexValue? c.toLower = hexValue? c := by
  have hupper : ∀ n : Fin 26, hexValue? (Char.ofNat (65 + n)).toLower =
      hexValue? (Char.ofNat (65 + n)) := by decide
  by_cases h : c.val ≥ 'A'.val ∧ c.val ≤ 'Z'.val
  · have hlow : 65 ≤ c.toNat := UInt32.le_iff_toNat_le.1 h.1
    have hhigh : c.toNat ≤ 90 := UInt32.le_iff_toNat_le.1 h.2
    have hc := hupper ⟨c.toNat - 65, by omega⟩
    simp only [Nat.add_sub_cancel' hlow, Char.ofNat_toNat] at hc
    exact hc
  · have hsame : c.toLower = c := dif_neg h
    rw [hsame]

/-- Digits denote the same number in either case. -/
theorem hexNumber_map_toLower (cs : List Char) : hexNumber (cs.map Char.toLower) = hexNumber cs := by
  simp only [hexNumber, List.foldl_map, hexValue?_toLower]

end Digits

namespace Uuid

variable {cs digits : List Char} {u : Uuid}

/-! ## Digits and groups -/

/-- Digits of an identifier: 32 hexadecimal ones, in either case. -/
structure IsDigits (digits : List Char) : Prop where
  length : digits.length = 32
  hex : ∀ c ∈ digits, Digits.isHex c = true

theorem isDigits_iff : IsDigits digits ↔ digits.length = 32 ∧ digits.all Digits.isHex = true :=
  ⟨fun h => ⟨h.length, List.all_eq_true.2 h.hex⟩, fun h => ⟨h.1, List.all_eq_true.1 h.2⟩⟩

instance : Decidable (IsDigits digits) :=
  decidable_of_iff _ isDigits_iff.symm

/-- The identifier of a run of digits. -/
def ofHex (digits : List Char) : Uuid :=
  ⟨BitVec.ofNat 128 (Digits.hexNumber digits)⟩

theorem ofDigits?_eq_some_iff : ofDigits? cs = some u ↔ IsDigits cs ∧ u = ofHex cs := by
  unfold ofDigits?
  constructor
  · intro h
    split at h
    · rename_i hdigits
      cases h
      exact ⟨isDigits_iff.2 hdigits, rfl⟩
    · cases h
  · rintro ⟨hdigits, rfl⟩
    rw [if_pos (isDigits_iff.1 hdigits)]
    rfl

theorem IsDigits.ne_hyphen (h : IsDigits digits) : ∀ c ∈ digits, c ≠ '-' := by
  rintro c hc rfl
  cases h.hex '-' hc

theorem length_hyphenate (h : digits.length = 32) : (hyphenate digits).length = 36 := by
  simp [hyphenate, h]

/-- The groups without the hyphens are the digits. -/
theorem filter_hyphenate (h : ∀ c ∈ digits, c ≠ '-') :
    (hyphenate digits).filter (· ≠ '-') = digits := by
  have hsame : ∀ group : List Char, (∀ c ∈ group, c ∈ digits) → group.filter (· ≠ '-') = group := by
    intro group hgroup
    rw [List.filter_eq_self]
    intro c hc
    simpa using h c (hgroup c hc)
  have hhyphen : ∀ group : List Char, ('-' :: group).filter (· ≠ '-') = group.filter (· ≠ '-') :=
    fun group => List.filter_cons_of_neg (by simp)
  have h12 : digits.drop 12 = (digits.drop 8).drop 4 := by rw [List.drop_drop]
  have h16 : digits.drop 16 = (digits.drop 12).drop 4 := by rw [List.drop_drop]
  have h20 : digits.drop 20 = (digits.drop 16).drop 4 := by rw [List.drop_drop]
  simp only [hyphenate, List.filter_append, hhyphen]
  rw [hsame _ fun c hc => List.mem_of_mem_take hc,
    hsame _ fun c hc => List.mem_of_mem_drop (List.mem_of_mem_take hc),
    hsame _ fun c hc => List.mem_of_mem_drop (List.mem_of_mem_take hc),
    hsame _ fun c hc => List.mem_of_mem_drop (List.mem_of_mem_take hc),
    hsame _ fun c hc => List.mem_of_mem_drop hc]
  -- from behind, every group goes together with the rest that it was taken from
  rw [h20, List.append_assoc, List.take_append_drop, h16, List.append_assoc, List.take_append_drop,
    h12, List.append_assoc, List.take_append_drop, List.take_append_drop]

theorem ofHyphenated?_eq_some_iff :
    ofHyphenated? cs = some u ↔
      ∃ digits, IsDigits digits ∧ cs = hyphenate digits ∧ u = ofHex digits := by
  unfold ofHyphenated?
  constructor
  · intro h
    simp only at h
    split at h
    · rename_i hgroups
      obtain ⟨hdigits, rfl⟩ := ofDigits?_eq_some_iff.1 h
      exact ⟨_, hdigits, hgroups.symm, rfl⟩
    · cases h
  · rintro ⟨digits, hdigits, rfl, rfl⟩
    simp only [filter_hyphenate hdigits.ne_hyphen, if_true]
    exact ofDigits?_eq_some_iff.2 ⟨hdigits, rfl⟩

/-! ## Braces and names -/

theorem insideBraces?_eq_some_iff {inside : List Char} :
    insideBraces? cs = some inside ↔ cs = '{' :: (inside ++ ['}']) := by
  unfold insideBraces?
  constructor
  · intro h
    split at h
    · rename_i hbraces
      obtain ⟨hlength, hfirst, hlast⟩ := hbraces
      cases h
      obtain ⟨rest, rfl⟩ := List.head?_eq_some_iff.1 hfirst
      have hne : rest ≠ [] := by
        rintro rfl
        simp at hlength
      rw [List.getLast?_cons, List.getLast?_eq_some_getLast hne, Option.getD_some,
        Option.some.injEq] at hlast
      rw [List.drop_one, List.tail_cons, ← hlast, List.dropLast_concat_getLast hne]
    · cases h
  · rintro rfl
    have hlast : ('{' :: (inside ++ ['}'])).getLast? = some '}' := by simp [List.getLast?_cons]
    rw [if_pos ⟨by simp, rfl, hlast⟩, List.drop_one, List.tail_cons, List.dropLast_concat]

theorem afterUrn?_eq_some_iff {rest : List Char} :
    afterUrn? cs = some rest ↔ ∃ name, name.map Char.toLower = urn ∧ cs = name ++ rest := by
  unfold afterUrn?
  constructor
  · intro h
    split at h
    · rename_i hname
      cases h
      exact ⟨cs.take 9, hname, (List.take_append_drop 9 cs).symm⟩
    · cases h
  · rintro ⟨name, hname, rfl⟩
    have hlength : name.length = 9 := by
      rw [← List.length_map Char.toLower, hname]
      rfl
    rw [List.take_append_of_le_length (by omega), List.take_of_length_le (by omega), if_pos hname,
      List.drop_append_of_le_length (by omega), List.drop_of_length_le (by omega), List.nil_append]

/-! ## Accepted texts -/

/-- The texts that digits are spelled by. -/
inductive Spells (digits : List Char) : List Char → Prop
  | bare : Spells digits digits
  | grouped : Spells digits (hyphenate digits)
  | braced : Spells digits ('{' :: (hyphenate digits ++ ['}']))
  | named {name : List Char} : name.map Char.toLower = urn → Spells digits (name ++ hyphenate digits)

theorem ofDigits?_eq_none (h : cs.length ≠ 32) : ofDigits? cs = none := by
  rw [Option.eq_none_iff_forall_ne_some]
  intro u hu
  exact h (ofDigits?_eq_some_iff.1 hu).1.length

theorem ofHyphenated?_eq_none (h : cs.length ≠ 36) : ofHyphenated? cs = none := by
  rw [Option.eq_none_iff_forall_ne_some]
  intro u hu
  obtain ⟨digits, hdigits, rfl, -⟩ := ofHyphenated?_eq_some_iff.1 hu
  exact h (length_hyphenate hdigits.length)

theorem bind_insideBraces?_eq_none (h : cs.length ≠ 38) :
    (insideBraces? cs).bind ofHyphenated? = none := by
  rw [Option.bind_eq_none_iff]
  intro inside hinside
  rw [insideBraces?_eq_some_iff] at hinside
  subst hinside
  refine ofHyphenated?_eq_none fun hlength => h ?_
  simp [hlength]

/-- What is read is spelled. -/
theorem exists_spells_of_read? (h : read? cs = some u) :
    ∃ digits, IsDigits digits ∧ Spells digits cs ∧ u = ofHex digits := by
  simp only [read?, Option.orElse_eq_orElse, Option.orElse_eq_or, Option.or_eq_some_iff] at h
  rcases h with hbare | ⟨-, hgrouped | ⟨-, hbraced | ⟨-, hnamed⟩⟩⟩
  · obtain ⟨hdigits, rfl⟩ := ofDigits?_eq_some_iff.1 hbare
    exact ⟨cs, hdigits, .bare, rfl⟩
  · obtain ⟨digits, hdigits, rfl, rfl⟩ := ofHyphenated?_eq_some_iff.1 hgrouped
    exact ⟨digits, hdigits, .grouped, rfl⟩
  · obtain ⟨inside, hinside, hgrouped⟩ := Option.bind_eq_some_iff.1 hbraced
    obtain ⟨digits, hdigits, rfl, rfl⟩ := ofHyphenated?_eq_some_iff.1 hgrouped
    rw [insideBraces?_eq_some_iff.1 hinside]
    exact ⟨digits, hdigits, .braced, rfl⟩
  · obtain ⟨rest, hrest, hgrouped⟩ := Option.bind_eq_some_iff.1 hnamed
    obtain ⟨digits, hdigits, rfl, rfl⟩ := ofHyphenated?_eq_some_iff.1 hgrouped
    obtain ⟨name, hname, rfl⟩ := afterUrn?_eq_some_iff.1 hrest
    exact ⟨digits, hdigits, .named hname, rfl⟩

/-- What is spelled is read: the spellings have different lengths, so only one reader takes a text. -/
theorem read?_of_spells (hdigits : IsDigits digits) (h : Spells digits cs) :
    read? cs = some (ofHex digits) := by
  have hgrouped : ofHyphenated? (hyphenate digits) = some (ofHex digits) :=
    ofHyphenated?_eq_some_iff.2 ⟨digits, hdigits, rfl, rfl⟩
  have hlength := length_hyphenate hdigits.length
  simp only [read?, Option.orElse_eq_orElse, Option.orElse_eq_or]
  cases h with
  | bare => rw [ofDigits?_eq_some_iff.2 ⟨hdigits, rfl⟩, Option.some_or]
  | grouped => rw [ofDigits?_eq_none (by omega), hgrouped, Option.none_or, Option.some_or]
  | braced =>
      have hbraces : ('{' :: (hyphenate digits ++ ['}'])).length = 38 := by simp [hlength]
      rw [ofDigits?_eq_none (by omega), ofHyphenated?_eq_none (by omega),
        insideBraces?_eq_some_iff.2 rfl, Option.bind_some, hgrouped, Option.none_or, Option.none_or,
        Option.some_or]
  | @named name hname =>
      have hnine : name.length = 9 := by
        rw [← List.length_map Char.toLower, hname]
        rfl
      have hnamed : (name ++ hyphenate digits).length = 45 := by rw [List.length_append, hnine, hlength]
      rw [ofDigits?_eq_none (by omega), ofHyphenated?_eq_none (by omega),
        bind_insideBraces?_eq_none (by omega), afterUrn?_eq_some_iff.2 ⟨name, hname, rfl⟩,
        Option.bind_some, hgrouped, Option.none_or, Option.none_or, Option.none_or]

/-- A text is read exactly if it is one of the spellings of some digits. -/
theorem read?_eq_some_iff :
    read? cs = some u ↔ ∃ digits, IsDigits digits ∧ Spells digits cs ∧ u = ofHex digits := by
  refine ⟨exists_spells_of_read?, ?_⟩
  rintro ⟨digits, hdigits, hspells, rfl⟩
  exact read?_of_spells hdigits hspells

/-- Digits that agree up to their case are those of one identifier. -/
theorem ofHex_eq_of_toLower {a b : List Char} (h : a.map Char.toLower = b.map Char.toLower) :
    ofHex a = ofHex b := by
  rw [ofHex, ofHex, ← Digits.hexNumber_map_toLower a, h, Digits.hexNumber_map_toLower]

/-- Two texts are spellings by the same digits, up to their case. -/
def Alike (a b : String) : Prop :=
  ∃ x y, IsDigits x ∧ IsDigits y ∧ x.map Char.toLower = y.map Char.toLower ∧
    Spells x a.toList ∧ Spells y b.toList

/-- Texts with the same digits spell one identifier. -/
theorem parse_of_alike {a b : String} (h : Alike a b) : ∃ u, parse a = .ok u ∧ parse b = .ok u := by
  obtain ⟨x, y, hx, hy, hsame, hspells, hspells'⟩ := h
  refine ⟨ofHex x, parse_eq_ok_iff.2 (read?_of_spells hx hspells), parse_eq_ok_iff.2 ?_⟩
  rw [ofHex_eq_of_toLower hsame]
  exact read?_of_spells hy hspells'

/-! ## The displayed form -/

theorem isDigits_digits (u : Uuid) : IsDigits u.digits :=
  ⟨Digits.length_padded 16 32 _, fun _ => Digits.isHex_of_mem_padded⟩

/-- The digits of an identifier denote its number. -/
theorem hexNumber_digits (u : Uuid) : Digits.hexNumber u.digits = u.bits.toNat := by
  have hsmall : u.bits.toNat < 16 ^ 32 := u.bits.isLt
  rw [digits, Digits.hexNumber_padded, Nat.mod_eq_of_lt hsmall]

theorem ofHex_digits (u : Uuid) : ofHex u.digits = u := by
  rw [ofHex, hexNumber_digits, BitVec.ofNat_toNat, BitVec.setWidth_eq]

/-- The displayed form of an identifier spells it. -/
theorem parse_text (u : Uuid) : parse u.text = .ok u := by
  rw [parse_eq_ok_iff, text, String.toList_ofList, read?_of_spells u.isDigits_digits .grouped,
    ofHex_digits]

end Uuid

theorem Id.parse_of_ok {kind : IdKind} {text : String} {u : Uuid} (h : Uuid.parse text = .ok u) :
    (Id.parse text : Except IdFault (Id kind)) = .ok ⟨u⟩ := by
  rw [Id.parse, h]
  rfl

/-- The displayed form of an identifier of a kind spells it. -/
theorem Id.parse_text {kind : IdKind} (id : Id kind) : Id.parse id.text = .ok id :=
  Id.parse_of_ok id.uuid.parse_text

end OrderDesk
