/-
# Identifiers and their texts

Every way of reading an identifier takes the same texts, and takes them for the same identifiers: a text
as it is, a field of a request, a JSON string however it is spelled. An identifier has as many texts as
there are ways to write its 32 digits, in either case and in one of four forms, and one of them is the one
that it is displayed as.

* `Digits.padded_hexNumber` : digits are those of their number, in lower case;
* `Uuid.Grouped` , `Uuid.IsText` : the groups of digits, and the texts of an identifier;
* `Uuid.digits_ofHex` , `Uuid.ofHex_eq_iff` : digits and the identifier that they are of;
* `Id.parse_of_isText` , `Id.exists_isText_of_parse` : exactly these texts are read;
* `Id.ofText_of_said` , `Id.ofJson_string` : reading an identifier from JSON;
* `identifier_texts` : the whole.
-/
import OrderDesk.Proofs.Identifier.Spelling
import OrderDesk.Proofs.Json.Literals
import OrderDesk.Http.Api
import Mathlib.Data.List.Basic
import Mathlib.Data.List.Induction

namespace OrderDesk

/-! ## Hexadecimal digits -/

namespace Digits

variable {cs : List Char}

/-- The hexadecimal digits, in either case. -/
def hexDigits : List Char :=
  "0123456789abcdefABCDEF".toList

theorem isHex_iff {c : Char} : isHex c = true ↔ c ∈ hexDigits := by
  constructor
  · intro h
    have hsmall : ∀ n : Fin 128, isHex (Char.ofNat n) = true → Char.ofNat n ∈ hexDigits := by decide
    have hc : c.toNat < 128 := by
      have hsize := Char.utf8Size_eq_one_iff.1 (utf8Size_of_isHex h)
      exact Nat.lt_succ_of_le (UInt32.le_iff_toNat_le.1 hsize)
    have hmem := hsmall ⟨c.toNat, hc⟩
    rw [Char.ofNat_toNat] at hmem
    exact hmem h
  · intro h
    have hall : hexDigits.all isHex = true := by decide
    exact List.all_eq_true.1 hall c h

/-- A digit is the one of its value, in lower case. -/
theorem digitChar_hexValue? {c : Char} (h : isHex c = true) :
    ((hexValue? c).getD 0).digitChar = c.toLower ∧ (hexValue? c).getD 0 < 16 := by
  have hall : hexDigits.all (fun c =>
      ((hexValue? c).getD 0).digitChar = c.toLower ∧ (hexValue? c).getD 0 < 16) = true := by decide
  exact of_decide_eq_true (List.all_eq_true.1 hall c (isHex_iff.1 h))

/-- The digits of the number that digits denote are the same ones in lower case. -/
theorem padded_hexNumber (h : ∀ c ∈ cs, isHex c = true) :
    padded 16 cs.length (hexNumber cs) = cs.map Char.toLower := by
  induction cs using List.reverseRecOn with
  | nil => rfl
  | append_singleton cs c ih =>
      obtain ⟨hlower, hvalue⟩ := digitChar_hexValue? (h c (by simp))
      have hcs := ih fun d hd => h d (List.mem_append_left _ hd)
      have hdiv : (hexNumber cs * 16 + (hexValue? c).getD 0) / 16 = hexNumber cs := by omega
      have hmod : (hexNumber cs * 16 + (hexValue? c).getD 0) % 16 = (hexValue? c).getD 0 := by omega
      rw [hexNumber_concat, List.length_append, List.length_singleton, padded, hdiv, hmod, hcs, hlower,
        List.map_append, List.map_singleton]

theorem hexNumber_lt (h : ∀ c ∈ cs, isHex c = true) : hexNumber cs < 16 ^ cs.length := by
  have hpadded := hexNumber_padded cs.length (hexNumber cs)
  rw [padded_hexNumber h, hexNumber_map_toLower] at hpadded
  rw [hpadded]
  exact Nat.mod_lt _ (Nat.pow_pos (by decide))

end Digits

namespace Uuid

variable {cs digits : List Char}

/-! ## Groups -/

/-- Characters in groups of 8, 4, 4, 4 and 12, with a hyphen between two groups. -/
inductive Grouped : List Char → List Char → Prop
  | groups {a b c d e : List Char} :
      a.length = 8 → b.length = 4 → c.length = 4 → d.length = 4 → e.length = 12 →
      Grouped (a ++ (b ++ (c ++ (d ++ e)))) (a ++ '-' :: (b ++ '-' :: (c ++ '-' :: (d ++ '-' :: e))))

theorem hyphenate_groups {a b c d e : List Char} (ha : a.length = 8) (hb : b.length = 4)
    (hc : c.length = 4) (hd : d.length = 4) :
    hyphenate (a ++ (b ++ (c ++ (d ++ e)))) =
      a ++ '-' :: (b ++ '-' :: (c ++ '-' :: (d ++ '-' :: e))) := by
  have h8 : (a ++ (b ++ (c ++ (d ++ e)))).drop 8 = b ++ (c ++ (d ++ e)) := List.drop_left' ha
  have h12 : (a ++ (b ++ (c ++ (d ++ e)))).drop 12 = c ++ (d ++ e) := by
    rw [← List.drop_drop (i := 4) (j := 8), h8, List.drop_left' hb]
  have h16 : (a ++ (b ++ (c ++ (d ++ e)))).drop 16 = d ++ e := by
    rw [← List.drop_drop (i := 4) (j := 12), h12, List.drop_left' hc]
  have h20 : (a ++ (b ++ (c ++ (d ++ e)))).drop 20 = e := by
    rw [← List.drop_drop (i := 4) (j := 16), h16, List.drop_left' hd]
  rw [hyphenate, h8, h12, h16, h20, List.take_left' ha, List.take_left' hb, List.take_left' hc,
    List.take_left' hd]
  simp

/-- The groups of 32 characters are those that `hyphenate` makes of them. -/
theorem grouped_iff (h : digits.length = 32) : Grouped digits cs ↔ cs = hyphenate digits := by
  constructor
  · rintro ⟨ha, hb, hc, hd, -⟩
    exact (hyphenate_groups ha hb hc hd).symm
  · rintro rfl
    have hsplit : ∀ (n : Nat) (group : List Char), n ≤ group.length →
        ∃ front rest, group = front ++ rest ∧ front.length = n := fun n group hn =>
      ⟨group.take n, group.drop n, (List.take_append_drop n group).symm, List.length_take_of_le hn⟩
    obtain ⟨a, rest, rfl, ha⟩ := hsplit 8 digits (by omega)
    obtain ⟨b, rest, rfl, hb⟩ := hsplit 4 rest (by simp only [List.length_append] at h; omega)
    obtain ⟨c, rest, rfl, hc⟩ := hsplit 4 rest (by simp only [List.length_append] at h; omega)
    obtain ⟨d, e, rfl, hd⟩ := hsplit 4 rest (by simp only [List.length_append] at h; omega)
    have he : e.length = 12 := by
      simp only [List.length_append] at h
      omega
    rw [hyphenate_groups ha hb hc hd]
    exact .groups ha hb hc hd he

/-! ## Texts of an identifier -/

/-- The texts of an identifier with certain digits: 32 hexadecimal ones in either case, as they are or in
groups, and these as they are, in braces or after the letters of a name. -/
structure IsText (digits cs : List Char) : Prop where
  length : digits.length = 32
  hex : ∀ c ∈ digits, c ∈ Digits.hexDigits
  form : cs = digits ∨ ∃ groups, Grouped digits groups ∧
    (cs = groups ∨ cs = '{' :: (groups ++ ['}']) ∨
      ∃ name, name.map Char.toLower = "urn:uuid:".toList ∧ cs = name ++ groups)

theorem isText_iff : IsText digits cs ↔ IsDigits digits ∧ Spells digits cs := by
  constructor
  · rintro ⟨hlength, hhex, hform⟩
    refine ⟨⟨hlength, fun c hc => Digits.isHex_iff.2 (hhex c hc)⟩, ?_⟩
    obtain rfl | ⟨groups, hgroups, hform⟩ := hform
    · exact .bare
    · obtain rfl := (grouped_iff hlength).1 hgroups
      obtain rfl | rfl | ⟨name, hname, rfl⟩ := hform
      · exact .grouped
      · exact .braced
      · exact .named hname
  · rintro ⟨hdigits, hspells⟩
    refine ⟨hdigits.length, fun c hc => Digits.isHex_iff.1 (hdigits.hex c hc), ?_⟩
    have hgroups := (grouped_iff hdigits.length).2 rfl
    cases hspells with
    | bare => exact Or.inl rfl
    | grouped => exact Or.inr ⟨_, hgroups, Or.inl rfl⟩
    | braced => exact Or.inr ⟨_, hgroups, Or.inr (Or.inl rfl)⟩
    | named hname => exact Or.inr ⟨_, hgroups, Or.inr (Or.inr ⟨_, hname, rfl⟩)⟩

/-! ## Digits of an identifier -/

variable {a b : List Char} {u : Uuid}

/-- The digits that an identifier is displayed by are those that it was read from, in lower case. -/
theorem digits_ofHex (h : IsDigits digits) : (ofHex digits).digits = digits.map Char.toLower := by
  have hsmall : Digits.hexNumber digits < 2 ^ 128 := by
    have hnumber := Digits.hexNumber_lt h.hex
    rw [h.length] at hnumber
    exact hnumber
  have hpadded := Digits.padded_hexNumber h.hex
  rw [h.length] at hpadded
  rw [Uuid.digits, ofHex, BitVec.toNat_ofNat, Nat.mod_eq_of_lt hsmall, hpadded]

/-- Digits are those of one identifier exactly if they agree up to their case. -/
theorem ofHex_eq_iff (ha : IsDigits a) (hb : IsDigits b) :
    ofHex a = ofHex b ↔ a.map Char.toLower = b.map Char.toLower := by
  constructor
  · intro h
    rw [← digits_ofHex ha, h, digits_ofHex hb]
  · exact ofHex_eq_of_toLower

/-- The digits of an identifier are in lower case. -/
theorem mem_digits {c : Char} (h : c ∈ u.digits) : c ∈ "0123456789abcdef".toList := by
  have hlower : ∀ k : Fin 16, k.val.digitChar ∈ "0123456789abcdef".toList := by decide
  obtain ⟨k, hk, rfl⟩ := Digits.exists_of_mem_padded (by decide) h
  exact hlower ⟨k, hk⟩

/-- The displayed form has digits in lower case and hyphens only. -/
theorem mem_text {c : Char} (h : c ∈ u.text.toList) : c = '-' ∨ c ∈ "0123456789abcdef".toList := by
  rw [text, String.toList_ofList] at h
  by_cases hc : c = '-'
  · exact Or.inl hc
  · have hdigit : c ∈ (hyphenate u.digits).filter (· ≠ '-') := List.mem_filter.2 ⟨h, decide_eq_true hc⟩
    rw [filter_hyphenate u.isDigits_digits.ne_hyphen] at hdigit
    exact Or.inr (mem_digits hdigit)

theorem grouped_text (u : Uuid) : Grouped u.digits u.text.toList :=
  (grouped_iff u.isDigits_digits.length).2 String.toList_ofList

end Uuid

/-- Another wording of refusals changes nothing about what is accepted. -/
theorem toOption_mapError {ε δ α : Type} (x : Except ε α) (f : ε → δ) :
    (x.mapError f).toOption = x.toOption := by
  cases x <;> rfl

namespace Id

variable {kind : IdKind} {s text : String} {digits : List Char}

/-! ## Reading -/

/-- A text of digits is read as the identifier of these digits. -/
theorem parse_of_isText (h : Uuid.IsText digits s.toList) :
    (Id.parse s : Except IdFault (Id kind)) = .ok ⟨Uuid.ofHex digits⟩ := by
  obtain ⟨hdigits, hspells⟩ := Uuid.isText_iff.1 h
  exact Id.parse_of_ok (Uuid.parse_eq_ok_iff.2 (Uuid.read?_eq_some_iff.2 ⟨_, hdigits, hspells, rfl⟩))

/-- What is read as an identifier is a text of some digits. -/
theorem exists_isText_of_parse {id : Id kind} (h : Id.parse s = .ok id) :
    ∃ digits, Uuid.IsText digits s.toList := by
  rw [Id.parse] at h
  cases hparse : Uuid.parse s with
  | error fault =>
      rw [hparse] at h
      cases h
  | ok u =>
      obtain ⟨digits, hdigits, hspells, -⟩ :=
        Uuid.read?_eq_some_iff.1 (Uuid.parse_eq_ok_iff.1 hparse)
      exact ⟨digits, Uuid.isText_iff.2 ⟨hdigits, hspells⟩⟩

/-! ## JSON -/

theorem read_string (s : String) :
    (Wire.read : Reader (Id kind)) (.scalar (.string s)) =
      (Id.parse s).mapError fun _ => .wrongShape := by
  cases hparse : (Id.parse s : Except IdFault (Id kind)) <;>
    simp [Wire.read, Reader.parsed, Reader.string, Except.bind, Except.mapError, Except.toOption, hparse]

/-- A JSON text that is a string is read as the identifier that the string is a text of. -/
theorem ofText_of_said (h : Json.Says s text) :
    (Reader.ofText Wire.read text : Except ReadError (Id kind)) =
      (Id.parse s).mapError fun _ => .wrongShape := by
  rw [Reader.ofText, Json.ofText_of_said h, read_string]
  cases (Id.parse s : Except IdFault (Id kind)) <;> rfl

theorem ofJson_string (s : String) :
    (Reader.ofJson Wire.read (.string s) : Except ReadError (Id kind)) =
      (Id.parse s).mapError fun _ => .wrongShape := by
  have hdraft : (Json.string s).toDraft = .scalar (.string s) := rfl
  rw [Reader.ofJson, hdraft, read_string]
  cases (Id.parse s : Except IdFault (Id kind)) <;> rfl

/-- A JSON string with an identifier needs no escapes. -/
theorem toList_text_write (id : Id kind) :
    (Json.text (Wire.write id)).toList = '"' :: (id.text.toList ++ ['"']) := by
  have hplain : ('-' :: "0123456789abcdef".toList).all (fun c => Json.escape c = [c]) = true := by
    decide
  have hescape : id.text.toList.flatMap Json.escape = id.text.toList := by
    have hsame : ∀ c ∈ id.text.toList, Json.escape c = [c] := fun c hc =>
      of_decide_eq_true (List.all_eq_true.1 hplain c (List.mem_cons.2 (Uuid.mem_text hc)))
    rw [List.flatMap_congr hsame, List.flatMap_singleton']
  have hwrite : (Wire.write id).chars = Json.quoted id.text := rfl
  rw [Json.text, String.toList_ofList, hwrite, Json.quoted, hescape]

end Id

/-- Identifiers of every kind and their texts. All readers agree about a text: the one of plain texts, the
one of JSON, whatever the spelling of the string, and the one of requests. The accepted texts are those of
32 hexadecimal digits, and two of them lead to one identifier exactly if their digits agree up to case. The
displayed text of an identifier leads back to it, has its digits in lower case and in groups, and stands
in JSON as it is; and every text of an identifier leads to the displayed one. -/
theorem identifier_texts (kind : IdKind) :
    (∀ s text field : String, Json.Says s text →
      (Reader.ofText Wire.read text : Except ReadError (Id kind)).toOption = (Id.parse s).toOption ∧
      (Reader.ofJson Wire.read (.string s) : Except ReadError (Id kind)).toOption =
        (Id.parse s).toOption ∧
      (Api.parseId field s : Except ApiError (Id kind)).toOption = (Id.parse s).toOption) ∧
    (∀ s : String, (∃ id : Id kind, Id.parse s = .ok id) ↔ ∃ digits, Uuid.IsText digits s.toList) ∧
    (∀ (s t : String) (x y : List Char), Uuid.IsText x s.toList → Uuid.IsText y t.toList →
      ∃ i j : Id kind, Id.parse s = .ok i ∧ Id.parse t = .ok j ∧
        (i = j ↔ x.map Char.toLower = y.map Char.toLower)) ∧
    (∀ id : Id kind, Id.parse id.text = .ok id ∧ Wire.write id = .string id.text ∧
      (Json.text (Wire.write id)).toList = '"' :: (id.text.toList ++ ['"']) ∧
      ∃ digits, digits.length = 32 ∧ (∀ c ∈ digits, c ∈ "0123456789abcdef".toList) ∧
        Digits.hexNumber digits = id.uuid.bits.toNat ∧ Uuid.Grouped digits id.text.toList) ∧
    ∀ (s : String) (digits : List Char), Uuid.IsText digits s.toList →
      ∃ id : Id kind, Id.parse s = .ok id ∧ Uuid.Grouped (digits.map Char.toLower) id.text.toList := by
  refine ⟨fun s text field h => ⟨?_, ?_, ?_⟩, fun s => ⟨?_, ?_⟩, fun s t x y hx hy => ?_, fun id => ?_,
    fun s digits h => ?_⟩
  · rw [Id.ofText_of_said h, toOption_mapError]
  · rw [Id.ofJson_string, toOption_mapError]
  · rw [Api.parseId, toOption_mapError]
  · rintro ⟨id, hid⟩
    exact Id.exists_isText_of_parse hid
  · rintro ⟨digits, h⟩
    exact ⟨_, Id.parse_of_isText h⟩
  · refine ⟨_, _, Id.parse_of_isText hx, Id.parse_of_isText hy, ?_⟩
    rw [Id.mk.injEq]
    exact Uuid.ofHex_eq_iff (Uuid.isText_iff.1 hx).1 (Uuid.isText_iff.1 hy).1
  · exact ⟨id.parse_text, rfl, id.toList_text_write, id.uuid.digits, id.uuid.isDigits_digits.length,
      fun _ => Uuid.mem_digits, id.uuid.hexNumber_digits, id.uuid.grouped_text⟩
  · refine ⟨_, Id.parse_of_isText h, ?_⟩
    rw [← Uuid.digits_ofHex (Uuid.isText_iff.1 h).1]
    exact (Uuid.ofHex digits).grouped_text

/-- The name of an order in odd case, and the same digits in braces and in the other case. -/
theorem identifier_texts_urn :
    let named := "UrN:uuid:0123ABCD-4567-89ef-CDEF-0123456789ab"
    let braced := "\x7b0123abcd-4567-89EF-cdef-0123456789AB\x7d"
    let digits := "0123ABCD456789efCDEF0123456789ab".toList
    let other := "0123abcd456789EFcdef0123456789AB".toList
    Uuid.IsText digits named.toList ∧ Uuid.IsText other braced.toList ∧
      (∃ id : OrderId, Id.parse named = .ok id ∧ Id.parse braced = .ok id ∧
        Uuid.Grouped (digits.map Char.toLower) id.text.toList) ∧
      Json.Says named (Json.text (.string named)) ∧
      (Reader.ofText Wire.read (Json.text (.string named)) : Except ReadError OrderId).toOption =
        (Id.parse named).toOption := by
  intro named braced digits other
  obtain ⟨hreaders, -, hsame, -, hdisplayed⟩ := identifier_texts .order
  have hnamed : Uuid.IsText digits named.toList := by
    have hlist : named.toList = "UrN:uuid:".toList ++ Uuid.hyphenate digits := by decide
    exact Uuid.isText_iff.2 ⟨by decide, hlist ▸ .named (by decide)⟩
  have hbraced : Uuid.IsText other braced.toList := by
    have hlist : braced.toList = '{' :: (Uuid.hyphenate other ++ ['}']) := by decide
    exact Uuid.isText_iff.2 ⟨by decide, hlist ▸ .braced⟩
  have hsaid := Json.says_text named
  obtain ⟨i, j, hi, hj, hij⟩ := hsame named braced digits other hnamed hbraced
  obtain ⟨id, hid, hgroups⟩ := hdisplayed named digits hnamed
  have hids : id = i := Except.ok.inj (hid.symm.trans hi)
  have hj' : j = i := (hij.2 (by decide)).symm
  exact ⟨hnamed, hbraced, ⟨id, hid, by rw [hj, hj', hids], hgroups⟩, hsaid,
    (hreaders named _ "order_uuid" hsaid).1⟩

end OrderDesk
