/-
# Settings from any texts

Whatever is found under the keys of the settings, there are settings, and each of them is told by the
text under its own key alone. A number counts if it is written as a numeral that fits; everything else,
a missing text included, leaves the setting at its default. Only a zero switches the deadline off, so a
slip of the pen never does.

* `Settings.Numeral` : the texts that are taken for numbers;
* `Settings.number?_eq_some_iff` : these are read as far as they fit, and nothing else is;
* `Settings.AskedBy` : the settings that texts ask for;
* `Settings.askedBy_ofLookup` : these are the settings that are made of them;
* `Settings.ofLookup_rendered` : settings that are written down are found again;
* `settings_of_any_lookup` : the whole.
-/
import OrderDesk.Settings
import OrderDesk.Proofs.Text.Numerals

namespace OrderDesk

namespace Settings

variable {find : String → Option String} {key : String}

/-! ## Numerals -/

/-- A text is a numeral of a number: decimal digits that denote it, after a plus sign or without. -/
inductive Numeral (s : String) (n : Nat) : Prop
  | plain : Digits.Denotes s.toList n → Numeral s n
  | plus {digits : List Char} : s.toList = '+' :: digits → Digits.Denotes digits n → Numeral s n

/-- A numeral is read if its number is below the limit, and nothing else is read. -/
theorem number?_eq_some_iff {limit n : Nat} {s : String} :
    number? limit s = some n ↔ Numeral s n ∧ n < limit := by
  rw [number?, Option.filter_eq_some_iff, Digits.decimal?_eq_some_iff, decide_eq_true_eq]
  refine and_congr_left fun _ => ?_
  constructor
  · intro h
    split at h
    · rename_i digits hplus
      exact .plus hplus h
    · exact .plain h
  · intro h
    cases h with
    | plain hdigits =>
        split
        · -- a plus sign is no digit
          rename_i digits hplus
          rw [hplus] at hdigits
          cases hdigits.isDigit.2 '+' List.mem_cons_self
        · exact hdigits
    | plus hplus hdigits => rwa [hplus]

/-- A numeral stands under a key. -/
def Says (find : String → Option String) (key : String) (n : Nat) : Prop :=
  ∃ s, find key = some s ∧ Numeral s n

theorem bind_number?_eq_some_iff {limit n : Nat} :
    (find key).bind (number? limit) = some n ↔ Says find key n ∧ n < limit := by
  simp only [Option.bind_eq_some_iff, number?_eq_some_iff, Says, ← and_assoc, exists_and_right]

/-- Nothing is read under a key unless a numeral that fits stands there. -/
theorem bind_number?_eq_none {limit : Nat} (h : ∀ n, Says find key n → limit ≤ n) :
    (find key).bind (number? limit) = none := by
  rw [Option.eq_none_iff_forall_ne_some]
  intro n hn
  obtain ⟨hsaid, hlimit⟩ := bind_number?_eq_some_iff.1 hn
  exact absurd (h n hsaid) (Nat.not_le.2 hlimit)

/-! ## Single settings -/

theorem portNumber_of_said {n : Nat} (h : Says find "PORT" n) (hn : n ≤ 65535) :
    (ofLookup find).portNumber = n := by
  have hread : (find "PORT").bind (number? UInt16.size) = some n :=
    bind_number?_eq_some_iff.2 ⟨h, Nat.lt_succ_of_le hn⟩
  simp only [ofLookup, hread, Option.getD_some]

theorem portNumber_of_unsaid (h : ∀ n, Says find "PORT" n → 65535 < n) :
    (ofLookup find).portNumber = 3000 := by
  have hread : (find "PORT").bind (number? UInt16.size) = none := bind_number?_eq_none h
  simp only [ofLookup, hread, Option.getD_none, default]

theorem deadline_of_zero (h : Says find "GATEWAY_TIMEOUT_MS" 0) : (ofLookup find).deadline = none := by
  have hread : (find "GATEWAY_TIMEOUT_MS").bind (number? UInt64.size) = some 0 :=
    bind_number?_eq_some_iff.2 ⟨h, by decide⟩
  simp only [ofLookup, deadline?, hread]

theorem deadline_of_said {n : Nat} (h : Says find "GATEWAY_TIMEOUT_MS" n) (hpos : 1 ≤ n)
    (hn : n ≤ 2 ^ 64 - 1) : (ofLookup find).deadline = some (.ofMillis n) := by
  have hread : (find "GATEWAY_TIMEOUT_MS").bind (number? UInt64.size) = some n :=
    bind_number?_eq_some_iff.2 ⟨h, Nat.lt_succ_of_le hn⟩
  obtain ⟨k, rfl⟩ : ∃ k, n = k + 1 := ⟨n - 1, by omega⟩
  simp only [ofLookup, deadline?, hread]

theorem deadline_of_unsaid (h : ∀ n, Says find "GATEWAY_TIMEOUT_MS" n → 2 ^ 64 - 1 < n) :
    (ofLookup find).deadline = some (.ofMillis 5000) := by
  have hread : (find "GATEWAY_TIMEOUT_MS").bind (number? UInt64.size) = none :=
    bind_number?_eq_none fun n hn => Nat.le_of_pred_lt (h n hn)
  simp only [ofLookup, deadline?, hread, default]

/-- The three cases of a deadline: it is off, it is a number that fits, or it is the default. -/
theorem deadline_cases (find : String → Option String) :
    Says find "GATEWAY_TIMEOUT_MS" 0 ∨
      (∃ n, Says find "GATEWAY_TIMEOUT_MS" n ∧ 1 ≤ n ∧ n ≤ 2 ^ 64 - 1) ∨
      ∀ n, Says find "GATEWAY_TIMEOUT_MS" n → 2 ^ 64 - 1 < n := by
  by_cases h : ∃ n, Says find "GATEWAY_TIMEOUT_MS" n ∧ n ≤ 2 ^ 64 - 1
  · obtain ⟨n, hsaid, hn⟩ := h
    rcases Nat.eq_zero_or_pos n with rfl | hpos
    · exact Or.inl hsaid
    · exact Or.inr (Or.inl ⟨n, hsaid, hpos, hn⟩)
  · exact Or.inr (Or.inr fun n hsaid => Nat.lt_of_not_le fun hn => h ⟨n, hsaid, hn⟩)

theorem deadline_eq_none_iff : (ofLookup find).deadline = none ↔ Says find "GATEWAY_TIMEOUT_MS" 0 := by
  refine ⟨fun h => ?_, deadline_of_zero⟩
  rcases deadline_cases find with hzero | ⟨n, hsaid, hpos, hn⟩ | hother
  · exact hzero
  · rw [deadline_of_said hsaid hpos hn] at h
    cases h
  · rw [deadline_of_unsaid hother] at h
    cases h

end Settings

/-- A name of a format in any case is read as the format, and no other text is. -/
theorem LogFormat.ofName?_eq_some_iff {s : String} {f : LogFormat} :
    LogFormat.ofName? s = some f ↔ s.toLower = f.name := by
  have hlower : ∀ t : String, s.toLower = t ↔ s.toList.map Char.toLower = t.toList := by
    intro t
    have hmap : s.toLower = s.map Char.toLower := rfl
    rw [← String.toList_inj, hmap, String.toList_map]
  rw [hlower, LogFormat.ofName?]
  cases f with
  | text => split_ifs <;> simp_all [name]
  | json => split_ifs <;> simp_all [name]

@[simp] theorem LogFormat.ofName?_name (f : LogFormat) : LogFormat.ofName? f.name = some f := by
  cases f <;> decide

namespace Settings

variable {find : String → Option String}

theorem logFormat_of_name {s : String} {f : LogFormat} (hs : find "LOG_FORMAT" = some s)
    (hf : s.toLower = f.name) : (ofLookup find).logFormat = f := by
  simp only [ofLookup, hs, Option.bind_some, LogFormat.ofName?_eq_some_iff.2 hf, Option.getD_some]

theorem logFormat_of_not_name (h : ∀ s f, find "LOG_FORMAT" = some s → s.toLower ≠ LogFormat.name f) :
    (ofLookup find).logFormat = .text := by
  have hread : (find "LOG_FORMAT").bind LogFormat.ofName? = none := by
    rw [Option.bind_eq_none_iff]
    intro s hs
    rw [Option.eq_none_iff_forall_ne_some]
    exact fun f hf => h s f hs (LogFormat.ofName?_eq_some_iff.1 hf)
  simp only [ofLookup, hread, Option.getD_none, default]

/-! ## All settings -/

/-- The settings that texts ask for. -/
structure AskedBy (find : String → Option String) (s : Settings) : Prop where
  /-- The host is taken as it is given. -/
  host : s.host = (find "HOST").getD "0.0.0.0"
  /-- The port is a numeral of 16 bits. -/
  port : ∀ n, Says find "PORT" n → n ≤ 65535 → s.portNumber = n
  portOtherwise : (∀ n, Says find "PORT" n → 65535 < n) → s.portNumber = 3000
  /-- The level is taken as it is given. -/
  logLevel : s.logLevel = (find "RUST_LOG").getD "info"
  /-- The format is named in any case. -/
  logFormat : ∀ text f, find "LOG_FORMAT" = some text → text.toLower = LogFormat.name f →
    s.logFormat = f
  logFormatOtherwise : (∀ text f, find "LOG_FORMAT" = some text → text.toLower ≠ LogFormat.name f) →
    s.logFormat = .text
  /-- A zero, and nothing else, switches the deadline off. -/
  deadlineOff : s.deadline = none ↔ Says find "GATEWAY_TIMEOUT_MS" 0
  /-- The deadline is a numeral of 64 bits. -/
  deadline : ∀ n, Says find "GATEWAY_TIMEOUT_MS" n → 1 ≤ n → n ≤ 2 ^ 64 - 1 →
    s.deadline = some (.ofMillis n)
  deadlineOtherwise : (∀ n, Says find "GATEWAY_TIMEOUT_MS" n → 2 ^ 64 - 1 < n) →
    s.deadline = some (.ofMillis 5000)

theorem askedBy_ofLookup (find : String → Option String) : AskedBy find (ofLookup find) where
  host := rfl
  port _ h hn := portNumber_of_said h hn
  portOtherwise := portNumber_of_unsaid
  logLevel := rfl
  logFormat _ _ hs hf := logFormat_of_name hs hf
  logFormatOtherwise := logFormat_of_not_name
  deadlineOff := deadline_eq_none_iff
  deadline _ h hpos hn := deadline_of_said h hpos hn
  deadlineOtherwise := deadline_of_unsaid

/-! ## Settings that are written down -/

/-- There is room for the numbers of settings: 16 bits for the port, and 64 for a deadline, which is a
whole number of milliseconds and not zero. -/
structure HasRoom (s : Settings) : Prop where
  port : s.portNumber ≤ 65535
  deadline : ∀ span, s.deadline = some span → ∃ ms, 1 ≤ ms ∧ ms ≤ 2 ^ 64 - 1 ∧ span = .ofMillis ms

/-- The texts that settings are written as, numbers in decimal and a deadline that is off as zero. -/
def rendered (s : Settings) : String → Option String
  | "HOST" => some s.host
  | "PORT" => some (String.ofList (Nat.toDigits 10 s.portNumber))
  | "RUST_LOG" => some s.logLevel
  | "LOG_FORMAT" => some s.logFormat.name
  | "GATEWAY_TIMEOUT_MS" =>
      some (String.ofList (Nat.toDigits 10 ((s.deadline.map Span.timerMillis).getD 0)))
  | _ => none

theorem numeral_toDigits (n : Nat) : Numeral (String.ofList (Nat.toDigits 10 n)) n := by
  refine .plain ?_
  rw [String.toList_ofList]
  exact Digits.denotes_toDigits n

/-- What texts ask for has room for its numbers. -/
theorem hasRoom_ofLookup (find : String → Option String) : (ofLookup find).HasRoom where
  port := by
    by_cases h : ∃ n, Says find "PORT" n ∧ n ≤ 65535
    · obtain ⟨n, hsaid, hn⟩ := h
      rwa [portNumber_of_said hsaid hn]
    · rw [portNumber_of_unsaid fun n hsaid => Nat.lt_of_not_le fun hn => h ⟨n, hsaid, hn⟩]
      decide
  deadline := by
    intro span hspan
    rcases deadline_cases find with hzero | ⟨n, hsaid, hpos, hn⟩ | hother
    · rw [deadline_of_zero hzero] at hspan
      cases hspan
    · rw [deadline_of_said hsaid hpos hn] at hspan
      exact ⟨n, hpos, hn, (Option.some.inj hspan).symm⟩
    · rw [deadline_of_unsaid hother] at hspan
      exact ⟨5000, by decide, by decide, (Option.some.inj hspan).symm⟩

/-- Settings that are written down are found again. -/
theorem ofLookup_rendered {s : Settings} (h : s.HasRoom) : ofLookup s.rendered = s := by
  have hport : (ofLookup s.rendered).portNumber = s.portNumber :=
    portNumber_of_said ⟨_, rfl, numeral_toDigits _⟩ h.port
  have hformat : (ofLookup s.rendered).logFormat = s.logFormat :=
    logFormat_of_name (s := s.logFormat.name) rfl (LogFormat.ofName?_eq_some_iff.1 (by simp))
  have hmillis : Says s.rendered "GATEWAY_TIMEOUT_MS" ((s.deadline.map Span.timerMillis).getD 0) :=
    ⟨_, rfl, numeral_toDigits _⟩
  have hdeadline : (ofLookup s.rendered).deadline = s.deadline := by
    cases hspan : s.deadline with
    | none =>
        rw [hspan] at hmillis
        exact deadline_of_zero hmillis
    | some span =>
        obtain ⟨ms, hpos, hms, rfl⟩ := h.deadline span hspan
        rw [hspan, Option.map_some, Option.getD_some, Span.timerMillis_ofMillis] at hmillis
        exact deadline_of_said hmillis hpos hms
  calc ofLookup s.rendered
      = ⟨s.host, (ofLookup s.rendered).portNumber, s.logLevel, (ofLookup s.rendered).logFormat,
          (ofLookup s.rendered).deadline⟩ := rfl
    _ = s := by rw [hport, hformat, hdeadline]

end Settings

open Settings in
/-- Settings from any texts. They are those that the texts ask for, and there is room for their numbers;
each of them is told by the text under its own key, whatever stands under the others; and settings with
room for their numbers are found again if they are written down. -/
theorem settings_of_any_lookup :
    (∀ find : String → Option String, AskedBy find (ofLookup find) ∧ (ofLookup find).HasRoom) ∧
    (∀ find other : String → Option String,
      (other "HOST" = find "HOST" → (ofLookup other).host = (ofLookup find).host) ∧
      (other "PORT" = find "PORT" → (ofLookup other).portNumber = (ofLookup find).portNumber) ∧
      (other "RUST_LOG" = find "RUST_LOG" → (ofLookup other).logLevel = (ofLookup find).logLevel) ∧
      (other "LOG_FORMAT" = find "LOG_FORMAT" →
        (ofLookup other).logFormat = (ofLookup find).logFormat) ∧
      (other "GATEWAY_TIMEOUT_MS" = find "GATEWAY_TIMEOUT_MS" →
        (ofLookup other).deadline = (ofLookup find).deadline)) ∧
    ∀ s : Settings, s.HasRoom → ofLookup s.rendered = s := by
  refine ⟨fun find => ⟨askedBy_ofLookup find, hasRoom_ofLookup find⟩, fun find other => ?_,
    fun _ => ofLookup_rendered⟩
  simp only [ofLookup]
  exact ⟨fun h => by rw [h], fun h => by rw [h], fun h => by rw [h], fun h => by rw [h],
    fun h => by rw [h]⟩

/-- A port with a sign and zeros in front, a format in odd case, and a deadline that somebody meant to
switch off by a negative number; and settings without a deadline that are written down. -/
theorem settings_of_any_lookup_odd :
    let find := fun key =>
      [("PORT", "+0065535"), ("LOG_FORMAT", "JsOn"), ("GATEWAY_TIMEOUT_MS", "-5")].lookup key
    let other := fun key => [("PORT", "+0065535")].lookup key
    let off : Settings := ⟨"::1", 65535, "debug", .json, none⟩
    (Settings.Says find "PORT" 65535 ∧ (Settings.ofLookup find).portNumber = 65535) ∧
      ("JsOn".toLower = LogFormat.json.name ∧ (Settings.ofLookup find).logFormat = .json) ∧
      ((∀ n, Settings.Says find "GATEWAY_TIMEOUT_MS" n → 2 ^ 64 - 1 < n) ∧
        (Settings.ofLookup find).deadline = some (.ofMillis 5000)) ∧
      (other "PORT" = find "PORT" ∧ (Settings.ofLookup other).portNumber = 65535) ∧
      off.HasRoom ∧ Settings.ofLookup off.rendered = off := by
  intro find other off
  obtain ⟨hasked, hown, hrendered⟩ := settings_of_any_lookup
  obtain ⟨hfind, -⟩ := hasked find
  have hport : Settings.Says find "PORT" 65535 :=
    ⟨_, rfl, (Settings.number?_eq_some_iff.1 (by decide : Settings.number? 65536 "+0065535" = _)).1⟩
  have hname : "JsOn".toLower = LogFormat.json.name := LogFormat.ofName?_eq_some_iff.1 (by decide)
  have hnegative : ∀ n, Settings.Says find "GATEWAY_TIMEOUT_MS" n → 2 ^ 64 - 1 < n := by
    rintro n ⟨s, hs, hn⟩
    cases hs
    have hread := Settings.number?_eq_some_iff.2 ⟨hn, Nat.lt_succ_self n⟩
    have hdigits : Digits.decimal? ['-', '5'] = none := by decide
    simp [Settings.number?, hdigits] at hread
  have hsame : other "PORT" = find "PORT" := rfl
  have hroom : off.HasRoom := ⟨by decide, fun span hspan => by cases hspan⟩
  refine ⟨⟨hport, hfind.port _ hport (by decide)⟩, ⟨hname, hfind.logFormat _ _ rfl hname⟩,
    ⟨hnegative, hfind.deadlineOtherwise hnegative⟩, ⟨hsame, ?_⟩, hroom, hrendered off hroom⟩
  rw [(hown find other).2.1 hsame, hfind.port _ hport (by decide)]

end OrderDesk
