/-
# Single values survive being written

Identifiers, instants, versions, amounts and names are read as they were written, from every restatement.
-/
import OrderDesk.Wire.Basic
import OrderDesk.Proofs.Identifier.Spelling
import OrderDesk.Proofs.Json.Records
import OrderDesk.Proofs.Time.Timestamp

namespace OrderDesk.Wire

open Json (Drafting Reads reads_scalar reads_record)

variable {D : Json → Draft} {more : Bool}

theorem reads_string (hD : Drafting D) {α : Type} {s : String} {read : Reader α} {a : α}
    (h : read (.scalar (.string s)) = .ok a) : Reads D more (.string s) read a :=
  reads_scalar (hD.scalar _ trivial) h

theorem reads_id (hD : Drafting D) {kind : IdKind} (id : Id kind) :
    Reads D more (write id) read id := by
  refine reads_string hD ?_
  have hparse : (Id.parse id.text).toOption = some id := by
    rw [Id.parse_text]
    rfl
  simp only [Wire.read, Reader.parsed, Reader.string, Except.bind, hparse]

theorem reads_instant (hD : Drafting D) (t : Instant) : Reads D more (write t) read t := by
  refine reads_string hD ?_
  simp only [Wire.read, Reader.parsed, Reader.string, Except.bind, Instant.parse?_text]

theorem reads_version (hD : Drafting D) (v : Version) : Reads D more (write v) read v := by
  have hv : v.number.toNat < 2 ^ 64 := v.number.toNat_lt
  refine reads_scalar (hD.scalar _ ⟨by omega, by omega⟩) ?_
  have hbounds : (0 : Int) ≤ v.number.toNat ∧ (v.number.toNat : Int) ≤ UInt64.size - 1 := by
    rw [UInt64.size]
    omega
  simp only [Wire.read, unsigned64, Reader.integer, if_pos hbounds, Except.map, Int.toNat_natCast,
    UInt64.ofNat_toNat]

/-- Values that are written by name are read by name. -/
theorem reads_choice (hD : Drafting D) {α : Type} {names : List (String × α)} {name : String} {a : α}
    (h : names.lookup name = some a) : Reads D more (.string name) (Reader.choice names) a := by
  refine reads_string hD ?_
  simp only [Reader.choice, Reader.named, h]

theorem reads_money (hD : Drafting D) (m : Money) : Reads D more (write m) read m := by
  have hlow := m.le_cents
  have hhigh := m.cents_le
  have hcents : Reads D more (.int m.cents) signed64 m.cents := by
    refine reads_scalar (hD.scalar _ ⟨hlow, by omega⟩) ?_
    simp only [signed64, Reader.integer, if_pos (And.intro m.lower m.upper)]
  have hfields : (Money.clamp <$> Fields.required "cents" signed64).Accepts D more
      [("cents", .int m.cents)] (Money.clamp m.cents) := .map Money.clamp (.required rfl hcents)
  rw [Money.clamp_cents] at hfields
  exact reads_record hD hfields (by simp) rfl

end OrderDesk.Wire
