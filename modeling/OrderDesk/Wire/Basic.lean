/-
# JSON forms

How single values stand in JSON. A type with a JSON form has a writer and a reader; the reader takes
every spelling that clients may use, the writer gives one of them.
-/
import OrderDesk.Identifier
import OrderDesk.Money
import OrderDesk.Version
import OrderDesk.Time.Timestamp
import OrderDesk.Json.Reader

namespace OrderDesk

/-- A type whose values are sent as JSON. -/
class Wire (α : Type) where
  write : α → Json
  read : Reader α

namespace Wire

/-! ## Bounds of whole numbers -/

/-- A whole number that 64 bits with a sign can hold. -/
def signed64 : Reader Int :=
  Reader.integer Int64.minValue.toInt Int64.maxValue.toInt

/-- A whole number that 64 bits without a sign can hold. -/
def unsigned64 : Reader Int :=
  Reader.integer 0 (UInt64.size - 1)

/-- A list of values of a type with a JSON form. -/
def writeList {α : Type} [Wire α] (items : List α) : Json :=
  .array (items.map write)

/-- A value that may be absent, written as `null` then. -/
def writeOption {α : Type} [Wire α] : Option α → Json :=
  Json.ofOption write

/-! ## Instances -/

instance : Wire String where
  write := .string
  read := Reader.string

/-- Floating-point numbers are numbers; one that is infinite or undefined is written as `null`. -/
instance : Wire Double where
  write x := if x.isFinite then .double x else .null
  read := Reader.double

/-- Identifiers are texts in any accepted spelling. -/
instance {kind : IdKind} : Wire (Id kind) where
  write id := .string id.text
  read := Reader.parsed fun s => (Id.parse s).toOption

/-- Versions are whole numbers. -/
instance : Wire Version where
  write v := .int v.number.toNat
  read d := (unsigned64 d).map fun i => ⟨UInt64.ofNat i.toNat⟩

/-- Amounts are records of their cents. -/
instance : Wire Money where
  write m := .object [("cents", .int m.cents)]
  read := (Money.clamp <$> Fields.required "cents" signed64).read

/-- Instants are timestamps. -/
instance : Wire Instant where
  write t := .string t.text
  read := Reader.parsed Instant.parse?

end Wire

end OrderDesk
