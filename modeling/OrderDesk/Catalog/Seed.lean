/-
# The first catalog

The two parts that a new inventory service offers.
-/
import OrderDesk.Catalog.Inventory

namespace OrderDesk

/-- The identifier of the first part on offer. -/
def hyperdriveEngineId : PartId := ⟨⟨0x111e4567e89b12d3a456426614174001#128⟩⟩

/-- The identifier of the second part on offer. -/
def quantumShieldId : PartId := ⟨⟨0x222e4567e89b12d3a456426614174002#128⟩⟩

/-- A floating-point number given in tenths. -/
def tenths (n : Nat) : Double :=
  Double.round false n 10

/-- The parts on offer, made at a moment. -/
def seedParts (now : Instant) : List Part := [
  { id := hyperdriveEngineId
    name := "Hyperdrive Engine"
    description := "A class-9 hyperdrive engine capable of faster-than-light travel."
    price := Money.ofUnits 450000
    stock := 3
    category := .engine
    dimensions := some ⟨tenths 1200, tenths 800, tenths 1000, tenths 5000⟩
    manufacturer := some ⟨"Hyperdrive Corp", "USA", "https://hyperdrive.example.com"⟩
    tags := ["engine", "hyperdrive", "space"]
    metadata := .ofList [("power_output", .double (tenths 95)), ("is_experimental", .bool true)]
    createdAt := now
    updatedAt := now },
  { id := quantumShieldId
    name := "Quantum Shield Generator"
    description := "Advanced shield generator providing protection against cosmic radiation."
    price := Money.ofUnits 175000
    stock := 5
    category := .shield
    dimensions := some ⟨tenths 600, tenths 400, tenths 500, tenths 1500⟩
    manufacturer := some ⟨"Quantum Tech", "Germany", "https://quantumtech.example.com"⟩
    tags := ["shield", "quantum", "defense"]
    metadata := .ofList [("energy_consumption", .double (tenths 32)), ("warranty_years", .int 5)]
    createdAt := now
    updatedAt := now }]

/-- The inventory service with the parts on offer. -/
def Inventory.seeded (now : Instant) : Inventory :=
  (seedParts now).foldl Inventory.add .empty

end OrderDesk
