/-
# Record versions

The write version of a stored record: 0 for a record that was never written, one more for every write.
-/
namespace OrderDesk

/-- How often a record has been written, as a 64-bit number. -/
structure Version where
  number : UInt64
  deriving DecidableEq

namespace Version

/-- The version of a record that does not exist yet. -/
def initial : Version := ⟨0⟩

/-- The version that the first write gives. -/
def first : Version := ⟨1⟩

/-- `next` : the version that a write gives to a record at this version. The largest one is followed by 0,
as in a build without overflow checks. -/
def next (v : Version) : Version :=
  ⟨v.number + 1⟩

/-- The displayed form: the number in decimal. -/
def text (v : Version) : String :=
  toString v.number.toNat

instance : LT Version where
  lt a b := a.number < b.number

instance (a b : Version) : Decidable (a < b) :=
  inferInstanceAs (Decidable (a.number < b.number))

@[simp] theorem next_initial : initial.next = first := rfl

/-- Below the largest 64-bit number a write adds exactly one. -/
theorem toNat_next {v : Version} (h : v.number.toNat < UInt64.size - 1) :
    v.next.number.toNat = v.number.toNat + 1 := by
  simp only [next, UInt64.toNat_add, UInt64.reduceToNat, UInt64.size] at h ⊢
  omega

end Version

end OrderDesk
