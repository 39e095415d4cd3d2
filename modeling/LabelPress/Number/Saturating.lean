import LabelPress.Number.Integer

/-!
# Sums that stop at the ends of their range

A sum or product beyond the greatest number of its width is that number, and one below the least is
the least.
-/

namespace LabelPress.Number

/-- The nearest 64 bit integer. -/
def clampInt64 (n : Int) : Int :=
  max minInt64 (min n maxInt64)

def addInt64 (a b : Int) : Int := clampInt64 (a + b)

def mulInt64 (a b : Int) : Int := clampInt64 (a * b)

/-- The nearest number of 32 bits without sign. -/
def clampUInt32 (n : Int) : UInt32 :=
  UInt32.ofNat (min n.toNat (UInt32.size - 1))

def addUInt32 (a b : UInt32) : UInt32 :=
  clampUInt32 ((a.toNat : Int) + b.toNat)

theorem toNat_clampUInt32 (n : Int) :
    (clampUInt32 n).toNat = min n.toNat (UInt32.size - 1) := by
  have : min n.toNat (UInt32.size - 1) < UInt32.size :=
    Nat.lt_of_le_of_lt (Nat.min_le_right _ _) (by decide)
  rw [clampUInt32, UInt32.toNat_ofNat_of_lt' this]

theorem toNat_addUInt32 (a b : UInt32) :
    (addUInt32 a b).toNat = min (a.toNat + b.toNat) (UInt32.size - 1) := by
  rw [addUInt32, toNat_clampUInt32]
  rfl

end LabelPress.Number
