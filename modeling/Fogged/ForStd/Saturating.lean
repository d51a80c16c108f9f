import Mathlib.Algebra.Group.Nat.Defs

/-!
# Saturating arithmetic

Operations on machine integers that stay at the end of their range instead of leaving it.
Each one is characterised by its value as a natural number.
-/

namespace UInt64

def saturatingAdd (a b : UInt64) : UInt64 := ofNat (min (a.toNat + b.toNat) (2 ^ 64 - 1))

def saturatingSub (a b : UInt64) : UInt64 := ofNat (a.toNat - b.toNat)

@[simp] theorem toNat_saturatingAdd (a b : UInt64) :
    (a.saturatingAdd b).toNat = min (a.toNat + b.toNat) (2 ^ 64 - 1) := by
  rw [saturatingAdd, toNat_ofNat', Nat.mod_eq_of_lt]
  omega

@[simp] theorem toNat_saturatingSub (a b : UInt64) :
    (a.saturatingSub b).toNat = a.toNat - b.toNat := by
  have hlt := a.toNat_lt
  rw [saturatingSub, toNat_ofNat', Nat.mod_eq_of_lt]
  omega

end UInt64

namespace UInt32

def saturatingMul (a b : UInt32) : UInt32 := ofNat (min (a.toNat * b.toNat) (2 ^ 32 - 1))

@[simp] theorem toNat_saturatingMul (a b : UInt32) :
    (a.saturatingMul b).toNat = min (a.toNat * b.toNat) (2 ^ 32 - 1) := by
  rw [saturatingMul, toNat_ofNat', Nat.mod_eq_of_lt]
  omega

end UInt32
