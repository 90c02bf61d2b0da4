import Mathlib.Algebra.Group.Nat.Defs
import Mathlib.Order.Basic

/-! Saturating and checked counters of machine words, read through their values.

Wrapping subtraction and addition are those of the word type itself; only the
operations that refuse or clamp an overflow are defined here.
-/

namespace Machine

def wordMax : UInt64 := 0xffffffffffffffff

@[simp] theorem toNat_wordMax : wordMax.toNat = 2 ^ 64 - 1 := rfl

def saturatingAdd (a b : UInt64) : UInt64 :=
  if a.toNat + b.toNat < 2 ^ 64 then a + b else wordMax

def saturatingMul (a b : UInt64) : UInt64 :=
  if a.toNat * b.toNat < 2 ^ 64 then a * b else wordMax

def checkedAdd (a b : UInt64) : Option UInt64 :=
  if a.toNat + b.toNat < 2 ^ 64 then some (a + b) else none

def checkedSub (a b : UInt64) : Option UInt64 := if b ≤ a then some (a - b) else none

def saturatingSub (a b : UInt64) : UInt64 := if a < b then 0 else a - b

theorem toNat_saturatingAdd (a b : UInt64) :
    (saturatingAdd a b).toNat = min (a.toNat + b.toNat) (2 ^ 64 - 1) := by
  unfold saturatingAdd
  split
  · rw [UInt64.toNat_add]; omega
  · rw [toNat_wordMax]; omega

variable {a b : UInt64} {value : UInt32}

/-- Without saturation the sum is exact. -/
theorem toNat_saturatingAdd_of_fits (fits : a.toNat + b.toNat < 2 ^ 64) :
    (saturatingAdd a b).toNat = a.toNat + b.toNat := by
  rw [toNat_saturatingAdd]; omega

theorem checkedAdd_eq_some {sum : UInt64} (added : checkedAdd a b = some sum) :
    sum.toNat = a.toNat + b.toNat := by
  unfold checkedAdd at added
  split at added
  · cases added
    rw [UInt64.toNat_add]; omega
  · cases added

theorem checkedAdd_eq_none (refused : checkedAdd a b = none) : 2 ^ 64 ≤ a.toNat + b.toNat := by
  unfold checkedAdd at refused
  split at refused
  · cases refused
  · omega

theorem checkedSub_eq_some {difference : UInt64} (left : checkedSub a b = some difference) :
    b.toNat ≤ a.toNat ∧ difference.toNat = a.toNat - b.toNat := by
  unfold checkedSub at left
  split at left
  next fits =>
    cases left
    exact ⟨UInt64.le_iff_toNat_le.mp fits, UInt64.toNat_sub_of_le a b fits⟩
  · cases left

theorem toNat_saturatingSub (a b : UInt64) : (saturatingSub a b).toNat = a.toNat - b.toNat := by
  unfold saturatingSub
  split
  next small =>
    rw [UInt64.lt_iff_toNat_lt] at small
    rw [UInt64.toNat_zero]; omega
  next large =>
    exact UInt64.toNat_sub_of_le a b (UInt64.le_iff_toNat_le.mpr (Nat.le_of_not_lt large))

/-- A counter that has not reached its last value counts exactly. -/
theorem toNat_succ (room : a.toNat + 1 < 2 ^ 64) : (a + 1).toNat = a.toNat + 1 := by
  rw [UInt64.toNat_add, UInt64.toNat_one]; omega

/-! ## Counters of 32 bits that stop at their largest value -/

def saturatingIncrement (value : UInt32) : UInt32 := if value = 0xffffffff then value else value + 1

theorem toNat_saturatingIncrement (below : value.toNat < 2 ^ 32 - 1) :
    (saturatingIncrement value).toNat = value.toNat + 1 := by
  unfold saturatingIncrement
  have unsaturated : value ≠ 0xffffffff := by
    rintro rfl
    exact absurd below (by decide)
  rw [if_neg unsaturated, UInt32.toNat_add, UInt32.toNat_one]
  omega

theorem toNat_sub_one (some : value ≠ 0) : (value - 1).toNat = value.toNat - 1 := by
  have present : value.toNat ≠ 0 := fun zero => some (UInt32.toNat_inj.mp zero)
  exact UInt32.toNat_sub_of_le _ _ (UInt32.le_iff_toNat_le.mpr (Nat.pos_of_ne_zero present))

/-! ## Numbers that wrap around, compared by the sign of their difference -/

theorem toInt32_neg_iff (x : UInt32) : x.toInt32 < 0 ↔ 2 ^ 31 ≤ x.toNat := by
  have bound := x.toNat_lt
  have value : x.toInt32.toInt = x.toBitVec.toInt := rfl
  rw [Int32.lt_iff_toInt_lt, value, BitVec.toInt_eq_toNat_cond]
  simp only [Int32.toInt_zero, UInt32.toNat_toBitVec]
  split <;> omega

/-- Within half the range the sign of the difference is the order of the numbers. -/
theorem sub_ofNat_neg_iff {a b : Nat} (near : a < b + 2 ^ 31) (far : b ≤ a + 2 ^ 31) :
    (UInt32.ofNat a - UInt32.ofNat b).toInt32 < 0 ↔ a < b := by
  rw [toInt32_neg_iff, UInt32.toNat_sub]
  simp only [UInt32.toNat_ofNat']
  omega

end Machine
