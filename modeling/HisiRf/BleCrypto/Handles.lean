import HisiRf.Machine.Word
import HisiRf.Storage.Laps

/-! Handles of the cryptographic slots that the BLE archive uses.

A handle is the number of a slot and the generation of its use. The generation has
24 bits and is never zero, so a handle that was given up comes back after all the
other generations only.
-/

namespace HisiRf.BleCrypto

open Storage (lap)

def slotCount : Nat := 2

abbrev Index := Fin slotCount

def handleIndexMask : UInt32 := 0xff

def nextGeneration (current : UInt32) : UInt32 := max ((current + 1) &&& 0x00ffffff) 1

def encodeHandle (index : Index) (generation : UInt32) : UInt32 :=
  (generation <<< 8) ||| (index.val.toUInt32 + 1)

def decodeHandle (handle : UInt32) : Option (Index × UInt32) :=
  let rawIndex := handle &&& handleIndexMask
  let generation := handle >>> 8
  if none : rawIndex = 0 ∨ slotCount < rawIndex.toNat ∨ generation = 0 then .none
  else some (⟨rawIndex.toNat - 1, by
    have positive : rawIndex.toNat ≠ 0 := fun zero => none (.inl (UInt32.toNat_inj.mp zero))
    have bounded : ¬slotCount < rawIndex.toNat := fun large => none (.inr (.inl large))
    omega⟩, generation)

def generations : Nat := 2 ^ 24 - 1

/-- The generation of a slot that was taken so many times. -/
abbrev generationAt (uses : Nat) : Nat := lap generations uses

variable {handle other generation : UInt32} {index : Index}

theorem toNat_rawIndex (handle : UInt32) :
    (handle &&& handleIndexMask).toNat = handle.toNat % 2 ^ 8 := by
  exact Nat.and_two_pow_sub_one_eq_mod handle.toNat 8

theorem toNat_generation (handle : UInt32) : (handle >>> 8).toNat = handle.toNat / 2 ^ 8 := by
  exact Nat.shiftRight_eq_div_pow handle.toNat 8

theorem decodeHandle_iff : decodeHandle handle = some (index, generation) ↔
    handle.toNat = generation.toNat * 2 ^ 8 + (index.val + 1) ∧ generation.toNat ≠ 0 := by
  have raw := toNat_rawIndex handle
  have upper := toNat_generation handle
  have two : slotCount = 2 := rfl
  unfold decodeHandle
  dsimp only
  constructor
  · intro decoded
    split at decoded
    next => cases decoded
    next valid =>
      cases decoded
      have positive : (handle &&& handleIndexMask).toNat ≠ 0 := fun zero =>
        valid (.inl (UInt32.toNat_inj.mp zero))
      refine ⟨?_, fun zero => valid (.inr (.inr (UInt32.toNat_inj.mp zero)))⟩
      dsimp only
      omega
  rintro ⟨whole, positive⟩
  have low : (handle &&& handleIndexMask).toNat = index.val + 1 := by omega
  have high : handle >>> 8 = generation := UInt32.toNat_inj.mp (by omega)
  rw [dif_neg]
  · refine congrArg some (Prod.ext (Fin.ext ?_) high)
    dsimp only
    omega
  · rintro (zero | large | none)
    · rw [zero] at low
      cases low
    · omega
    · rw [← high, none] at positive
      exact positive rfl

theorem decodeHandle_inj {slot : Index × UInt32} (first : decodeHandle handle = some slot)
    (second : decodeHandle other = some slot) : handle = other := by
  have one := (decodeHandle_iff.mp first).1
  have two := (decodeHandle_iff.mp second).1
  exact UInt32.toNat_inj.mp (one.trans two.symm)

theorem decodeHandle_zero : decodeHandle 0 = none := rfl

theorem decodeHandle_encodeHandle (positive : generation.toNat ≠ 0)
    (small : generation.toNat ≤ generations) :
    decodeHandle (encodeHandle index generation) = some (index, generation) := by
  refine decodeHandle_iff.mpr ⟨?_, positive⟩
  have two : slotCount = 2 := rfl
  have last : generations = 2 ^ 24 - 1 := rfl
  have number : (index.val.toUInt32 + 1).toNat = index.val + 1 := by
    rw [UInt32.toNat_add, Nat.toUInt32_eq, UInt32.toNat_ofNat', UInt32.toNat_one]
    omega
  have shifted : (generation <<< 8).toNat = 2 ^ 8 * generation.toNat := by
    rw [UInt32.toNat_shiftLeft, show (8 : UInt32).toNat % 32 = 8 from rfl, Nat.shiftLeft_eq]
    omega
  unfold encodeHandle
  rw [UInt32.toNat_or, number, shifted, ← Nat.two_pow_add_eq_or_of_lt (by omega), Nat.mul_comm]

theorem toNat_nextGeneration (small : generation.toNat ≤ generations) :
    (nextGeneration generation).toNat = generation.toNat % generations + 1 := by
  rw [show generations = 2 ^ 24 - 1 from rfl] at small ⊢
  have masked : ((generation + 1) &&& 0x00ffffff).toNat = (generation.toNat + 1) % 2 ^ 24 := by
    rw [UInt32.toNat_and, UInt32.toNat_add, UInt32.toNat_one]
    rw [Nat.mod_eq_of_lt (by omega : generation.toNat + 1 < 2 ^ 32)]
    exact Nat.and_two_pow_sub_one_eq_mod (generation.toNat + 1) 24
  change (if (generation + 1) &&& 0x00ffffff ≤ 1 then (1 : UInt32)
    else (generation + 1) &&& 0x00ffffff).toNat = _
  split
  next low =>
    rw [UInt32.le_iff_toNat_le, masked, UInt32.toNat_one] at low
    rw [UInt32.toNat_one]
    omega
  next high =>
    rw [UInt32.le_iff_toNat_le, masked, UInt32.toNat_one] at high
    omega

end HisiRf.BleCrypto
