import HisiRf.BleCrypto.Handles
import HisiRf.Interaction.Pool
import HisiRf.Storage.Buffer

/-! The key slots, key ladders and digest slots that the BLE archive works with.

Every function of the interface is a sequence of critical sections on four tables.
A digest is computed by the hardware between two of them.
-/

namespace HisiRf.BleCrypto

open Interaction Function
open Storage (storeAll copies front)

def ok : UInt32 := 0
def error : UInt32 := 1
def keyBytes : Nat := 64
def resultBytes : Nat := 32
def keyslotMcipher : UInt32 := 0
def keyslotHmac : UInt32 := 1
def kladDestMcipher : UInt32 := 0
def kladDestHmac : UInt32 := 1
def kladEngineAes : UInt32 := 0x20
def kladEngineSm3Hmac : UInt32 := 0xa2
def kladHmacSm3 : UInt32 := 0x30
def hashHmacSm3 : UInt32 := 0x12169100
def symcAlgAes : UInt32 := 1
def symcModeCmac : UInt32 := 8
def symcKey128bit : UInt32 := 1
def u32Max : UInt32 := 0xffffffff

abbrev Bytes (size : Nat) := Fin size → UInt8

def zeros (size : Nat) : Bytes size := fun _ => 0

def copyInto {size : Nat} (values : List UInt8) (buffer : Bytes size) : Bytes size :=
  storeAll (copies 0 values) buffer

/-- `uses` is for the record: how often the slot was taken. -/
structure KeyslotState where
  generation : UInt32
  kind : UInt32
  keyLen : UInt8
  inUse : Bool
  key : Bytes keyBytes
  uses : Nat

def KeyslotState.empty : KeyslotState := ⟨0, 0, 0, false, zeros keyBytes, 0⟩

structure KladState where
  generation : UInt32
  destination : UInt32
  keyslot : UInt32
  engine : UInt32
  inUse : Bool
  uses : Nat

def KladState.empty : KladState := ⟨0, u32Max, 0, u32Max, false, 0⟩

structure CryptoOpState where
  generation : UInt32
  state : UInt8
  keyLen : UInt8
  resultLen : UInt8
  key : Bytes keyBytes
  result : Bytes resultBytes
  uses : Nat

namespace CryptoOpState

def empty : CryptoOpState := ⟨0, 0, 0, 0, zeros keyBytes, zeros resultBytes, 0⟩

def clear (slot : CryptoOpState) : CryptoOpState :=
  { empty with
    generation := slot.generation
    uses := slot.uses }

end CryptoOpState

/-- The two kinds of digests, each with a table of its own. -/
inductive Family where | hash | mac deriving DecidableEq

def Family.expected : Family → Nat
  | .hash => 32
  | .mac => 16

def Family.kind : Family → UInt32
  | .hash => keyslotHmac
  | .mac => keyslotMcipher

structure Tables where
  keyslots : Index → KeyslotState
  klads : Index → KladState
  digests : Family → Index → CryptoOpState

namespace Tables

def new : Tables := ⟨fun _ => .empty, fun _ => .empty, fun _ _ => .empty⟩

def setKeyslot (t : Tables) (index : Index) (slot : KeyslotState) : Tables :=
  { t with keyslots := update t.keyslots index slot }

def setKlad (t : Tables) (index : Index) (slot : KladState) : Tables :=
  { t with klads := update t.klads index slot }

def setDigest (t : Tables) (family : Family) (index : Index) (slot : CryptoOpState) : Tables :=
  { t with digests := update t.digests family (update (t.digests family) index slot) }

end Tables

variable {t : Tables} {index : Index} {family : Family} {other : Index}

@[simp] theorem setKeyslot_self (slot : KeyslotState) :
    (t.setKeyslot index slot).keyslots index = slot := update_self _ _ _

theorem setKeyslot_of_ne (differ : other ≠ index) (slot : KeyslotState) :
    (t.setKeyslot index slot).keyslots other = t.keyslots other := update_of_ne differ _ _

@[simp] theorem setKlad_self (slot : KladState) : (t.setKlad index slot).klads index = slot :=
  update_self _ _ _

theorem setKlad_of_ne (differ : other ≠ index) (slot : KladState) :
    (t.setKlad index slot).klads other = t.klads other := update_of_ne differ _ _

@[simp] theorem setDigest_self (slot : CryptoOpState) :
    (t.setDigest family index slot).digests family index = slot := by
  simp [Tables.setDigest]

theorem setDigest_of_ne {sort : Family} (differ : ¬(sort = family ∧ other = index))
    (slot : CryptoOpState) :
    (t.setDigest family index slot).digests sort other = t.digests sort other := by
  unfold Tables.setDigest
  by_cases same : sort = family
  · subst same
    have apart : other ≠ index := fun equal => differ ⟨rfl, equal⟩
    simp [update_of_ne apart]
  · simp [update_of_ne same]

def Fits (destination kind : UInt32) : Prop :=
  (destination = kladDestMcipher ∧ kind = keyslotMcipher) ∨
    (destination = kladDestHmac ∧ kind = keyslotHmac)

instance (destination kind : UInt32) : Decidable (Fits destination kind) :=
  inferInstanceAs (Decidable (_ ∨ _))

def validProfile (destination engine kind : UInt32) (keyLength : Nat) (hmacType : UInt32) : Bool :=
  if destination = kladDestHmac ∧ engine = kladEngineSm3Hmac ∧ kind = keyslotHmac then
    hmacType == kladHmacSm3
  else if destination = kladDestMcipher ∧ engine = kladEngineAes ∧ kind = keyslotMcipher then
    keyLength == 16
  else false

/-- What an update works with after it has let the tables go. -/
structure Begun where
  key : Bytes keyBytes
  keyLen : Nat
  index : Index
  generation : UInt32
  use : Nat

namespace Tables

section Access

variable {A : Type} (t : Tables) (refused : A)

def onFree (free : Index → Bool) (change : Index → A × Tables) : A × Tables :=
  match (List.finRange slotCount).find? free with
  | none => (refused, t)
  | some index => change index

/-- Find the slot of a handle. It must be of the generation that the handle tells, and pass. -/
def onSlot (handle : UInt32) (generation : Index → UInt32) (passes : Index → Prop)
    [DecidablePred passes] (change : Index → A × Tables) : A × Tables :=
  match decodeHandle handle with
  | none => (refused, t)
  | some (index, told) => if generation index = told ∧ passes index then change index else (refused, t)

variable {t refused} {P : A × Tables → Prop} {handle : UInt32} {change : Index → A × Tables}

theorem onFree_keeps {free : Index → Bool} (same : P (refused, t))
    (found : ∀ index, free index = true → P (change index)) : P (t.onFree refused free change) := by
  unfold onFree
  cases search : (List.finRange slotCount).find? free with
  | none => exact same
  | some index => exact found index (List.find?_some search)

theorem onSlot_keeps {generation : Index → UInt32} {passes : Index → Prop} [DecidablePred passes]
    (same : P (refused, t))
    (found : ∀ index, decodeHandle handle = some (index, generation index) → passes index →
      P (change index)) : P (t.onSlot refused handle generation passes change) := by
  unfold onSlot
  cases decoded : decodeHandle handle with
  | none => exact same
  | some slot =>
    dsimp only
    split
    next valid => exact found slot.1 (decoded.trans (by rw [valid.1])) valid.2
    next => exact same

end Access

variable (t : Tables)

def keyslotCreate (kind : UInt32) : Option UInt32 × Tables :=
  t.onFree none (fun index => !(t.keyslots index).inUse) fun index =>
    let slot := t.keyslots index
    let generation := nextGeneration slot.generation
    (some (encodeHandle index generation), t.setKeyslot index
      ⟨generation, kind, 0, true, zeros keyBytes, slot.uses + 1⟩)

def keyslotDestroy (handle : UInt32) : UInt32 × Tables :=
  t.onSlot error handle (fun index => (t.keyslots index).generation)
    (fun index => (t.keyslots index).inUse = true ∧
      ¬∃ klad, (t.klads klad).inUse = true ∧ (t.klads klad).keyslot = handle)
    fun index => (ok, t.setKeyslot index { t.keyslots index with
      key := zeros keyBytes
      keyLen := 0
      inUse := false })

def kladCreate : Option UInt32 × Tables :=
  t.onFree none (fun index => !(t.klads index).inUse) fun index =>
    let slot := t.klads index
    let generation := nextGeneration slot.generation
    (some (encodeHandle index generation), t.setKlad index
      ⟨generation, u32Max, 0, u32Max, true, slot.uses + 1⟩)

def kladDestroy (handle : UInt32) : UInt32 × Tables :=
  t.onSlot error handle (fun index => (t.klads index).generation)
    (fun index => (t.klads index).inUse = true ∧ (t.klads index).keyslot = 0)
    fun index => (ok, t.setKlad index { t.klads index with
      inUse := false
      destination := u32Max
      engine := u32Max })

def kladAttach (handle destination keyslot : UInt32) : UInt32 × Tables :=
  t.onSlot error handle (fun index => (t.klads index).generation)
    (fun index => (t.klads index).inUse = true ∧ (t.klads index).keyslot = 0)
    fun index => t.onSlot error keyslot (fun key => (t.keyslots key).generation)
      (fun key => (t.keyslots key).inUse = true ∧ Fits destination (t.keyslots key).kind)
      fun _ => (ok, t.setKlad index { t.klads index with
        destination := destination
        keyslot := keyslot })

def kladDetach (handle destination keyslot : UInt32) : UInt32 × Tables :=
  t.onSlot error handle (fun index => (t.klads index).generation)
    (fun index => (t.klads index).inUse = true ∧ (t.klads index).destination = destination ∧
      (t.klads index).keyslot = keyslot)
    fun index => (ok, t.setKlad index { t.klads index with
      destination := u32Max
      keyslot := 0 })

def kladSetAttr (handle engine : UInt32) : UInt32 × Tables :=
  t.onSlot error handle (fun index => (t.klads index).generation)
    (fun index => (t.klads index).inUse = true)
    fun index => (ok, t.setKlad index { t.klads index with engine := engine })

def kladSetClearKey (handle : UInt32) (material : List UInt8) (hmacType : UInt32) : UInt32 × Tables :=
  t.onSlot error handle (fun index => (t.klads index).generation)
    (fun index => (t.klads index).inUse = true)
    fun index => t.onSlot error (t.klads index).keyslot (fun key => (t.keyslots key).generation)
      (fun key => (t.keyslots key).inUse = true ∧ validProfile (t.klads index).destination
        (t.klads index).engine (t.keyslots key).kind material.length hmacType = true)
      fun key => (ok, t.setKeyslot key { t.keyslots key with
        key := copyInto material (zeros keyBytes)
        keyLen := material.length.toUInt8 })

def keyslotMaterial (handle expectedKind : UInt32) : Option (Bytes keyBytes × Nat) × Tables :=
  t.onSlot none handle (fun index => (t.keyslots index).generation)
    (fun index => (t.keyslots index).inUse = true ∧ (t.keyslots index).kind = expectedKind ∧
      (t.keyslots index).keyLen ≠ 0)
    fun index => (some ((t.keyslots index).key, (t.keyslots index).keyLen.toNat), t)

variable (family : Family)

/-- The number of the use is told for the record. A key that is too long leaves the slot taken. -/
def allocateCryptoOp (key : List UInt8) : Option (UInt32 × Nat) × Tables :=
  t.onFree none (fun index => (t.digests family index).state == 0) fun index =>
    let slot := t.digests family index
    let taken := { slot with
      generation := nextGeneration slot.generation
      state := 1
      uses := slot.uses + 1 }
    if key.length ≤ 255 then
      (some (encodeHandle index taken.generation, taken.uses), t.setDigest family index { taken with
        keyLen := key.length.toUInt8
        key := copyInto key taken.key })
    else (none, t.setDigest family index taken)

def beginCryptoUpdate (handle : UInt32) : Option Begun × Tables :=
  t.onSlot none handle (fun index => (t.digests family index).generation)
    (fun index => (t.digests family index).state = 1)
    fun index =>
      let slot := t.digests family index
      (some ⟨slot.key, slot.keyLen.toNat, index, slot.generation, slot.uses⟩,
        t.setDigest family index { slot with state := 2 })

def completeCryptoUpdate (index : Index) (generation : UInt32) (result : List UInt8) : Bool × Tables :=
  let slot := t.digests family index
  if slot.generation ≠ generation ∨ slot.state ≠ 2 ∨ resultBytes < result.length then (false, t)
  else (true, t.setDigest family index { slot with
    result := copyInto result slot.result
    resultLen := result.length.toUInt8
    state := 3 })

def failCryptoUpdate (index : Index) (generation : UInt32) : Unit × Tables :=
  let slot := t.digests family index
  ((), if slot.generation = generation ∧ slot.state = 2 then t.setDigest family index slot.clear else t)

/-- The number of the use is told for the record. -/
def takeCryptoResult (handle : UInt32) : Option (Bytes resultBytes × Nat × Nat) × Tables :=
  t.onSlot none handle (fun index => (t.digests family index).generation)
    (fun index => (t.digests family index).state = 3)
    fun index =>
      let slot := t.digests family index
      (some (slot.result, slot.resultLen.toNat, slot.uses), t.setDigest family index slot.clear)

/-- `uapi_drv_cipher_hash_deinit` and `uapi_drv_cipher_symc_deinit`. -/
def deinit : Unit × Tables :=
  ((), { t with digests := update t.digests family fun index => (t.digests family index).clear })

def symcDestroy (handle : UInt32) : UInt32 × Tables :=
  t.onSlot error handle (fun index => (t.digests .mac index).generation)
    (fun index => (t.digests .mac index).state ≠ 0)
    fun index => (ok, t.setDigest .mac index (t.digests .mac index).clear)

end Tables

end HisiRf.BleCrypto
