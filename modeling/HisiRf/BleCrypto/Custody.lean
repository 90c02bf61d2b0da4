import HisiRf.BleCrypto.Interface

/-! What every critical section keeps.

A key ladder that names a key slot names one that is in use, of the generation and of
the kind it was attached to. A slot that is free holds no key and no digest. The
generation of a slot tells how often the slot was taken, up to whole laps.
-/

namespace HisiRf.BleCrypto

open Interaction Function Tables
open Tables (onFree_keeps)
open Storage (front lap lap_le lap_succ lap_ne_zero)

structure Attached (t : Tables) (klad : Index) (keyslot : Index) : Prop where
  inUse : (t.klads klad).inUse = true
  named : decodeHandle (t.klads klad).keyslot = some (keyslot, (t.keyslots keyslot).generation)
  live : (t.keyslots keyslot).inUse = true
  fits : Fits (t.klads klad).destination (t.keyslots keyslot).kind

structure KeyslotState.Sound (slot : KeyslotState) : Prop where
  blank : slot.inUse = false → slot.key = zeros keyBytes
  keyLen : slot.keyLen.toNat ≤ keyBytes
  uses : slot.generation.toNat = generationAt slot.uses

structure CryptoOpState.Sound (slot : CryptoOpState) : Prop where
  blank : slot.state = 0 → slot.key = zeros keyBytes ∧ slot.result = zeros resultBytes
  uses : slot.generation.toNat = generationAt slot.uses

structure Tidy (t : Tables) : Prop where
  attached : ∀ klad, (t.klads klad).keyslot ≠ 0 → ∃ keyslot, Attached t klad keyslot
  keyslots : ∀ index, (t.keyslots index).Sound
  klads : ∀ index, (t.klads index).generation.toNat = generationAt (t.klads index).uses
  digests : ∀ family index, (t.digests family index).Sound

variable {t : Tables} {index keyslot : Index} {family : Family}

theorem tidy_new : Tidy .new where
  attached _ named := absurd rfl named
  keyslots _ := ⟨fun _ => rfl, Nat.zero_le _, rfl⟩
  klads _ := rfl
  digests _ _ := ⟨fun _ => ⟨rfl, rfl⟩, rfl⟩

theorem generationAt_le (uses : Nat) : generationAt uses ≤ generations := lap_le (by decide) uses

section

variable {generation : UInt32} {uses : Nat} (now : generation.toNat = generationAt uses)
include now

theorem generation_taken : (nextGeneration generation).toNat = generationAt (uses + 1) := by
  rw [toNat_nextGeneration (now ▸ generationAt_le uses), now]
  exact (lap_succ uses).symm

theorem decode_taken (index : Index) : decodeHandle (encodeHandle index (nextGeneration generation)) =
      some (index, nextGeneration generation) := by
  have taken := generation_taken now
  refine decodeHandle_encodeHandle ?_ ?_
  · rw [taken]
    exact lap_ne_zero (Nat.succ_pos uses)
  · rw [taken]
    exact generationAt_le (uses + 1)

end

/-- What holds of every slot still does if it holds of the one that is written. -/
theorem forall_setKeyslot {p : KeyslotState → Prop} {slot : KeyslotState} (here : p slot)
    (all : ∀ other, p (t.keyslots other)) (other : Index) : p ((t.setKeyslot index slot).keyslots other) :=
  (forall_update_iff t.keyslots fun _ slot => p slot).mpr ⟨here, fun other _ => all other⟩ other

theorem forall_setKlad {p : KladState → Prop} {slot : KladState} (here : p slot)
    (all : ∀ other, p (t.klads other)) (other : Index) : p ((t.setKlad index slot).klads other) :=
  (forall_update_iff t.klads fun _ slot => p slot).mpr ⟨here, fun other _ => all other⟩ other

variable {slot : CryptoOpState}

theorem forall_setDigest {p : CryptoOpState → Prop} (here : p slot)
    (all : ∀ sort other, p (t.digests sort other)) (sort : Family) (other : Index) :
    p ((t.setDigest family index slot).digests sort other) := by
  by_cases same : sort = family ∧ other = index
  · obtain ⟨rfl, rfl⟩ := same
    rw [setDigest_self]
    exact here
  · rw [setDigest_of_ne same]
    exact all sort other

theorem Tidy.setDigest (tidy : Tidy t) (sound : slot.Sound) :
    Tidy (t.setDigest family index slot) := by
  refine { tidy with attached := ?_, digests := forall_setDigest sound tidy.digests }
  intro klad named
  obtain ⟨keyslot, inUse, handle, live, fits⟩ := tidy.attached klad named
  exact ⟨keyslot, inUse, handle, live, fits⟩

theorem Tidy.setKlad (tidy : Tidy t) {slot : KladState}
    (attached : slot.keyslot ≠ 0 → slot.inUse = true ∧
      ∃ keyslot, decodeHandle slot.keyslot = some (keyslot, (t.keyslots keyslot).generation) ∧
        (t.keyslots keyslot).inUse = true ∧ Fits slot.destination (t.keyslots keyslot).kind)
    (uses : slot.generation.toNat = generationAt slot.uses) : Tidy (t.setKlad index slot) := by
  refine { tidy with attached := ?_, klads := ?_ }
  · let sound (slot : KladState) : Prop := slot.keyslot ≠ 0 → slot.inUse = true ∧
      ∃ keyslot, decodeHandle slot.keyslot = some (keyslot, (t.keyslots keyslot).generation) ∧
        (t.keyslots keyslot).inUse = true ∧ Fits slot.destination (t.keyslots keyslot).kind
    have before (other : Index) : sound (t.klads other) := by
      intro named
      obtain ⟨keyslot, inUse, handle, live, fits⟩ := tidy.attached other named
      exact ⟨inUse, keyslot, handle, live, fits⟩
    have after (other : Index) : sound ((t.setKlad index slot).klads other) :=
      forall_setKlad attached before other
    intro klad named
    obtain ⟨inUse, keyslot, handle, live, fits⟩ := after klad named
    exact ⟨keyslot, inUse, handle, live, fits⟩
  · let counted (slot : KladState) : Prop := slot.generation.toNat = generationAt slot.uses
    have after (other : Index) : counted ((t.setKlad index slot).klads other) :=
      forall_setKlad uses tidy.klads other
    exact after

/-- A key slot may be changed if the ladders that name it do not notice. -/
theorem Tidy.setKeyslot (tidy : Tidy t) {slot : KeyslotState} (sound : slot.Sound)
    (kept : ∀ klad, Attached t klad index → slot.inUse = true ∧
      slot.generation = (t.keyslots index).generation ∧ slot.kind = (t.keyslots index).kind) :
    Tidy (t.setKeyslot index slot) := by
  refine { tidy with attached := ?_, keyslots := forall_setKeyslot sound tidy.keyslots }
  intro klad named
  obtain ⟨keyslot, attached⟩ := tidy.attached klad named
  by_cases same : keyslot = index
  · subst same
    obtain ⟨live, generation, kind⟩ := kept klad attached
    refine ⟨keyslot, attached.inUse, ?_, ?_, ?_⟩
    · rw [setKeyslot_self, generation]
      exact attached.named
    · rw [setKeyslot_self]
      exact live
    · rw [setKeyslot_self, kind]
      exact attached.fits
  · refine ⟨keyslot, attached.inUse, ?_, ?_, ?_⟩
    · rw [setKeyslot_of_ne same]
      exact attached.named
    · rw [setKeyslot_of_ne same]
      exact attached.live
    · rw [setKeyslot_of_ne same]
      exact attached.fits

theorem CryptoOpState.Sound.clear (sound : slot.Sound) : slot.clear.Sound :=
  ⟨fun _ => ⟨rfl, rfl⟩, sound.uses⟩

def Op.fits : Op → Prop
  | .kladSetClearKey _ material _ => material.length ≤ keyBytes
  | .allocate _ _ key => key.length ≤ keyBytes
  | _ => True

section

variable (tidy : Tidy t)
include tidy

theorem Tidy.deinit (family : Family) : Tidy (t.deinit family).2 := by
  refine { tidy with attached := ?_, digests := ?_ }
  · intro klad named
    obtain ⟨keyslot, inUse, handle, live, fits⟩ := tidy.attached klad named
    exact ⟨keyslot, inUse, handle, live, fits⟩
  intro sort index
  unfold Tables.deinit
  dsimp only
  by_cases same : sort = family
  · subst same
    rw [update_self]
    exact (tidy.digests sort index).clear
  · rw [update_of_ne same]
    exact tidy.digests sort index

theorem Tidy.onSlot {A : Type} {refused : A} {handle : UInt32} {generation : Index → UInt32}
    {passes : Index → Prop} [DecidablePred passes] {change : Index → A × Tables}
    (found : ∀ index, decodeHandle handle = some (index, generation index) → passes index →
      Tidy (change index).2) : Tidy (t.onSlot refused handle generation passes change).2 :=
  onSlot_keeps (P := fun result => Tidy result.2) tidy found

theorem Tidy.keyslotCreate (kind : UInt32) : Tidy (t.keyslotCreate kind).2 := by
  refine onFree_keeps (P := fun result => Tidy result.2) tidy fun index free => ?_
  refine tidy.setKeyslot ⟨nofun, Nat.zero_le _, generation_taken (tidy.keyslots index).uses⟩ ?_
  intro klad attached
  rw [attached.live] at free
  cases free

/-- The handle of a slot that a ladder names is the one that the ladder has. -/
theorem Tidy.keyslotDestroy (handle : UInt32) : Tidy (t.keyslotDestroy handle).2 := by
  refine tidy.onSlot fun index decoded passes => ?_
  refine tidy.setKeyslot ⟨fun _ => rfl, Nat.zero_le _, (tidy.keyslots index).uses⟩ ?_
  intro klad attached
  exact absurd ⟨klad, attached.inUse, decodeHandle_inj attached.named decoded⟩ passes.2

theorem Tidy.kladAttach (handle destination keyslot : UInt32) :
    Tidy (t.kladAttach handle destination keyslot).2 := by
  refine tidy.onSlot fun index _ loose => ?_
  refine tidy.onSlot fun key named live => ?_
  exact tidy.setKlad (fun _ => ⟨loose.1, key, named, live⟩) (tidy.klads index)

theorem Tidy.kladSetAttr (handle engine : UInt32) : Tidy (t.kladSetAttr handle engine).2 := by
  refine tidy.onSlot fun index _ _ => ?_
  refine tidy.setKlad (fun named => ?_) (tidy.klads index)
  obtain ⟨key, attached⟩ := tidy.attached index named
  exact ⟨attached.inUse, key, attached.named, attached.live, attached.fits⟩

theorem Tidy.kladSetClearKey (handle : UInt32) {material : List UInt8}
    (short : material.length ≤ keyBytes) (hmacType : UInt32) :
    Tidy (t.kladSetClearKey handle material hmacType).2 := by
  refine tidy.onSlot fun _ _ _ => ?_
  refine tidy.onSlot fun key _ live => ?_
  have keyLen : material.length.toUInt8.toNat ≤ keyBytes := by
    exact Nat.le_trans (Nat.mod_le _ _) short
  refine tidy.setKeyslot ⟨fun free => ?_, keyLen, (tidy.keyslots key).uses⟩ fun _ _ => ⟨live.1, rfl, rfl⟩
  exact absurd (live.1.symm.trans free) (by decide)

theorem Tidy.allocateCryptoOp (key : List UInt8) : Tidy (t.allocateCryptoOp family key).2 := by
  have busy : (1 : UInt8) ≠ 0 := by decide
  refine onFree_keeps (P := fun result => Tidy result.2) tidy fun index _ => ?_
  have uses := generation_taken (tidy.digests family index).uses
  split
  next => exact tidy.setDigest ⟨fun free => absurd free busy, uses⟩
  next => exact tidy.setDigest ⟨fun free => absurd free busy, uses⟩

end

theorem Tidy.atom {w w' : World} {o : Op} {reply : o.Reply} (tidy : Tidy w.tables) (fits : o.fits)
    (taken : Atom w o reply w') : Tidy w'.tables := by
  have two : (2 : UInt8) ≠ 0 := by decide
  have three : (3 : UInt8) ≠ 0 := by decide
  obtain ⟨digest, _, same⟩ := taken
  obtain rfl : (w.perform digest o).2 = w' := congrArg Prod.snd same
  cases o with
  | keyslotCreate kind => exact tidy.keyslotCreate kind
  | keyslotDestroy handle => exact tidy.keyslotDestroy handle
  | kladCreate =>
    refine onFree_keeps (P := fun result => Tidy result.2) tidy fun index _ => ?_
    exact tidy.setKlad (absurd rfl) (generation_taken (tidy.klads index))
  | kladDestroy =>
    refine tidy.onSlot fun index _ loose => ?_
    exact tidy.setKlad (absurd loose.2) (tidy.klads index)
  | kladAttach handle destination keyslot => exact tidy.kladAttach handle destination keyslot
  | kladDetach =>
    refine tidy.onSlot fun index _ _ => ?_
    exact tidy.setKlad (absurd rfl) (tidy.klads index)
  | kladSetAttr handle engine => exact tidy.kladSetAttr handle engine
  | kladSetClearKey handle material hmacType => exact tidy.kladSetClearKey handle fits hmacType
  | keyslotMaterial =>
    exact tidy.onSlot fun _ _ _ => tidy
  | allocate number family key => exact tidy.allocateCryptoOp key
  | beginUpdate number family =>
    refine tidy.onSlot fun index _ _ => ?_
    exact tidy.setDigest ⟨fun free => absurd free two, (tidy.digests family index).uses⟩
  | completeUpdate number family begun =>
    change Tidy (completeCryptoUpdate _ _ _ _ _).2
    unfold completeCryptoUpdate
    dsimp only
    split
    next => exact tidy
    next => exact tidy.setDigest ⟨fun free => absurd free three, (tidy.digests family begun.index).uses⟩
  | failUpdate number family begun =>
    change Tidy (failCryptoUpdate _ _ _ _).2
    unfold failCryptoUpdate
    dsimp only
    split
    next => exact tidy.setDigest (tidy.digests family begun.index).clear
    next => exact tidy
  | takeResult number family =>
    refine tidy.onSlot fun index _ _ => ?_
    exact tidy.setDigest (tidy.digests family index).clear
  | deinit family => exact tidy.deinit family
  | symcDestroy =>
    refine tidy.onSlot fun index _ _ => ?_
    exact tidy.setDigest (tidy.digests .mac index).clear
  | _ => exact tidy

end HisiRf.BleCrypto
