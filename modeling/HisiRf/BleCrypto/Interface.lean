import HisiRf.BleCrypto.Tables
import HisiRf.Interaction.Alone

/-! The functions of the cipher interface. -/

namespace HisiRf.BleCrypto

open Interaction
open Storage (front)

/-- A clear key as the caller describes it. The pointer is null or leads to memory. -/
structure KladClearKey where
  key : Option (Nat → UInt8)
  keyLength : UInt32
  hmacType : UInt32

structure CipherHashAttribute where
  keyslotHandle : UInt32
  hashType : UInt32
  isKeyslot : Bool

structure CipherMacAttribute where
  symcAlgorithm : UInt32
  workMode : UInt32
  keyLength : UInt32
  keyslotHandle : UInt32

/-- An argument that is a pointer is `none` if it is null. A pointer to which a result goes is given by
whether there is one. -/
inductive Call where
  | keyslotCreate (output : Bool) (kind : UInt32)
  | keyslotDestroy (handle : UInt32)
  | kladCreate (output : Bool)
  | kladDestroy (handle : UInt32)
  | kladAttach (handle destination keyslot : UInt32)
  | kladDetach (handle destination keyslot : UInt32)
  | kladSetAttr (handle : UInt32) (engine : Option UInt32)
  | kladSetClearKey (handle : UInt32) (key : Option KladClearKey)
  | deinit (family : Family)
  | hashStart (output : Bool) (attributes : Option CipherHashAttribute)
  | macStart (output : Bool) (attributes : Option CipherMacAttribute)
  | update (family : Family) (handle : UInt32) (source : Option (Option (Nat → UInt8))) (length : UInt32)
  | finish (family : Family) (handle : UInt32) (output : Bool) (length : Option UInt32)
  | symcDestroy (handle : UInt32)

/-- What a call returns, and what it puts into the memory of its caller. -/
structure Outcome where
  status : UInt32
  handle : Option UInt32
  output : Option (List UInt8)
  deriving DecidableEq

def Outcome.plain (status : UInt32) : Outcome := ⟨status, none, none⟩

def Outcome.failed : Outcome := .plain error

def Outcome.issue : Option UInt32 → Outcome
  | none => failed
  | some handle => ⟨ok, some handle, none⟩

/-- A call has a number, for the record. -/
inductive Op where
  | enter (call : Call)
  | leave (number : Nat) (call : Call) (outcome : Outcome)
  | keyslotCreate (kind : UInt32)
  | keyslotDestroy (handle : UInt32)
  | kladCreate
  | kladDestroy (handle : UInt32)
  | kladAttach (handle destination keyslot : UInt32)
  | kladDetach (handle destination keyslot : UInt32)
  | kladSetAttr (handle engine : UInt32)
  | kladSetClearKey (handle : UInt32) (material : List UInt8) (hmacType : UInt32)
  | keyslotMaterial (number : Nat) (handle expectedKind : UInt32)
  | allocate (number : Nat) (family : Family) (key : List UInt8)
  | beginUpdate (number : Nat) (family : Family) (handle : UInt32)
  /- The hardware computes a digest, or fails. -/
  | compute (number : Nat) (family : Family) (key input : List UInt8)
  | completeUpdate (number : Nat) (family : Family) (begun : Begun) (result : List UInt8)
  | failUpdate (number : Nat) (family : Family) (begun : Begun)
  | takeResult (number : Nat) (family : Family) (handle : UInt32)
  | deinit (family : Family)
  | symcDestroy (handle : UInt32)

@[reducible] def Op.Reply : Op → Type
  | .enter _ => Nat
  | .keyslotCreate _ | .kladCreate => Option UInt32
  | .keyslotDestroy _ | .kladDestroy _ | .kladAttach _ _ _ | .kladDetach _ _ _ | .kladSetAttr _ _
  | .kladSetClearKey _ _ _ | .symcDestroy _ => UInt32
  | .keyslotMaterial _ _ _ => Option (Bytes keyBytes × Nat)
  | .allocate _ _ _ => Option (UInt32 × Nat)
  | .beginUpdate _ _ _ => Option Begun
  | .compute _ _ _ _ => Option (List UInt8)
  | .completeUpdate _ _ _ _ => Bool
  | .takeResult _ _ _ => Option (Bytes resultBytes × Nat × Nat)
  | .leave _ _ _ | .failUpdate _ _ _ | .deinit _ => Unit

abbrev ops : Signature := ⟨Op, Op.Reply⟩

abbrev Task (A : Type) := Program ops A

/-- `calls` is for the record: how many calls were entered. -/
structure World where
  tables : Tables
  calls : Nat

def World.new : World := ⟨.new, 0⟩

def World.on {A : Type} (w : World) (change : Tables → A × Tables) : A × World :=
  ((change w.tables).1, { w with tables := (change w.tables).2 })

/-- What an action does, if the hardware computes that digest. -/
def World.perform (digest : Option (List UInt8)) (w : World) : (o : Op) → o.Reply × World
  | .enter _ => (w.calls, { w with calls := w.calls + 1 })
  | .leave _ _ _ => ((), w)
  | .keyslotCreate kind => w.on (·.keyslotCreate kind)
  | .keyslotDestroy handle => w.on (·.keyslotDestroy handle)
  | .kladCreate => w.on (·.kladCreate)
  | .kladDestroy handle => w.on (·.kladDestroy handle)
  | .kladAttach handle destination keyslot => w.on (·.kladAttach handle destination keyslot)
  | .kladDetach handle destination keyslot => w.on (·.kladDetach handle destination keyslot)
  | .kladSetAttr handle engine => w.on (·.kladSetAttr handle engine)
  | .kladSetClearKey handle material hmacType => w.on (·.kladSetClearKey handle material hmacType)
  | .keyslotMaterial _ handle expectedKind => w.on (·.keyslotMaterial handle expectedKind)
  | .allocate _ family key => w.on (·.allocateCryptoOp family key)
  | .beginUpdate _ family handle => w.on (·.beginCryptoUpdate family handle)
  | .compute _ _ _ _ => (digest, w)
  | .completeUpdate _ family begun result =>
    w.on (·.completeCryptoUpdate family begun.index begun.generation result)
  | .failUpdate _ family begun => w.on (·.failCryptoUpdate family begun.index begun.generation)
  | .takeResult _ family handle => w.on (·.takeCryptoResult family handle)
  | .deinit family => w.on (·.deinit family)
  | .symcDestroy handle => w.on (·.symcDestroy handle)

def Op.Computes (digest : Option (List UInt8)) : Op → Prop
  | .compute _ family _ _ => ∀ result, digest = some result → result.length = family.expected
  | _ => True

def Atom (w : World) (o : Op) (reply : o.Reply) (after : World) : Prop :=
  ∃ digest, o.Computes digest ∧ w.perform digest o = (reply, after)

section Bodies

def act (o : Op) : Task o.Reply := Program.call (I := ops) o .done

def uapiDrvKeyslotCreate (output : Bool) (kind : UInt32) : Task Outcome :=
  if output = false ∨ ¬(kind = keyslotMcipher ∨ kind = keyslotHmac) then pure .failed
  else do
    let allocated ← act (.keyslotCreate kind)
    pure (.issue allocated)

def uapiDrvKladCreate (output : Bool) : Task Outcome :=
  if output = false then pure .failed
  else do
    let allocated ← act .kladCreate
    pure (.issue allocated)

def uapiDrvKladSetAttr (handle : UInt32) : Option UInt32 → Task Outcome
  | none => pure .failed
  | some engine =>
    if ¬(engine = kladEngineAes ∨ engine = kladEngineSm3Hmac) then pure .failed
    else do
      let status ← act (.kladSetAttr handle engine)
      pure (.plain status)

/-- The memory behind a pointer that the caller promises to be readable. -/
def readable (memory : Nat → UInt8) (length : UInt32) : List UInt8 :=
  (List.range length.toNat).map memory

def uapiDrvKladSetClearKey (handle : UInt32) : Option KladClearKey → Task Outcome
  | some ⟨some memory, keyLength, hmacType⟩ =>
    if keyLength = 0 ∨ keyBytes < keyLength.toNat then pure .failed
    else do
      let status ← act (.kladSetClearKey handle (readable memory keyLength) hmacType)
      pure (.plain status)
  | _ => pure .failed

variable (number : Nat)

def hashAllocate : Option (Bytes keyBytes × Nat) → Task Outcome
  | none => pure .failed
  | some (key, keyLen) => do
    let allocated ← act (.allocate number .hash (front keyLen key))
    pure (.issue (allocated.map Prod.fst))

def uapiDrvCipherHashStart (output : Bool) : Option CipherHashAttribute → Task Outcome
  | none => pure .failed
  | some attributes =>
    if output = false ∨ attributes.hashType ≠ hashHmacSm3 ∨ attributes.isKeyslot = false then pure .failed
    else do
      let material ← act (.keyslotMaterial number attributes.keyslotHandle keyslotHmac)
      hashAllocate number material

def macAllocate : Option (Bytes keyBytes × Nat) → Task Outcome
  | none => pure .failed
  | some (key, keyLen) =>
    if keyLen ≠ 16 then pure .failed
    else do
      let allocated ← act (.allocate number .mac (front keyLen key))
      pure (.issue (allocated.map Prod.fst))

def uapiDrvCipherMacStart (output : Bool) : Option CipherMacAttribute → Task Outcome
  | none => pure .failed
  | some attributes =>
    if output = false ∨ attributes.symcAlgorithm ≠ symcAlgAes ∨ attributes.workMode ≠ symcModeCmac ∨
        attributes.keyLength ≠ symcKey128bit then pure .failed
    else do
      let material ← act (.keyslotMaterial number attributes.keyslotHandle keyslotMcipher)
      macAllocate number material

def cipherInput (source : Option (Option (Nat → UInt8))) (length : UInt32) : Option (List UInt8) :=
  match source with
  | none => none
  | some none => if length ≠ 0 then none else some []
  | some (some memory) => some (readable memory length)

variable (family : Family)

def settleUpdate (begun : Begun) : Option (List UInt8) → Task Outcome
  | some result => do
    let completed ← act (.completeUpdate number family begun result)
    pure (.plain (if completed then ok else error))
  | none => do
    act (.failUpdate number family begun)
    pure .failed

def computeUpdate (input : List UInt8) : Option Begun → Task Outcome
  | none => pure .failed
  | some begun => do
    let result ← act (.compute number family (front begun.keyLen begun.key) input)
    settleUpdate number family begun result

def updateWith (handle : UInt32) : Option (List UInt8) → Task Outcome
  | none => pure .failed
  | some input => do
    let begun ← act (.beginUpdate number family handle)
    computeUpdate number family input begun

def cipherUpdate (handle : UInt32) (source : Option (Option (Nat → UInt8))) (length : UInt32) :
    Task Outcome := updateWith number family handle (cipherInput source length)

def uapiDrvCipherHashUpdate (handle : UInt32) (source : Option (Option (Nat → UInt8)))
    (length : UInt32) : Task Outcome := cipherUpdate number .hash handle source length

def uapiDrvCipherMacUpdate (handle : UInt32) (source : Option (Option (Nat → UInt8)))
    (length : UInt32) : Task Outcome := cipherUpdate number .mac handle source length

def deliver : Option (Bytes resultBytes × Nat × Nat) → Outcome
  | none => .failed
  | some (result, resultLen, _) =>
    if resultLen ≠ family.expected then .failed else ⟨ok, none, some (front resultLen result)⟩

def finishCryptoOp (handle : UInt32) (output : Bool) : Option UInt32 → Task Outcome
  | none => pure .failed
  | some capacity =>
    if output = false ∨ capacity.toNat < family.expected then pure .failed
    else do
      let result ← act (.takeResult number family handle)
      pure (deliver family result)

def uapiDrvCipherHashFinish (handle : UInt32) (output : Bool) (length : Option UInt32) : Task Outcome :=
  finishCryptoOp number .hash handle output length

def uapiDrvCipherMacFinish (handle : UInt32) (output : Bool) (length : Option UInt32) : Task Outcome :=
  finishCryptoOp number .mac handle output length

def Call.body : Call → Task Outcome
  | .keyslotCreate output kind => uapiDrvKeyslotCreate output kind
  | .keyslotDestroy handle => do
    let status ← act (.keyslotDestroy handle)
    pure (.plain status)
  | .kladCreate output => uapiDrvKladCreate output
  | .kladDestroy handle => do
    let status ← act (.kladDestroy handle)
    pure (.plain status)
  | .kladAttach handle destination keyslot => do
    let status ← act (.kladAttach handle destination keyslot)
    pure (.plain status)
  | .kladDetach handle destination keyslot => do
    let status ← act (.kladDetach handle destination keyslot)
    pure (.plain status)
  | .kladSetAttr handle engine => uapiDrvKladSetAttr handle engine
  | .kladSetClearKey handle key => uapiDrvKladSetClearKey handle key
  | .deinit family => do
    act (.deinit family)
    pure (.plain ok)
  | .hashStart output attributes => uapiDrvCipherHashStart number output attributes
  | .macStart output attributes => uapiDrvCipherMacStart number output attributes
  | .update .hash handle source length => uapiDrvCipherHashUpdate number handle source length
  | .update .mac handle source length => uapiDrvCipherMacUpdate number handle source length
  | .finish .hash handle output length => uapiDrvCipherHashFinish number handle output length
  | .finish .mac handle output length => uapiDrvCipherMacFinish number handle output length
  | .symcDestroy handle => do
    let status ← act (.symcDestroy handle)
    pure (.plain status)

theorem body_update (handle : UInt32) (source : Option (Option (Nat → UInt8))) (length : UInt32) :
    (Call.update family handle source length).body number =
      cipherUpdate number family handle source length := by
  cases family <;> rfl

theorem body_finish (handle : UInt32) (output : Bool) (length : Option UInt32) :
    (Call.finish family handle output length).body number =
      finishCryptoOp number family handle output length := by
  cases family <;> rfl

def Call.task (call : Call) : Task Outcome := do
  let number ← act (.enter call)
  let outcome ← call.body number
  act (.leave number call outcome)
  pure outcome

end Bodies

end HisiRf.BleCrypto
