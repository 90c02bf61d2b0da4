import HisiRf.BleCrypto.Custody

/-! Sequences of calls.

A key slot or a key ladder is leased: a handle is good from the call that gives it out
to the call that destroys it. As long as the generation of the slot has not gone
through all its values, a handle that was destroyed is refused by every call.
-/

namespace HisiRf.BleCrypto

open Interaction Call Tables Prod
open Tables (onSlot_keeps)
open Storage (lap_inj front)

structure Event where
  call : Call
  outcome : Outcome

def sequences : System World Event :=
  ⟨fun w event after => event.call.task.Leads Atom w event.outcome after⟩

def plainly (change : Tables → UInt32 × Tables) (t : Tables) : Outcome × Tables :=
  (.plain (change t).1, (change t).2)

def issuing (change : Tables → Option UInt32 × Tables) (t : Tables) : Outcome × Tables :=
  (.issue (change t).1, (change t).2)

/-- The calls that manage keys consist of one critical section. -/
def Call.manages : Call → Option (Tables → Outcome × Tables)
  | .keyslotCreate _ kind => some (issuing (·.keyslotCreate kind))
  | .keyslotDestroy handle => some (plainly (·.keyslotDestroy handle))
  | .kladCreate _ => some (issuing (·.kladCreate))
  | .kladDestroy handle => some (plainly (·.kladDestroy handle))
  | .kladAttach handle destination keyslot => some (plainly (·.kladAttach handle destination keyslot))
  | .kladDetach handle destination keyslot => some (plainly (·.kladDetach handle destination keyslot))
  | .kladSetAttr handle (some engine) => some (plainly (·.kladSetAttr handle engine))
  | .kladSetClearKey handle (some ⟨some memory, keyLength, hmacType⟩) =>
    some (plainly (·.kladSetClearKey handle (readable memory keyLength) hmacType))
  | .kladSetAttr _ none | .kladSetClearKey _ _ => some fun t => (.failed, t)
  | .deinit _ | .hashStart _ _ | .macStart _ _ | .update _ _ _ _ | .finish _ _ _ _ | .symcDestroy _ => none

variable {w after : World} {call : Call} {outcome : Outcome} {t : Tables}

theorem establishes_act {post : Outcome → World → Prop} {o : Op} {k : o.Reply → Task Outcome}
    (held : ∀ digest, o.Computes digest →
      (k (w.perform digest o).1).Establishes Atom post (w.perform digest o).2) :
    ((act o).bind k).Establishes Atom post w := by
  rintro reply after ⟨digest, computes, same⟩
  have next := held digest computes
  rw [same] at next
  exact next

theorem task_establishes (post : Outcome → Tables → Prop)
    (body : ∀ number, (call.body number).Establishes Atom (fun outcome after => post outcome after.tables)
      ⟨w.tables, number + 1⟩) :
    call.task.Establishes Atom (fun outcome after => post outcome after.tables) w := by
  refine establishes_act fun _ _ => Program.Establishes.bind ((body w.calls).mono ?_)
  intro outcome middle held
  exact establishes_act fun _ _ => held

theorem manages_spec {change : Tables → Outcome × Tables} (manages : call.manages = some change)
    (leads : call.task.Leads Atom w outcome after) :
    (outcome = .failed ∧ after.tables = w.tables) ∨ (outcome, after.tables) = change w.tables := by
  let spec (outcome : Outcome) (t : Tables) : Prop :=
    (outcome = .failed ∧ t = w.tables) ∨ (outcome, t) = change w.tables
  have refused : spec .failed w.tables := .inl ⟨rfl, rfl⟩
  refine (task_establishes spec fun number => ?_).sound leads
  cases call with
  | keyslotCreate =>
    cases manages
    simp only [body, uapiDrvKeyslotCreate]
    split
    · exact refused
    · exact establishes_act fun _ _ => .inr rfl
  | kladCreate =>
    cases manages
    simp only [body, uapiDrvKladCreate]
    split
    · exact refused
    · exact establishes_act fun _ _ => .inr rfl
  | kladSetAttr handle engine =>
    cases engine with
    | none => exact refused
    | some =>
      cases manages
      simp only [body, uapiDrvKladSetAttr]
      split
      · exact refused
      · exact establishes_act fun _ _ => .inr rfl
  | kladSetClearKey handle key =>
    rcases key with _ | ⟨_ | memory, keyLength, hmacType⟩
    · exact refused
    · exact refused
    · cases manages
      simp only [body, uapiDrvKladSetClearKey]
      split
      · exact refused
      · exact establishes_act fun _ _ => .inr rfl
  | deinit | hashStart | macStart | update | finish | symcDestroy => cases manages
  | _ =>
    cases manages
    exact establishes_act fun _ _ => .inr rfl

def Op.digests : Op → Prop
  | .enter _ | .leave _ _ _ | .keyslotMaterial _ _ _ | .allocate _ _ _ | .beginUpdate _ _ _
  | .compute _ _ _ _ | .completeUpdate _ _ _ _ | .failUpdate _ _ _ | .takeResult _ _ _ | .deinit _
  | .symcDestroy _ => True
  | _ => False

theorem front_fits (length : Nat) (key : Bytes keyBytes) : (front length key).length ≤ keyBytes := by
  simp [front]

theorem body_only (number : Nat) :
    (call.body number).Only fun o : Op => o.fits ∧ (call.manages = none → o.digests) := by
  cases call with
  | keyslotCreate | kladCreate =>
    simp only [body, uapiDrvKeyslotCreate, uapiDrvKladCreate]
    split
    · trivial
    · exact ⟨⟨trivial, nofun⟩, fun _ => trivial⟩
  | deinit | symcDestroy => exact ⟨⟨trivial, fun _ => trivial⟩, fun _ => trivial⟩
  | kladSetAttr handle engine =>
    cases engine with
    | none => trivial
    | some =>
      simp only [body, uapiDrvKladSetAttr]
      split
      · trivial
      · exact ⟨⟨trivial, nofun⟩, fun _ => trivial⟩
  | kladSetClearKey handle key =>
    rcases key with _ | ⟨_ | memory, keyLength, hmacType⟩
    · trivial
    · trivial
    simp only [body, uapiDrvKladSetClearKey]
    split
    next => trivial
    next valid =>
      refine ⟨⟨?_, nofun⟩, fun _ => trivial⟩
      change (readable memory keyLength).length ≤ keyBytes
      rw [readable, List.length_map, List.length_range]
      exact Nat.le_of_not_lt fun long => valid (.inr long)
  | hashStart output attributes =>
    cases attributes with
    | none => trivial
    | some =>
      simp only [body, uapiDrvCipherHashStart]
      split
      · trivial
      · refine ⟨⟨trivial, fun _ => trivial⟩, fun material => ?_⟩
        rcases material with _ | ⟨key, keyLen⟩
        · trivial
        · exact ⟨⟨front_fits keyLen key, fun _ => trivial⟩, fun _ => trivial⟩
  | macStart output attributes =>
    cases attributes with
    | none => trivial
    | some =>
      simp only [body, uapiDrvCipherMacStart]
      split
      · trivial
      refine ⟨⟨trivial, fun _ => trivial⟩, fun material => ?_⟩
      rcases material with _ | ⟨key, keyLen⟩
      · trivial
      · change (macAllocate number (some (key, keyLen))).Only _
        unfold macAllocate
        dsimp only
        split
        · trivial
        · exact ⟨⟨front_fits keyLen key, fun _ => trivial⟩, fun _ => trivial⟩
  | update family handle source length =>
    rw [body_update, cipherUpdate]
    cases cipherInput source length with
    | none => trivial
    | some =>
      refine ⟨⟨trivial, fun _ => trivial⟩, fun begun => ?_⟩
      cases begun with
      | none => trivial
      | some =>
        refine ⟨⟨trivial, fun _ => trivial⟩, fun digest => ?_⟩
        cases digest with
        | none | some => exact ⟨⟨trivial, fun _ => trivial⟩, fun _ => trivial⟩
  | finish family handle output length =>
    rw [body_finish, finishCryptoOp.eq_def]
    cases length with
    | none => trivial
    | some =>
      dsimp only
      split
      · trivial
      · exact ⟨⟨trivial, fun _ => trivial⟩, fun _ => trivial⟩
  | _ => exact ⟨⟨trivial, nofun⟩, fun _ => trivial⟩

theorem task_only : call.task.Only fun o : Op => o.fits ∧ (call.manages = none → o.digests) :=
  ⟨⟨trivial, fun _ => trivial⟩, fun number => (body_only number).bind fun _ =>
    ⟨⟨trivial, fun _ => trivial⟩, fun _ => trivial⟩⟩

theorem Tidy.of_call (tidy : Tidy w.tables) (leads : call.task.Leads Atom w outcome after) :
    Tidy after.tables := by
  let related (before after : World) : Prop := Tidy before.tables → Tidy after.tables
  have kept : related w after := by
    refine leads.relates (fun _ tidy => tidy) (fun _ _ _ one two tidy => two (one tidy)) ?_ task_only
    intro w o reply after allowed taken tidy
    exact tidy.atom allowed.1 taken
  exact kept tidy

theorem keys_of_call (none : call.manages = none) (leads : call.task.Leads Atom w outcome after) :
    after.tables.keyslots = w.tables.keyslots ∧ after.tables.klads = w.tables.klads := by
  let kept (before after : World) : Prop :=
    after.tables.keyslots = before.tables.keyslots ∧ after.tables.klads = before.tables.klads
  change kept w after
  refine leads.relates (fun _ => ⟨rfl, rfl⟩)
    (fun _ _ _ one two => ⟨two.1.trans one.1, two.2.trans one.2⟩) ?_ task_only
  intro w o reply after allowed taken
  have digests := allowed.2 none
  obtain ⟨digest, _, same⟩ := taken
  obtain rfl : (w.perform digest o).2 = after := congrArg snd same
  let unchanged (t : Tables) : Prop := t.keyslots = w.tables.keyslots ∧ t.klads = w.tables.klads
  have stays : unchanged w.tables := ⟨rfl, rfl⟩
  cases o with
  | enter | leave | compute | deinit => exact stays
  | keyslotMaterial | beginUpdate | takeResult | symcDestroy =>
    exact onSlot_keeps (P := fun result => unchanged result.2) stays fun _ _ _ => stays
  | allocate =>
    refine onFree_keeps (P := fun result => unchanged result.2) stays fun _ _ => ?_
    split <;> exact stays
  | completeUpdate =>
    change unchanged (completeCryptoUpdate _ _ _ _ _).2
    unfold completeCryptoUpdate
    dsimp only
    split <;> exact stays
  | failUpdate =>
    change unchanged (failCryptoUpdate _ _ _ _).2
    unfold failCryptoUpdate
    dsimp only
    split <;> exact stays
  | keyslotCreate | keyslotDestroy | kladCreate | kladDestroy | kladAttach | kladDetach | kladSetAttr
  | kladSetClearKey => exact digests.elim

section Leases

inductive Bank where | keyslot | klad deriving DecidableEq

structure Lease where
  generation : UInt32
  inUse : Bool
  uses : Nat

def KeyslotState.lease (slot : KeyslotState) : Lease := ⟨slot.generation, slot.inUse, slot.uses⟩

def KladState.lease (slot : KladState) : Lease := ⟨slot.generation, slot.inUse, slot.uses⟩

def Tables.lease (t : Tables) : Bank → Index → Lease
  | .keyslot, index => (t.keyslots index).lease
  | .klad, index => (t.klads index).lease

open Tables (lease)

/-- The handle that a call is given for a slot of the bank. -/
def Call.handle : Bank → Call → Option UInt32
  | .keyslot, .keyslotDestroy handle | .keyslot, .kladAttach _ _ handle
  | .keyslot, .kladDetach _ _ handle => some handle
  | .keyslot, .hashStart _ attributes => attributes.map (·.keyslotHandle)
  | .keyslot, .macStart _ attributes => attributes.map (·.keyslotHandle)
  | .klad, .kladDestroy handle | .klad, .kladAttach handle _ _ | .klad, .kladDetach handle _ _
  | .klad, .kladSetAttr handle _ | .klad, .kladSetClearKey handle _ => some handle
  | _, _ => none

def Bank.destroy (handle : UInt32) : Bank → Call
  | .keyslot => .keyslotDestroy handle
  | .klad => .kladDestroy handle

def Call.creates : Call → Option Bank
  | .keyslotCreate _ _ => some .keyslot
  | .kladCreate _ => some .klad
  | _ => none

def Event.creates (bank : Bank) (index : Index) (event : Event) : Bool :=
  event.call.creates = some bank ∧ ((event.outcome.handle.bind decodeHandle).map fst) = some index

def Event.Rewrites (event : Event) (t : Tables) (index : Index) : Prop :=
  (∃ handle key klad, event.call = .kladSetClearKey handle key ∧
    decodeHandle handle = some (klad, (t.klads klad).generation) ∧ Attached t klad index) ∨
  event.creates .keyslot index = true ∨
  ∃ handle, event.call = .keyslotDestroy handle ∧
    decodeHandle handle = some (index, (t.keyslots index).generation)

structure Follows (t : Tables) (event : Event) (t' : Tables) : Prop where
  uses : ∀ bank index,
    (t'.lease bank index).uses = (t.lease bank index).uses + (event.creates bank index).toNat
  held : ∀ bank index, event.creates bank index = false → (t'.lease bank index).inUse = true →
    (t.lease bank index).inUse = true
  key : ∀ index, (t'.keyslots index).key ≠ (t.keyslots index).key → event.Rewrites t index

variable {event : Event} {bank : Bank} {index : Index} {handle : UInt32}

theorem lease_setKeyslot (slot : KeyslotState) (bank : Bank) (other : Index) :
    (t.setKeyslot index slot).lease bank other =
      if bank = .keyslot ∧ other = index then slot.lease else t.lease bank other := by
  cases bank with
  | klad => rfl
  | keyslot =>
    by_cases same : other = index
    · simp [lease, same]
    · simp [lease, same, setKeyslot_of_ne same]

theorem lease_setKlad (slot : KladState) (bank : Bank) (other : Index) :
    (t.setKlad index slot).lease bank other =
      if bank = .klad ∧ other = index then slot.lease else t.lease bank other := by
  cases bank with
  | keyslot => rfl
  | klad =>
    by_cases same : other = index
    · simp [lease, same]
    · simp [lease, same, setKlad_of_ne same]

theorem Tidy.lease (tidy : Tidy t) (bank : Bank) (index : Index) :
    (t.lease bank index).generation.toNat = generationAt (t.lease bank index).uses := by
  cases bank with
  | keyslot => exact (tidy.keyslots index).uses
  | klad => exact tidy.klads index

variable {t' : Tables} {generation : UInt32} {change : Tables → Outcome × Tables}

section

variable (silent : event.outcome.handle = none)
include silent

theorem follows_quiet
    (uses : ∀ bank index, (t'.lease bank index).uses = (t.lease bank index).uses)
    (held : ∀ bank index, (t'.lease bank index).inUse = true → (t.lease bank index).inUse = true)
    (key : ∀ index, (t'.keyslots index).key ≠ (t.keyslots index).key → event.Rewrites t index) :
    Follows t event t' := by
  have none (bank : Bank) (index : Index) : event.creates bank index = false := by
    simp [Event.creates, silent]
  refine ⟨fun bank index => ?_, fun bank index _ => held bank index, key⟩
  rw [none, uses]
  rfl

theorem follows_same : Follows t event t :=
  follows_quiet silent (fun _ _ => rfl) (fun _ _ held => held) fun _ changed => absurd rfl changed

theorem follows_setKeyslot {slot : KeyslotState}
    (uses : slot.uses = (t.keyslots index).uses)
    (held : slot.inUse = true → (t.keyslots index).inUse = true) (rewrites : event.Rewrites t index) :
    Follows t event (t.setKeyslot index slot) := by
  refine follows_quiet silent ?_ ?_ ?_
  · intro bank other
    rw [lease_setKeyslot]
    split
    next same => rw [same.1, same.2]; exact uses
    next => rfl
  · intro bank other
    rw [lease_setKeyslot]
    split
    next same => rw [same.1, same.2]; exact held
    next => exact id
  · intro other changed
    by_cases same : other = index
    · exact same ▸ rewrites
    · rw [setKeyslot_of_ne same] at changed
      exact absurd rfl changed

theorem follows_setKlad {slot : KladState}
    (uses : slot.uses = (t.klads index).uses) (held : slot.inUse = true → (t.klads index).inUse = true) :
    Follows t event (t.setKlad index slot) := by
  refine follows_quiet silent ?_ ?_ fun _ changed => absurd rfl changed
  · intro bank other
    rw [lease_setKlad]
    split
    next same => rw [same.1, same.2]; exact uses
    next => rfl
  · intro bank other
    rw [lease_setKlad]
    split
    next same => rw [same.1, same.2]; exact held
    next => exact id

end

theorem creates_issued {other : Bank} {number : Index} (creates : call.creates = some bank)
    (decoded : decodeHandle handle = some (index, generation)) :
    Event.creates other number ⟨call, .issue (some handle)⟩ =
      decide (other = bank ∧ number = index) := by
  simp [Event.creates, Outcome.issue, creates, decoded, eq_comm]

theorem follows_create (bank : Bank) {slot : Lease} (creates : call.creates = some bank)
    (decoded : decodeHandle handle = some (index, generation))
    (uses : slot.uses = (t.lease bank index).uses + 1)
    (leases : ∀ other number, t'.lease other number = if other = bank ∧
      number = index then slot else t.lease other number)
    (key : ∀ number, (t'.keyslots number).key ≠ (t.keyslots number).key →
      bank = .keyslot ∧ number = index) :
    Follows t ⟨call, .issue (some handle)⟩ t' := by
  refine ⟨fun other number => ?_, fun other number => ?_, fun number changed => .inr (.inl ?_)⟩
  · rw [creates_issued creates decoded, leases]
    by_cases same : other = bank ∧ number = index
    · rw [if_pos same, same.1, same.2, uses, decide_eq_true ⟨rfl, rfl⟩]
      rfl
    · rw [if_neg same, decide_eq_false same]
      rfl
  · rw [creates_issued creates decoded, leases, decide_eq_false_iff_not]
    intro differ
    rw [if_neg differ]
    exact id
  · rw [creates_issued creates decoded, decide_eq_true_iff]
    obtain ⟨same, here⟩ := key number changed
    exact ⟨same.symm, here⟩

theorem follows_manages (tidy : Tidy t) (manages : call.manages = some change) :
    Follows t ⟨call, (change t).1⟩ (change t).2 := by
  let plain (result : UInt32 × Tables) : Prop := Follows t ⟨call, .plain result.1⟩ result.2
  let issue (result : Option UInt32 × Tables) : Prop := Follows t ⟨call, .issue result.1⟩ result.2
  cases call with
  | keyslotCreate =>
    cases manages
    refine onFree_keeps (P := issue) (follows_same rfl) fun index _ => ?_
    have decoded := decode_taken (tidy.keyslots index).uses index
    refine follows_create .keyslot rfl decoded rfl (lease_setKeyslot _) fun other changed => ?_
    by_contra differ
    exact changed (congrArg KeyslotState.key (setKeyslot_of_ne (fun same => differ ⟨rfl, same⟩) _))
  | keyslotDestroy handle =>
    cases manages
    refine onSlot_keeps (P := plain) (follows_same rfl) fun index decoded _ => ?_
    exact follows_setKeyslot rfl rfl nofun (.inr (.inr ⟨handle, rfl, decoded⟩))
  | kladCreate =>
    cases manages
    refine onFree_keeps (P := issue) (follows_same rfl) fun index _ => ?_
    have decoded := decode_taken (tidy.klads index) index
    exact follows_create .klad rfl decoded rfl (lease_setKlad _) fun _ changed =>
      absurd rfl changed
  | kladDestroy =>
    cases manages
    refine onSlot_keeps (P := plain) (follows_same rfl) fun index _ _ => ?_
    exact follows_setKlad rfl rfl nofun
  | kladAttach =>
    cases manages
    refine onSlot_keeps (P := plain) (follows_same rfl) fun index _ _ => ?_
    refine onSlot_keeps (P := plain) (follows_same rfl) fun _ _ _ => ?_
    exact follows_setKlad rfl rfl id
  | kladDetach =>
    cases manages
    refine onSlot_keeps (P := plain) (follows_same rfl) fun index _ _ => ?_
    exact follows_setKlad rfl rfl id
  | kladSetAttr handle engine =>
    cases engine with
    | none =>
      cases manages
      exact follows_same rfl
    | some =>
      cases manages
      refine onSlot_keeps (P := plain) (follows_same rfl) fun index _ _ => ?_
      exact follows_setKlad rfl rfl id
  | kladSetClearKey handle key =>
    rcases key with _ | ⟨_ | memory, keyLength, hmacType⟩
    · cases manages
      exact follows_same rfl
    · cases manages
      exact follows_same rfl
    cases manages
    refine onSlot_keeps (P := plain) (follows_same rfl) fun klad decoded _ => ?_
    refine onSlot_keeps (P := plain) (follows_same rfl) fun index named _ => ?_
    refine follows_setKeyslot rfl rfl id (.inl ⟨handle, _, klad, rfl, decoded, ?_⟩)
    -- The ladder names a slot, so it is attached to one, and that is the slot.
    have present : (t.klads klad).keyslot ≠ 0 := fun zero => by
      rw [zero, decodeHandle_zero] at named
      cases named
    obtain ⟨keyslot, attached⟩ := tidy.attached klad present
    have same := attached.named.symm.trans named
    obtain rfl : keyslot = index := congrArg fst (Option.some.inj same)
    exact attached
  | _ => cases manages

theorem follows_of_step (tidy : Tidy w.tables) (step : sequences.step w event after) :
    Follows w.tables event after.tables := by
  obtain ⟨call, outcome⟩ := event
  cases manages : call.manages with
  | none =>
    obtain ⟨keyslots, klads⟩ := keys_of_call manages step
    have creates (bank : Bank) (index : Index) : Event.creates bank index ⟨call, outcome⟩ = false := by
      cases call <;> first | rfl | cases manages
    have lease (bank : Bank) (index : Index) : after.tables.lease bank index = w.tables.lease
      bank index := by
      cases bank with
      | keyslot => rw [lease, keyslots, lease]
      | klad => rw [lease, klads, lease]
    refine ⟨fun bank index => ?_, fun bank index _ => ?_, fun index changed => ?_⟩
    · rw [creates, lease]
      rfl
    · rw [lease]
      exact id
    · rw [keyslots] at changed
      exact absurd rfl changed
  | some =>
    rcases manages_spec manages step with ⟨rfl, same⟩ | done
    · rw [same]
      exact follows_same rfl
    · obtain ⟨rfl, tables⟩ := mk.inj done
      rw [tables]
      exact follows_manages tidy manages

/-! ## Handles that were destroyed -/

def Dead (t : Tables) (bank : Bank) (handle : UInt32) : Prop :=
  handle ≠ 0 ∧ ∀ index, decodeHandle handle = some (index, (t.lease bank index).generation) →
    (t.lease bank index).inUse = false

theorem Dead.not_found (dead : Dead t bank handle)
    (decoded : decodeHandle handle = some (index, (t.lease bank index).generation)) :
    (t.lease bank index).inUse ≠ true := by
  rw [dead.2 index decoded]
  decide

theorem status_of_manages (manages : event.call.manages = some change)
    (refuses : (change w.tables).1.status = error) (step : sequences.step w event after) :
    event.outcome.status = error := by
  rcases manages_spec manages step with ⟨failed, _⟩ | done
  · rw [failed]
    rfl
  · have outcome : event.outcome = (change w.tables).1 := congrArg fst done
    rw [outcome]
    exact refuses

theorem Dead.refused (dead : Dead w.tables bank handle) (tidy : Tidy w.tables)
    (given : event.call.handle bank = some handle) (step : sequences.step w event after) :
    event.outcome.status = error := by
  let refuses (result : UInt32 × Tables) : Prop := result.1 = error
  let failed (outcome : Outcome) (_ : Tables) : Prop := outcome.status = error
  have material {handle expectedKind : UInt32} (dead : Dead w.tables .keyslot handle) :
      (w.tables.keyslotMaterial handle expectedKind).1 = none :=
    onSlot_keeps (P := fun result => result.1 = none) rfl fun index decoded passes =>
      absurd passes.1 (dead.not_found decoded)
  obtain ⟨call, outcome⟩ := event
  cases call with
  | keyslotDestroy | kladDestroy =>
    cases bank <;> cases given
    refine status_of_manages rfl (onSlot_keeps (P := refuses) rfl ?_) step
    intro index decoded passes
    exact absurd passes.1 (dead.not_found decoded)
  | kladAttach ladder destination keyslot =>
    refine status_of_manages rfl (onSlot_keeps (P := refuses) rfl fun _ decoded loose => ?_) step
    refine onSlot_keeps (P := refuses) rfl fun _ named live => ?_
    cases bank with
    | keyslot =>
      cases given
      exact absurd live.1 (dead.not_found named)
    | klad =>
      cases given
      exact absurd loose.1 (dead.not_found decoded)
  | kladDetach ladder destination keyslot =>
    refine status_of_manages rfl (onSlot_keeps (P := refuses) rfl fun _ decoded passes => ?_) step
    cases bank with
    | keyslot =>
      cases given
      -- What the ladder names is in use.
      obtain ⟨index, attached⟩ := tidy.attached _ (passes.2.2.symm ▸ dead.1)
      have named := attached.named
      rw [passes.2.2] at named
      exact absurd attached.live (dead.not_found named)
    | klad =>
      cases given
      exact absurd passes.1 (dead.not_found decoded)
  | kladSetAttr ladder engine =>
    cases bank <;> cases given
    cases engine with
    | none => exact status_of_manages rfl rfl step
    | some =>
      refine status_of_manages rfl (onSlot_keeps (P := refuses) rfl ?_) step
      intro index decoded inUse
      exact absurd inUse (dead.not_found decoded)
  | kladSetClearKey ladder key =>
    cases bank <;> cases given
    rcases key with _ | ⟨_ | memory, keyLength, hmacType⟩
    · exact status_of_manages rfl rfl step
    · exact status_of_manages rfl rfl step
    · refine status_of_manages rfl (onSlot_keeps (P := refuses) rfl ?_) step
      intro index decoded inUse
      exact absurd inUse (dead.not_found decoded)
  | hashStart output attributes | macStart output attributes =>
    cases bank <;> cases attributes <;> cases given
    refine (task_establishes failed fun number => ?_).sound step
    simp only [body, uapiDrvCipherHashStart, uapiDrvCipherMacStart]
    split
    · rfl
    · refine establishes_act fun digest _ => ?_
      dsimp only [World.perform, World.on] at dead ⊢
      rw [material dead]
      rfl
  | _ => cases bank <;> cases given

section

variable {origin : World} {events : List Event} (tidy : Tidy origin.tables)
  (run : Run sequences origin events w)
include tidy run

theorem tidy_of_run : Tidy w.tables :=
  have keeps (w : World) (event : Event) (after : World) (tidy : Tidy w.tables)
      (step : sequences.step w event after) : Tidy after.tables := tidy.of_call step
  run.invariant keeps tidy

/-- A slot that is not given out again stays free, and each time it is given out counts. -/
theorem leases_of_run (bank : Bank) (index : Index) : (w.tables.lease bank index).uses =
      (origin.tables.lease bank index).uses + events.countP (Event.creates bank index) ∧
    (events.countP (Event.creates bank index) = 0 → (w.tables.lease bank index).inUse = true →
      (origin.tables.lease bank index).inUse = true) := by
  induction run with
  | start => exact ⟨rfl, fun _ held => held⟩
  | @next labels s t label run step ih =>
    have follows := follows_of_step (tidy_of_run tidy run) step
    have uses := follows.uses bank index
    have held := follows.held bank index
    rw [List.countP_append, List.countP_singleton, uses, ih.1]
    cases created : Event.creates bank index label with
    | true => exact ⟨rfl, fun none => absurd none (Nat.succ_ne_zero _)⟩
    | false => exact ⟨rfl, fun none inUse => ih.2 none (held created inUse)⟩

end

/-- A handle that was destroyed is dead until all generations were used up. -/
theorem dead_of_run {origin : World} {events : List Event} (tidy : Tidy origin.tables)
    (run : Run sequences origin events w) (decoded : decodeHandle handle = some (index, generation))
    (now : (origin.tables.lease bank index).generation = generation)
    (free : (origin.tables.lease bank index).inUse = false)
    (few : events.countP (Event.creates bank index) < generations) : Dead w.tables bank handle := by
  obtain ⟨uses, held⟩ := leases_of_run tidy run bank index
  refine ⟨fun zero => ?_, fun other found => ?_⟩
  · rw [zero, decodeHandle_zero] at decoded
    cases decoded
  obtain ⟨rfl, same⟩ := mk.inj (Option.some.inj (decoded.symm.trans found))
  rw [← now] at same
  have before := tidy.lease bank index
  have later := (tidy_of_run tidy run).lease bank index
  rw [← same, before, uses] at later
  have positive : 0 < (origin.tables.lease bank index).uses := by
    have nonzero := (decodeHandle_iff.mp decoded).2
    rw [← now, before] at nonzero
    exact Nat.pos_of_ne_zero fun zero => nonzero (by rw [zero]; rfl)
  have none := lap_inj positive (Nat.le_add_right _ _) (Nat.add_lt_add_left few _) later
  refine Bool.eq_false_iff.mpr fun inUse => ?_
  rw [held (by omega) inUse] at free
  cases free

def Destroyed (bank : Bank) (handle : UInt32) (t : Tables) : Prop :=
  ∃ index generation, decodeHandle handle = some (index, generation) ∧
    (t.lease bank index).generation = generation ∧ (t.lease bank index).inUse = false

theorem destroyed_of_step (destroys : event.call = bank.destroy handle) (done : event.outcome.status = ok)
    (step : sequences.step w event after) : Destroyed bank handle after.tables := by
  let spec (result : UInt32 × Tables) : Prop := result.1 = ok → Destroyed bank handle result.2
  have refused : spec (error, w.tables) := nofun
  have section_ {change : Tables → UInt32 × Tables} (manages : event.call.manages = some (plainly change))
      (held : spec (change w.tables)) : Destroyed bank handle after.tables := by
    rcases manages_spec manages step with ⟨failed, _⟩ | result
    · rw [failed] at done
      cases done
    · have outcome : event.outcome = .plain (change w.tables).1 := congrArg fst result
      have tables : after.tables = (change w.tables).2 := congrArg snd result
      rw [outcome] at done
      rw [tables]
      exact held done
  cases bank with
  | keyslot =>
    refine section_ (by rw [destroys]; rfl) (onSlot_keeps (P := spec) refused ?_)
    intro index decoded _ _
    refine ⟨index, _, decoded, ?_, ?_⟩ <;> simp [lease, KeyslotState.lease]
  | klad =>
    refine section_ (by rw [destroys]; rfl) (onSlot_keeps (P := spec) refused ?_)
    intro index decoded _ _
    refine ⟨index, _, decoded, ?_, ?_⟩ <;> simp [lease, KladState.lease]

/-- A ladder names only a key slot in use, of the right generation and kind. What is free holds no
secret. A key is written by a clear key over an attached ladder, by giving the slot out or by
destroying it. A handle that was destroyed is refused until its slot was given out once for every
generation. -/
theorem keys_in_custody {events : List Event} (run : Run sequences .new events w) :
    (∀ klad, (w.tables.klads klad).keyslot ≠ 0 → ∃ keyslot, Attached w.tables klad keyslot) ∧
    (∀ index, (w.tables.keyslots index).inUse = false →
      (w.tables.keyslots index).key = zeros keyBytes) ∧
    (∀ family index, (w.tables.digests family index).state = 0 →
      (w.tables.digests family index).key = zeros keyBytes ∧
      (w.tables.digests family index).result = zeros resultBytes) ∧
    (∀ event after, sequences.step w event after → ∀ index,
      (after.tables.keyslots index).key ≠ (w.tables.keyslots index).key →
      event.Rewrites w.tables index) ∧
    ∀ first destroys between names bank handle, events = first ++ destroys :: (between ++ [names]) →
      destroys.call = bank.destroy handle → destroys.outcome.status = ok →
      (∀ slot, decodeHandle handle = some slot →
        between.countP (Event.creates bank slot.1) < generations) →
      names.call.handle bank = some handle → names.outcome.status = error := by
  have tidy := tidy_of_run tidy_new run
  refine ⟨tidy.attached, fun index => (tidy.keyslots index).blank,
    fun family index => (tidy.digests family index).blank,
    fun event after step => (follows_of_step tidy step).key, ?_⟩
  intro first destroys between names bank handle labels call done few given
  subst labels
  obtain ⟨before, destroyed, one, step, two⟩ := run.step_at
  obtain ⟨middle, run, last⟩ := two.last
  obtain ⟨index, generation, decoded, now, free⟩ := destroyed_of_step call done step
  have tidy := (tidy_of_run tidy_new one).of_call step
  have dead := dead_of_run tidy run decoded now free (few _ decoded)
  exact dead.refused (tidy_of_run tidy run) given last

/-- The calls one after the other, with hardware that never answers. -/
def conduct : List Call → World → List Event × World
  | [], w => ([], w)
  | call :: rest, w =>
    let done := call.task.execute (fun w o => w.perform none o) w
    let later := conduct rest done.2
    (⟨call, done.1⟩ :: later.1, later.2)

theorem conduct_runs (calls : List Call) (w : World) :
    Run sequences w (conduct calls w).1 (conduct calls w).2 := by
  have fine (w : World) (o : Op) : Atom w o (w.perform none o).1 (w.perform none o).2 :=
    ⟨none, by cases o <;> first | trivial | nofun, rfl⟩
  induction calls generalizing w with
  | nil => exact .start
  | cons call rest ih =>
    have step : sequences.step w ⟨call, _⟩ _ := Program.leads_execute fine call.task w
    exact (Run.start.next step).trans (ih _)

/-- A ladder is attached to a key slot and given a clear key of four bytes. -/
def ladder : List Call :=
  [.keyslotCreate true keyslotHmac, .kladCreate true, .kladAttach 257 kladDestHmac 257,
    .kladSetAttr 257 (some kladEngineSm3Hmac),
    .kladSetClearKey 257 (some ⟨some fun _ => 7, 4, kladHmacSm3⟩)]

/-- The key is in the slot of the attached ladder; the slot is destroyed once and then unknown. -/
theorem keyslot_destroyed_under_ladder :
    let used := (conduct ladder .new).2.tables
    let left := ladder ++ [.kladDetach 257 kladDestHmac 257]
    let destroyed := conduct [.keyslotDestroy 257] (conduct left .new).2
    let attached := conduct [.kladAttach 257 kladDestHmac 257] destroyed.2
    (used.keyslots ⟨0, by decide⟩).key ⟨3, by decide⟩ = 7 ∧
    (∃ keyslot, Attached used ⟨0, by decide⟩ keyslot) ∧
    destroyed.1.map (·.outcome.status) = [ok] ∧ attached.1.map (·.outcome.status) = [error] := by
  intro used left destroyed attached
  have custody := (keys_in_custody (conduct_runs ladder .new)).1 ⟨0, by decide⟩ (by decide +kernel)
  have done : destroyed.1.map (·.outcome.status) = [ok] := by decide +kernel
  have run := ((conduct_runs left .new).trans (conduct_runs [.keyslotDestroy 257] _)).trans
    (conduct_runs [.kladAttach 257 kladDestHmac 257] _)
  have refused := (keys_in_custody run).2.2.2.2 (conduct left .new).1 _ [] _ .keyslot 257
    (List.append_assoc _ _ _) rfl (List.singleton_inj.mp done) (fun _ _ => Nat.succ_pos _) rfl
  exact ⟨by decide +kernel, custody, done, congrArg ([·]) refused⟩

end Leases

end HisiRf.BleCrypto
