import HisiRf.Interaction.Record
import HisiRf.Supplicant.LinkEvents
import Mathlib.Algebra.GroupWithZero.Nat

/-! Events of the access point driver, from its callback to hostapd.

The driver calls back from one thread. What it delivers is copied into the first
slot that is free, and the runner feeds the slots in the order of their indices.
The callbacks are numbered here, which no routine looks at.
-/

namespace HisiRf.DriverEvents

open Interaction List
open LinkEvents (SlotState VendorBytes)

def mgmtQueueCapacity : Nat := 2
def maxMgmtFrameLen : Nat := 2304

inductive EventKind where | newStation | delStation | rxMgmt deriving DecidableEq

/-- What the driver hands over. A delivery that is null or has the wrong length is `invalid`. -/
inductive Delivery where
  | newStation (reassociated : Int32) (informationElements : VendorBytes) (address : List UInt8)
  | delStation (address : List UInt8)
  | rxMgmt (frame : VendorBytes) (signalMbm frequencyMhz : Int32)
  | invalid

structure MgmtFrame where
  event : EventKind
  frequencyMhz : UInt32
  rssiDbm : Int32
  reassociated : UInt8
  address : List UInt8
  len : Nat
  bytes : Nat → UInt8

def MgmtFrame.new : MgmtFrame := ⟨.rxMgmt, 0, 0, 0, replicate 6 0, 0, fun _ => 0⟩

def MgmtFrame.copy (frame : MgmtFrame) (source : VendorBytes) : Nat → UInt8 := fun k =>
  match source.pointer with
  | none => frame.bytes k
  | some memory => if k < source.len.toNat then memory k else frame.bytes k

def Delivery.usable : Delivery → Bool
  | .newStation _ ies _ =>
    decide (ies.len.toNat ≤ maxMgmtFrameLen) && (ies.len == 0 || ies.pointer.isSome)
  | .delStation _ => true
  | .rxMgmt frame _ _ =>
    frame.pointer.isSome && frame.len != 0 && decide (frame.len.toNat ≤ maxMgmtFrameLen)
  | .invalid => false

def Delivery.write (frame : MgmtFrame) : Delivery → MgmtFrame
  | .newStation reassociated ies address =>
    { frame with
      event := .newStation
      reassociated := if reassociated = 0 then 0 else 1
      address := address
      len := ies.len.toNat
      bytes := frame.copy ies }
  | .delStation address => { frame with event := .delStation, address := address, len := 0 }
  | .rxMgmt source signalMbm frequencyMhz =>
    { frame with
      event := .rxMgmt
      frequencyMhz := if frequencyMhz < 0 then 0 else frequencyMhz.toUInt32
      rssiDbm := signalMbm / 100
      len := source.len.toNat
      bytes := frame.copy source }
  | .invalid => frame

def Delivery.refusal : Delivery → Int32
  | .invalid => 0
  | .newStation _ _ _ | .delStation _ | .rxMgmt _ _ _ => -1

inductive Feed where
  | associated (address bytes : List UInt8) (reassociated : UInt8)
  | disassociated (address : List UInt8)
  | mgmt (frequencyMhz : UInt32) (rssiDbm : Int32) (bytes : List UInt8)

def MgmtFrame.feed (frame : MgmtFrame) : Feed :=
  match frame.event with
  | .newStation =>
    .associated frame.address ((range frame.len).map frame.bytes) frame.reassociated
  | .delStation => .disassociated frame.address
  | .rxMgmt => .mgmt frame.frequencyMhz frame.rssiDbm ((range frame.len).map frame.bytes)

structure MgmtSlot where
  state : SlotState
  number : Nat
  frame : MgmtFrame

abbrev SlotIndex := Fin mgmtQueueCapacity

/-- `begun` is how many callbacks there were. -/
structure World where
  slots : SlotIndex → MgmtSlot
  begun : Nat

def World.new : World := ⟨fun _ => ⟨.free, 0, .new⟩, 0⟩

def World.setSlot (w : World) (slot : SlotIndex) (next : MgmtSlot) : World :=
  { w with slots := Function.update w.slots slot next }

def World.setState (w : World) (slot : SlotIndex) (state : SlotState) : World :=
  w.setSlot slot { w.slots slot with state := state }

theorem setState_slots (w : World) (slot other : SlotIndex) (state : SlotState) :
    (w.setState slot state).slots other =
      { w.slots other with state := if other = slot then state else (w.slots other).state } := by
  by_cases same : other = slot
  · subst same
    simp [World.setState, World.setSlot]
  · simp [World.setState, World.setSlot, same]

/-- The number of a callback goes with its slot and with what is fed. -/
inductive Op where
  | enterEvent
  | claim (slot : SlotIndex) (number : Nat)
  | fill (slot : SlotIndex) (delivery : Delivery)
  | publish (slot : SlotIndex)
  | wakeRunner
  | leaveEvent
  | seize (slot : SlotIndex)
  | read (slot : SlotIndex)
  | feed (number : Nat) (feed : Feed)
  | release (slot : SlotIndex)
  | drainEapol

@[reducible] def Op.Reply : Op → Type
  | .enterEvent => Nat
  | .claim _ _ | .seize _ => Bool
  | .read _ => Nat × MgmtFrame
  | .feed _ _ | .drainEapol => Int32
  | .fill _ _ | .publish _ | .wakeRunner | .leaveEvent | .release _ => Unit

abbrev ops : Signature := ⟨Op, Op.Reply⟩

abbrev Task (A : Type) := Program ops A

def Atom (w : World) : (o : Op) → o.Reply → World → Prop
  | .enterEvent, number, after => number = w.begun ∧ after = { w with begun := w.begun + 1 }
  | .claim slot number, claimed, after =>
    if (w.slots slot).state = .free then
      claimed = true ∧ after = w.setSlot slot { w.slots slot with state := .writing, number := number }
    else claimed = false ∧ after = w
  | .fill slot delivery, _, after =>
    after = w.setSlot slot { w.slots slot with frame := delivery.write (w.slots slot).frame }
  | .publish slot, _, after => after = w.setState slot .ready
  | .seize slot, seized, after =>
    if (w.slots slot).state = .ready then seized = true ∧ after = w.setState slot .reading
    else seized = false ∧ after = w
  | .read slot, found, after => found = ((w.slots slot).number, (w.slots slot).frame) ∧ after = w
  | .release slot, _, after => after = w.setState slot .free
  | .wakeRunner, _, after | .leaveEvent, _, after | .feed _ _, _, after | .drainEapol, _, after =>
    after = w

def perform (o : Op) : Task o.Reply := Program.call (I := ops) o .done

def claimDriverEventSlot (number : Nat) : List SlotIndex → Task (Option SlotIndex)
  | [] => pure none
  | slot :: rest => do
    let claimed ← perform (.claim slot number)
    if claimed then pure (some slot) else claimDriverEventSlot number rest

def placeEvent (delivery : Delivery) : Option SlotIndex → Task Int32
  | none => pure delivery.refusal
  | some slot => do
    perform (.fill slot delivery)
    perform (.publish slot)
    perform .wakeRunner
    pure 0

def apEvent (number : Nat) (delivery : Delivery) : Task Int32 := do
  if delivery.usable = false then pure delivery.refusal
  else
    let slot ← claimDriverEventSlot number (finRange mgmtQueueCapacity)
    placeEvent delivery slot

def callback (delivery : Delivery) : Task Unit := do
  let number ← perform .enterEvent
  let _ ← apEvent number delivery
  perform .leaveEvent

/-- The slots in the order of their indices, until a call into hostapd fails. -/
def drainSlots : List SlotIndex → Task Int32
  | [] => pure 0
  | slot :: rest => do
    let seized ← perform (.seize slot)
    if seized = false then drainSlots rest
    else
      let found ← perform (.read slot)
      let status ← perform (.feed found.1 found.2.feed)
      perform (.release slot)
      if status ≠ 0 then pure status else drainSlots rest

def drainDriverInput : Task Int32 := do
  let status ← drainSlots (finRange mgmtQueueCapacity)
  if status ≠ 0 then pure status else perform .drainEapol

/-- The runner is the first thread, the callbacks come from the second. -/
def eventTasks (i : Nat) (task : Task Unit) : Prop :=
  (i = 0 ∧ task = drainDriverInput.bind fun _ => pure ()) ∨
    i = 1 ∧ ∃ delivery, task = callback delivery

def eventSystem : System (Pool ops World) (PoolLabel ops) := poolSystem Atom eventTasks

inductive RunnerPhase where
  | looking (next : Nat)
  | seized (slot : SlotIndex)
  | holding (slot : SlotIndex) (number : Nat)
  | fed (slot : SlotIndex) (status : Int32)

def RunnerPhase.allows : RunnerPhase → Op → Prop
  | .looking next, .seize slot => slot.val = next
  | .looking next, .drainEapol => next = mgmtQueueCapacity
  | .seized slot, .read other => other = slot
  | .holding _ number, .feed other _ => other = number
  | .fed slot _, .release other => other = slot
  | _, _ => False

def RunnerPhase.after : RunnerPhase → Exchange ops → RunnerPhase
  | .looking next, ⟨.seize slot, won⟩ => if won then .seized slot else .looking (next + 1)
  | .seized slot, ⟨.read _, found⟩ => .holding slot found.1
  | .holding slot _, ⟨.feed _ _, status⟩ => .fed slot status
  | .fed slot status, ⟨.release _, _⟩ => if status ≠ 0 then .looking 0 else .looking (slot.val + 1)
  | _, _ => .looking 0

inductive EventPhase where
  | idle
  | entered (number : Nat)
  | placed (slot : SlotIndex)
  | published

def EventPhase.allows : EventPhase → Op → Prop
  | .idle, .enterEvent => True
  | .entered number, .claim _ other => other = number
  | .entered _, .leaveEvent => True
  | .placed slot, .fill other _ | .placed slot, .publish other => other = slot
  | .published, .wakeRunner | .published, .leaveEvent => True
  | _, _ => False

def EventPhase.after : EventPhase → Exchange ops → EventPhase
  | .idle, ⟨.enterEvent, number⟩ => .entered number
  | .entered number, ⟨.claim slot _, claimed⟩ => if claimed then .placed slot else .entered number
  | .placed slot, ⟨.fill _ _, _⟩ => .placed slot
  | .placed _, ⟨.publish _, _⟩ => .published
  | .published, ⟨.wakeRunner, _⟩ => .published
  | _, _ => .idle

inductive Phase where
  | runner (phase : RunnerPhase)
  | event (phase : EventPhase)
  | stranger

def phases : Protocol ops Phase where
  allows
    | .runner phase, o => phase.allows o
    | .event phase, o => phase.allows o
    | .stranger, _ => False
  after
    | .runner phase, exchange => .runner (phase.after exchange)
    | .event phase, exchange => .event (phase.after exchange)
    | .stranger, _ => .stranger

def home : Nat → Phase
  | 0 => .runner (.looking 0)
  | 1 => .event .idle
  | _ => .stranger

theorem drainSlots_obeys (slots : List SlotIndex) (next : Nat)
    (rest : slots.map Fin.val = range' next slots.length)
    (whole : next + slots.length = mgmtQueueCapacity) :
    (drainSlots slots).Obeys phases (fun status phase => phase =
      .runner (if status ≠ 0 then .looking 0 else .looking mgmtQueueCapacity))
        (.runner (.looking next)) := by
  induction slots generalizing next with
  | nil =>
    have here : next = mgmtQueueCapacity := by simpa using whole
    subst here
    rfl
  | cons slot slots ih =>
    rw [map_cons, length_cons, range'_succ, cons.injEq] at rest
    obtain ⟨here, others⟩ := rest
    have remaining : next + 1 + slots.length = mgmtQueueCapacity := by
      rw [length_cons] at whole
      omega
    have goes := ih (next + 1) others remaining
    constructor
    · exact here
    intro seized
    cases seized with
    | false => exact goes
    | true =>
      refine ⟨rfl, fun found => ⟨rfl, fun status => ⟨rfl, fun _ => ?_⟩⟩⟩
      change (if status ≠ 0 then pure status else drainSlots slots).Obeys phases _
        (.runner (if status ≠ 0 then .looking 0 else .looking (slot.val + 1)))
      by_cases failed : status ≠ 0
      · rw [if_pos failed, if_pos failed]
        exact congrArg Phase.runner (if_pos failed).symm
      · rw [if_neg failed, if_neg failed, here]
        exact goes

theorem drain_obeys : (drainDriverInput.bind fun _ => pure ()).Obeys phases
    (fun _ phase => phase = home 0) (home 0) := by
  have slots := drainSlots_obeys (finRange mgmtQueueCapacity) 0 (by simp [range_eq_range'])
    (by simp)
  apply Program.Obeys.bind
  refine Program.Obeys.mono (p := drainDriverInput) (slots.next ?_)
    (fun _ _ same => same)
  intro status phase same
  subst same
  by_cases failed : status ≠ 0
  · rw [if_pos failed, if_pos failed]
    rfl
  · rw [if_neg failed, if_neg failed]
    exact ⟨rfl, fun _ => rfl⟩

def afterClaim (number : Nat) : Option SlotIndex → Phase
  | none => .event (.entered number)
  | some slot => .event (.placed slot)

theorem claim_obeys (number : Nat) (slots : List SlotIndex) :
    (claimDriverEventSlot number slots).Obeys phases
      (fun slot phase => phase = afterClaim number slot) (.event (.entered number)) := by
  induction slots with
  | nil => rfl
  | cons slot slots ih =>
    constructor
    · rfl
    · intro claimed
      cases claimed with
      | false => exact ih
      | true => rfl

theorem callback_obeys (delivery : Delivery) :
    (callback delivery).Obeys phases (fun _ phase => phase = home 1) (home 1) := by
  constructor
  · trivial
  intro number
  have leaves (phase : Phase) (free : phase = .event (.entered number) ∨ phase = .event .published) :
      (perform .leaveEvent).Obeys phases (fun _ phase => phase = home 1) phase := by
    rcases free with rfl | rfl <;> exact ⟨trivial, fun _ => rfl⟩
  have placed : (apEvent number delivery).Obeys phases
      (fun _ phase => phase = .event (.entered number) ∨ phase = .event .published)
      (.event (.entered number)) := by
    unfold apEvent
    split
    · exact .inl rfl
    · apply Program.Obeys.bind
      refine (claim_obeys number _).mono ?_
      intro slot phase same
      subst same
      cases slot with
      | none => exact .inl rfl
      | some => exact ⟨rfl, fun _ => ⟨rfl, fun _ => ⟨trivial, fun _ => .inr rfl⟩⟩⟩
  exact placed.next fun _ phase free => leaves phase free

theorem tasks_obey (i : Nat) (task : Task Unit) (given : eventTasks i task) :
    task.Obeys phases (fun _ phase => phase = home i) (home i) := by
  rcases given with ⟨rfl, rfl⟩ | ⟨rfl, delivery, rfl⟩
  · exact drain_obeys
  · exact callback_obeys delivery

end HisiRf.DriverEvents
