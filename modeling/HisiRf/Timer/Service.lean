import HisiRf.Osal.EventGroup
import Mathlib.Algebra.GroupWithZero.Nat
import Mathlib.Data.List.FinRange

/-! The software timer service: a table of slots, and timers that are owned by their users.

A timer holds the number of its slot as a handle. A sweep collects the timers that
are due in one critical section and calls their handlers one after the other
afterwards, when other calls may already have changed the table. A handler may make
any calls, as may every other task.

Each thread notes which call it is in and which timers it has collected and not
come to yet. No routine looks at these notes.
-/

namespace HisiRf.Timer

open Interaction Function
open EventGroup (osalOk osalNok)

def maxTimers : Nat := 32

abbrev SlotIndex := Fin maxTimers

/-- `timer` is the handle: the number of the slot plus one, or zero. -/
structure OsalTimer where
  timer : Nat
  handler : Option Nat
  data : UInt32
  interval : UInt32

structure Slot where
  used : Bool
  active : Bool
  periodic : Bool
  timer : Nat
  deadline : UInt64
  interval : UInt64

def Slot.empty : Slot := ⟨false, false, false, 0, 0, 0⟩

def slotOf (handle : Nat) : Option SlotIndex :=
  if fits : 0 < handle ∧ handle ≤ maxTimers then some ⟨handle - 1, by omega⟩ else none

def handleOf (slot : SlotIndex) : Nat := slot.val + 1

inductive Call where
  | init (timer : Nat)
  | adaptInit (timer func : Nat) (data interval : UInt32)
  | mod (timer : Nat) (interval : UInt32)
  | stop (timer : Nat)
  | destroy (timer : Nat)

def Call.timer : Call → Nat
  | .init timer | .adaptInit timer _ _ _ | .mod timer _ | .stop timer | .destroy timer => timer

/-- Timers are known by their addresses; zero is the null pointer. -/
structure World where
  slots : SlotIndex → Slot
  objects : Nat → OsalTimer
  calls : Nat → Option Call
  batch : Nat → List Nat

/-- What the users have put into their timers, with null handles. -/
def World.new (fields : Nat → Option Nat × UInt32 × UInt32) : World where
  slots _ := .empty
  objects timer := ⟨0, (fields timer).1, (fields timer).2.1, (fields timer).2.2⟩
  calls _ := none
  batch _ := []

namespace World

def setSlot (w : World) (slot : SlotIndex) (next : Slot) : World :=
  { w with slots := update w.slots slot next }

def setObject (w : World) (timer : Nat) (next : OsalTimer) : World :=
  { w with objects := update w.objects timer next }

def freeSlot (w : World) : Option SlotIndex :=
  (List.finRange maxTimers).find? fun slot => !(w.slots slot).used

/-- The critical section of `alloc_slot`. -/
def allocSlot (w : World) : Option SlotIndex × World :=
  match w.freeSlot with
  | none => (none, w)
  | some slot => (some slot, w.setSlot slot { Slot.empty with used := true })

/-- The last critical section of `osal_timer_init`. -/
def register (w : World) (slot : SlotIndex) (timer : Nat) : World :=
  w.setSlot slot { w.slots slot with
    timer := timer
    interval := (w.objects timer).interval.toUInt64 }

/-- The critical section of `osal_timer_mod`. -/
def arm (w : World) (slot : SlotIndex) (now : UInt64) (interval : UInt32) : Int32 × World :=
  if (w.slots slot).used then
    (osalOk, w.setSlot slot { w.slots slot with
      interval := interval.toUInt64
      deadline := now + interval.toUInt64
      active := true
      periodic := false })
  else (osalNok, w)

theorem arm_notes (w : World) (slot : SlotIndex) (now : UInt64) (interval : UInt32) :
    (w.arm slot now interval).2.calls = w.calls ∧ (w.arm slot now interval).2.batch = w.batch := by
  unfold arm
  split <;> exact ⟨rfl, rfl⟩

/-- The critical section of `osal_timer_stop`. -/
def disarm (w : World) (slot : SlotIndex) : Bool × World :=
  ((w.slots slot).active, w.setSlot slot { w.slots slot with active := false })

def isDue (w : World) (now : UInt64) (slot : SlotIndex) : Bool :=
  (w.slots slot).used && (w.slots slot).active && (w.slots slot).deadline ≤ now

def expire (now : UInt64) (slot : Slot) : Slot :=
  if slot.periodic then { slot with deadline := now + slot.interval }
  else { slot with active := false }

def collect (w : World) (thread : Nat) (now : UInt64) : List Nat × World :=
  let due := ((List.finRange maxTimers).filter (w.isDue now)).map fun slot => (w.slots slot).timer
  (due, { w with
    slots := fun slot => if w.isDue now slot then expire now (w.slots slot) else w.slots slot
    batch := update w.batch thread (due.filter (· ≠ 0)) })

end World

inductive Op where
  | inspect (timer : Nat)
  | readHandle (timer : Nat)
  | setHandle (timer handle : Nat)
  | setInterval (timer : Nat) (interval : UInt32)
  | reset (timer func : Nat) (data interval : UInt32)
  | populate (timer : Nat) (handler : Option Nat) (data interval : UInt32)
  | ensureTimerWorker
  | allocSlot
  | register (slot : SlotIndex) (timer : Nat)
  | nowMs
  /- The timer is told for the record only. -/
  | arm (timer : Nat) (slot : SlotIndex) (now : UInt64) (interval : UInt32)
  | disarm (timer : Nat) (slot : SlotIndex)
  | clear (timer : Nat) (slot : SlotIndex)
  | collect (thread : Nat) (now : UInt64)
  | readCallback (timer : Nat)
  /- How many calls a handler makes at most, and its next call. -/
  | plan
  | nextCall
  /- Notes: a call is entered and left, and a collected timer is come to. -/
  | enter (thread : Nat) (call : Call)
  | leave (thread : Nat) (call : Call) (status : Int32)
  | dispatch (thread timer : Nat) (called : Bool)

@[reducible] def Op.Reply : Op → Type
  | .inspect _ => OsalTimer
  | .readHandle _ => Nat
  | .ensureTimerWorker => Bool
  | .allocSlot => Option SlotIndex
  | .nowMs => UInt64
  | .arm _ _ _ _ => Int32
  | .disarm _ _ => Bool
  | .collect _ _ => List Nat
  | .readCallback _ => Option (Nat × UInt32)
  | .plan => Nat
  | .nextCall => Option Call
  | .setHandle _ _ | .setInterval _ _ | .reset _ _ _ _ | .populate _ _ _ _ | .register _ _
  | .clear _ _ | .enter _ _ | .leave _ _ _ | .dispatch _ _ _ => Unit

abbrev ops : Signature := ⟨Op, Op.Reply⟩

abbrev Task (A : Type) := Program ops A

def World.callbackOf (w : World) (timer : Nat) : Option (Nat × UInt32) :=
  (w.objects timer).handler.map fun handler => (handler, (w.objects timer).data)

inductive Atom (w : World) : (o : Op) → o.Reply → World → Prop where
  | inspect (timer : Nat) : Atom w (.inspect timer) (w.objects timer) w
  | readHandle (timer : Nat) : Atom w (.readHandle timer) (w.objects timer).timer w
  | setHandle (timer handle : Nat) :
      Atom w (.setHandle timer handle) () (w.setObject timer { w.objects timer with timer := handle })
  | setInterval (timer : Nat) (interval : UInt32) :
      Atom w (.setInterval timer interval) ()
        (w.setObject timer { w.objects timer with interval := interval })
  | reset (timer func : Nat) (data interval : UInt32) :
      Atom w (.reset timer func data interval) () (w.setObject timer ⟨0, some func, data, interval⟩)
  | populate (timer : Nat) (handler : Option Nat) (data interval : UInt32) :
      Atom w (.populate timer handler data interval) ()
        (w.setObject timer ⟨(w.objects timer).timer, handler, data, interval⟩)
  | ensureTimerWorker (started : Bool) : Atom w .ensureTimerWorker started w
  | allocSlot : Atom w .allocSlot w.allocSlot.1 w.allocSlot.2
  | register (slot : SlotIndex) (timer : Nat) :
      Atom w (.register slot timer) () (w.register slot timer)
  | nowMs (now : UInt64) : Atom w .nowMs now w
  | arm (timer : Nat) (slot : SlotIndex) (now : UInt64) (interval : UInt32) :
      Atom w (.arm timer slot now interval) (w.arm slot now interval).1 (w.arm slot now interval).2
  | disarm (timer : Nat) (slot : SlotIndex) :
      Atom w (.disarm timer slot) (w.disarm slot).1 (w.disarm slot).2
  | clear (timer : Nat) (slot : SlotIndex) : Atom w (.clear timer slot) () (w.setSlot slot .empty)
  | collect (thread : Nat) (now : UInt64) :
      Atom w (.collect thread now) (w.collect thread now).1 (w.collect thread now).2
  | readCallback (timer : Nat) : Atom w (.readCallback timer) (w.callbackOf timer) w
  | plan (calls : Nat) : Atom w .plan calls w
  | nextCall (call : Option Call) : Atom w .nextCall call w
  | enter (thread : Nat) (call : Call) :
      Atom w (.enter thread call) () { w with calls := update w.calls thread (some call) }
  | leave (thread : Nat) (call : Call) (status : Int32) :
      Atom w (.leave thread call status) () { w with calls := update w.calls thread none }
  | dispatch (thread timer : Nat) (called : Bool) :
      Atom w (.dispatch thread timer called) ()
        { w with batch := update w.batch thread (w.batch thread).tail }

def atom (o : Op) : Task o.Reply := Program.call (I := ops) o .done

/-- What `osal_timer_init` asks of a timer. -/
def OsalTimer.ready (object : OsalTimer) : Bool :=
  object.handler.isSome && object.timer == 0 && object.interval != 0

def afterAlloc (timer : Nat) : Option SlotIndex → Task Int32
  | none => pure osalNok
  | some slot => do
    atom (.setHandle timer (handleOf slot))
    atom (.register slot timer)
    pure osalOk

def osalTimerInit (timer : Nat) : Task Int32 :=
  if timer = 0 then pure osalNok
  else do
    let object ← atom (.inspect timer)
    if object.ready then do
      let started ← atom .ensureTimerWorker
      if started then do
        let slot ← atom .allocSlot
        afterAlloc timer slot
      else pure osalNok
    else pure osalNok

def osalAdaptTimerInit (timer func : Nat) (data interval : UInt32) : Task Int32 :=
  if timer = 0 ∨ func = 0 then pure osalNok
  else do
    atom (.reset timer func data interval)
    osalTimerInit timer

def slotOfTimer (timer : Nat) : Task (Option SlotIndex) :=
  if timer = 0 then pure none
  else do
    let handle ← atom (.readHandle timer)
    pure (slotOf handle)

def modSlot (timer : Nat) (interval : UInt32) : Option SlotIndex → Task Int32
  | none => pure osalNok
  | some slot => do
    atom (.setInterval timer interval)
    let now ← atom .nowMs
    atom (.arm timer slot now interval)

def osalTimerMod (timer : Nat) (interval : UInt32) : Task Int32 :=
  if interval = 0 then pure osalNok
  else do
    let slot ← slotOfTimer timer
    modSlot timer interval slot

def stopSlot (timer : Nat) : Option SlotIndex → Task Int32
  | none => pure osalNok
  | some slot => do
    let wasActive ← atom (.disarm timer slot)
    pure (if wasActive then 1 else 0)

def osalTimerStop (timer : Nat) : Task Int32 := do
  let slot ← slotOfTimer timer
  stopSlot timer slot

def destroySlot (timer : Nat) : Option SlotIndex → Task Int32
  | none => pure osalOk
  | some slot => do
    atom (.clear timer slot)
    atom (.setHandle timer 0)
    pure osalOk

def osalTimerDestroy (timer : Nat) : Task Int32 := do
  let slot ← slotOfTimer timer
  destroySlot timer slot

def Call.body : Call → Task Int32
  | .init timer => osalTimerInit timer
  | .adaptInit timer func data interval => osalAdaptTimerInit timer func data interval
  | .mod timer interval => osalTimerMod timer interval
  | .stop timer => osalTimerStop timer
  | .destroy timer => osalTimerDestroy timer

def Call.task (thread : Nat) (call : Call) : Task Int32 := do
  atom (.enter thread call)
  let status ← call.body
  atom (.leave thread call status)
  pure status

section Sweep

variable {J : Signature} (ask : {A : Type} → Task A → Program J A)
  (callback : Nat → UInt32 → Program J Unit) (thread : Nat)

def fire (timer : Nat) : Option (Nat × UInt32) → Program J Unit
  | none => ask (atom (.dispatch thread timer false))
  | some (handler, data) => do
    ask (atom (.dispatch thread timer true))
    callback handler data

def fireEach : List Nat → Program J Unit
  | [] => pure ()
  | timer :: rest =>
    if timer = 0 then fireEach rest
    else do
      let found ← ask (atom (.readCallback timer))
      fire ask callback thread timer found
      fireEach rest

def timeoutProc : Program J Unit := do
  let now ← ask (atom .nowMs)
  let due ← ask (atom (.collect thread now))
  fireEach ask callback thread due

end Sweep

def makeCall (thread : Nat) (rest : Task Unit) : Option Call → Task Unit
  | none => pure ()
  | some call => do
    let _ ← call.task thread
    rest

def nextCalls (thread : Nat) : Nat → Task Unit
  | 0 => pure ()
  | calls + 1 => do
    let next ← atom .nextCall
    makeCall thread (nextCalls thread calls) next

def anyCallback (thread : Nat) (_ : Nat) (_ : UInt32) : Task Unit := do
  let calls ← atom .plan
  nextCalls thread calls

def localTimerTimeoutProc (thread : Nat) : Task Unit :=
  timeoutProc (fun task => task) (anyCallback thread) thread

inductive Job where
  | call (call : Call)
  | sweep
  | populate (timer : Nat) (handler : Option Nat) (data interval : UInt32)

def Job.task (thread : Nat) : Job → Task Unit
  | .call request => do
    let _ ← request.task thread
    pure ()
  | .sweep => localTimerTimeoutProc thread
  | .populate timer handler data interval => atom (.populate timer handler data interval)

def timerTasks (thread : Nat) (p : Task Unit) : Prop := ∃ job : Job, p = job.task thread

def timerSystem : System (Pool ops World) (PoolLabel ops) := poolSystem Atom timerTasks

end HisiRf.Timer
