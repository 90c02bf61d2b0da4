import HisiRf.Interaction.Sum
import HisiRf.Timer.Service

/-! The LiteOS timers on top of the timer service.

There are sixteen control blocks, each with a timer of the service below. The
handler of all these timers is `swtmr_fire`, which finds its control block by the
data of the timer, calls the handler that is kept there and arms a periodic timer
again.

Each thread notes which call it is in, which timer the call is about, and for which
timer of the service it is calling a handler. No routine looks at these notes.
-/

namespace HisiRf.Swtmr

open Interaction Function
open EventGroup (osalOk)

def swtmrCount : Nat := 16

abbrev Index := Fin swtmrCount

/-- A handler is known by its address; zero is the null pointer. -/
structure Cb where
  state : UInt8
  mode : UInt8
  inProcess : UInt8
  timerId : UInt16
  interval : UInt32
  expiry : UInt32
  arg : UInt32
  handler : UInt32

def Cb.empty : Cb := ⟨0, 0, 0, 0, 0, 0, 0, 0⟩

def Cb.periodic (cb : Cb) : Bool := cb.mode == 1

/-- Status codes; those of LiteOS are unsigned in the source. -/
def ok : Int32 := 0
def error : Int32 := 1
def osOk : Int32 := 0
def osError : Int32 := -1
def osErrorParameter : Int32 := -4

def indexOf (id : Nat) : Option Index :=
  if bound : id < swtmrCount then some ⟨id, bound⟩ else none

/-- The number of a timer is found again in the data of the timer below. -/
theorem indexOf_data (index : Index) : indexOf index.val.toUInt32.toNat = some index := by
  revert index
  decide

/-- The timer of the service that belongs to a control block. -/
def runtime (index : Index) : Nat := index.val + 1

theorem runtime_ne_zero (index : Index) : runtime index ≠ 0 := Nat.succ_ne_zero _

theorem runtime_inj {index other : Index} (same : runtime index = runtime other) : index = other :=
  Fin.ext (Nat.succ.inj same)

/-- The address of `swtmr_fire`. -/
def swtmrFireEntry : Nat := 1

/-- A pointer to a control block is its index, if it is one. -/
inductive Request where
  | create (interval : UInt32) (mode : UInt8) (handler : UInt32) (output : Bool) (arg : UInt32)
  | start (id : UInt16)
  | stop (id : UInt16)
  | delete (id : UInt16)
  | osTimerStart (id : Option Index) (ticks : UInt32)

def Request.names : Request → Option Index
  | .create _ _ _ _ _ => none
  | .start id | .stop id | .delete id => indexOf id.toNat
  | .osTimerStart id _ => id

structure World where
  osal : Timer.World
  cbs : Index → Cb
  calls : Nat → Option (Request × Option Index)
  current : Nat → Option Nat

def runtimeFields (timer : Nat) : Option Nat × UInt32 × UInt32 :=
  if 0 < timer ∧ timer ≤ swtmrCount then (some swtmrFireEntry, 0, 1) else (none, 0, 0)

def World.new : World where
  osal := .new runtimeFields
  cbs _ := .empty
  calls _ := none
  current _ := none

namespace World

def setCb (w : World) (index : Index) (cb : Cb) : World :=
  { w with cbs := update w.cbs index cb }

def freeIndex (w : World) : Option Index :=
  (List.finRange swtmrCount).find? fun index => (w.cbs index).state == 0

/-- The first critical section of `LOS_SwtmrCreate`. -/
def claimCb (w : World) (thread : Nat) (interval : UInt32) (mode : UInt8) (handler arg : UInt32) :
    Option Index × World :=
  match w.freeIndex with
  | none => (none, w)
  | some index =>
    let claimed := w.setCb index { Cb.empty with
      state := 2
      mode := mode
      timerId := index.val.toUInt16
      interval := interval
      expiry := interval
      arg := arg
      handler := handler }
    (some index, { claimed with
      calls := update w.calls thread
        ((w.calls thread).map fun call => (call.1, some index)) })

/-- `LOS_SwtmrCreate` writes into its timer, which is not registered yet. -/
def prepare (w : World) (index : Index) (interval : UInt32) : World :=
  { w with osal := w.osal.setObject (runtime index) { w.osal.objects (runtime index) with
    timer := 0
    data := index.val.toUInt32
    interval := interval } }

/-- The critical section of `LOS_SwtmrStart`. -/
def startCb (w : World) (index : Index) : Option UInt32 × World :=
  if (w.cbs index).state = 0 then (none, w)
  else (some (max (w.cbs index).expiry 1), w.setCb index { w.cbs index with state := 3 })

/-- The first critical section of `swtmr_fire`: the handler, its argument and whether the timer is
periodic. -/
def beginFire (w : World) (index : Index) : (UInt32 × UInt32 × Bool) × World :=
  let cb := w.cbs index
  ((cb.handler, cb.arg, cb.periodic), w.setCb index { cb with
    inProcess := if cb.inProcess = 255 then cb.inProcess else cb.inProcess + 1
    state := if cb.periodic then 3 else 2 })

def endFire (w : World) (index : Index) : World :=
  let cb := w.cbs index
  w.setCb index { cb with inProcess := if cb.inProcess = 0 then 0 else cb.inProcess - 1 }

/-- The critical section of `osTimerStart`. -/
def setPeriod (w : World) (index : Index) (ticks : UInt32) : World :=
  w.setCb index { w.cbs index with expiry := ticks, interval := ticks }

end World

variable {w : World} {index : Index}

@[simp] theorem setCb_self (cb : Cb) : (w.setCb index cb).cbs index = cb := update_self _ _ _

theorem setCb_of_ne {other : Index} (differ : other ≠ index) (cb : Cb) :
    (w.setCb index cb).cbs other = w.cbs other := update_of_ne differ _ _

theorem state_of_freeIndex (free : w.freeIndex = some index) : (w.cbs index).state = 0 := by
  have found := List.find?_some free
  simpa using found

section Routines

inductive Op where
  | claimCb (thread : Nat) (interval : UInt32) (mode : UInt8) (handler arg : UInt32)
  | prepare (index : Index) (interval : UInt32)
  | clearCb (index : Index)
  /- The result is put into the memory of the caller. -/
  | setOutput (index : Index)
  | startCb (index : Index)
  | isAllocated (index : Index)
  | stopCb (index : Index)
  | setPeriod (index : Index) (ticks : UInt32)
  | beginFire (index : Index)
  | callHandler (thread : Nat) (index : Index) (handler arg : UInt32)
  | endFire (index : Index)
  | readInterval (index : Index)
  /- How many calls a handler makes at most, and its next call. -/
  | plan
  | nextRequest
  /- Notes: a call is entered and left, and the handler of a timer of the service returns. -/
  | enter (thread : Nat) (request : Request)
  | leave (thread : Nat) (request : Request) (status : Int32)
  | returned (thread : Nat)

@[reducible] def Op.Reply : Op → Type
  | .claimCb _ _ _ _ _ => Option Index
  | .startCb _ => Option UInt32
  | .isAllocated _ => Bool
  | .beginFire _ => UInt32 × UInt32 × Bool
  | .readInterval _ => UInt32
  | .plan => Nat
  | .nextRequest => Option Request
  | .prepare _ _ | .clearCb _ | .setOutput _ | .stopCb _ | .setPeriod _ _ | .callHandler _ _ _ _
  | .endFire _ | .enter _ _ | .leave _ _ _ | .returned _ => Unit

abbrev ops : Signature := Timer.ops.sum ⟨Op, Op.Reply⟩

abbrev Task (A : Type) := Program ops A

/-- A handler of the service is called: the rest of its sweep is told for whom. -/
def noteCurrent (current : Nat → Option Nat) : Timer.Op → Nat → Option Nat
  | .dispatch thread timer true => update current thread (some timer)
  | _ => current

inductive Atom (w : World) : (o : ops.Op) → ops.Reply o → World → Prop where
  | osal {o : Timer.Op} {reply : o.Reply} {next : Timer.World} : Timer.Atom w.osal o reply next →
      Atom w (.inl o) reply { w with osal := next, current := noteCurrent w.current o }
  | claimCb (thread : Nat) (interval : UInt32) (mode : UInt8) (handler arg : UInt32) :
      Atom w (.inr (.claimCb thread interval mode handler arg))
        (w.claimCb thread interval mode handler arg).1 (w.claimCb thread interval mode handler arg).2
  | prepare (index : Index) (interval : UInt32) :
      Atom w (.inr (.prepare index interval)) () (w.prepare index interval)
  | clearCb (index : Index) : Atom w (.inr (.clearCb index)) () (w.setCb index .empty)
  | setOutput (index : Index) : Atom w (.inr (.setOutput index)) () w
  | startCb (index : Index) : Atom w (.inr (.startCb index)) (w.startCb index).1 (w.startCb index).2
  | isAllocated (index : Index) :
      Atom w (.inr (.isAllocated index)) ((w.cbs index).state != 0) w
  | stopCb (index : Index) :
      Atom w (.inr (.stopCb index)) () (w.setCb index { w.cbs index with state := 2 })
  | setPeriod (index : Index) (ticks : UInt32) :
      Atom w (.inr (.setPeriod index ticks)) () (w.setPeriod index ticks)
  | beginFire (index : Index) :
      Atom w (.inr (.beginFire index)) (w.beginFire index).1 (w.beginFire index).2
  | callHandler (thread : Nat) (index : Index) (handler arg : UInt32) :
      Atom w (.inr (.callHandler thread index handler arg)) () w
  | endFire (index : Index) : Atom w (.inr (.endFire index)) () (w.endFire index)
  | readInterval (index : Index) : Atom w (.inr (.readInterval index)) (w.cbs index).interval w
  | plan (calls : Nat) : Atom w (.inr .plan) calls w
  | nextRequest (next : Option Request) : Atom w (.inr .nextRequest) next w
  | enter (thread : Nat) (request : Request) :
      Atom w (.inr (.enter thread request)) ()
        { w with calls := update w.calls thread (some (request, request.names)) }
  | leave (thread : Nat) (request : Request) (status : Int32) :
      Atom w (.inr (.leave thread request status)) ()
        { w with calls := update w.calls thread none }
  | returned (thread : Nat) :
      Atom w (.inr (.returned thread)) ()
        { w with current := update w.current thread none }

def own (o : Op) : Task o.Reply := Program.call (I := ops) (.inr o) .done

variable (thread : Nat)

def osal (call : Timer.Call) : Task Int32 := (call.task thread).left

def finishCreate (index : Index) (status : Int32) : Task Int32 :=
  if status = osalOk then do
    own (.setOutput index)
    pure ok
  else do
    own (.clearCb index)
    pure error

def createFor (interval : UInt32) : Option Index → Task Int32
  | none => pure error
  | some index => do
    own (.prepare index interval)
    let status ← osal thread (.init (runtime index))
    finishCreate index status

def losSwtmrCreate (interval : UInt32) (mode : UInt8) (handler : UInt32) (output : Bool)
    (arg : UInt32) : Task Int32 :=
  if interval = 0 ∨ handler = 0 ∨ output = false ∨ 2 < mode then pure error
  else do
    let index ← own (.claimCb thread interval mode handler arg)
    createFor thread interval index

def armFor (index : Index) : Option UInt32 → Task Int32
  | none => pure error
  | some interval => do
    let status ← osal thread (.mod (runtime index) interval)
    pure (if status = osalOk then ok else error)

def startIndex (index : Index) : Task Int32 := do
  let interval ← own (.startCb index)
  armFor thread index interval

def finishStop (index : Index) (status : Int32) : Task Int32 :=
  if status = osalOk then do
    own (.stopCb index)
    pure ok
  else pure error

def stopIndex (index : Index) : Task Int32 := do
  let allocated ← own (.isAllocated index)
  if allocated then do
    let status ← osal thread (.stop (runtime index))
    finishStop index status
  else pure error

def deleteIndex (index : Index) : Task Int32 := do
  let _ ← osal thread (.destroy (runtime index))
  own (.clearCb index)
  pure ok

def withIndex (id : UInt16) (body : Index → Task Int32) : Task Int32 :=
  match indexOf id.toNat with
  | none => pure error
  | some index => body index

def losSwtmrStart (id : UInt16) : Task Int32 := withIndex id (startIndex thread)

def losSwtmrStop (id : UInt16) : Task Int32 := withIndex id (stopIndex thread)

def losSwtmrDelete (id : UInt16) : Task Int32 := withIndex id (deleteIndex thread)

def osTimerStart (id : Option Index) (ticks : UInt32) : Task Int32 :=
  match id with
  | none => pure osErrorParameter
  | some index =>
    if ticks = 0 then pure osErrorParameter
    else do
      own (.setPeriod index ticks)
      let status ← startIndex thread index
      pure (if status = ok then osOk else osError)

def Request.body : Request → Task Int32
  | .create interval mode handler output arg => losSwtmrCreate thread interval mode handler output arg
  | .start id => losSwtmrStart thread id
  | .stop id => losSwtmrStop thread id
  | .delete id => losSwtmrDelete thread id
  | .osTimerStart id ticks => Swtmr.osTimerStart thread id ticks

def Request.task (request : Request) : Task Int32 := do
  own (.enter thread request)
  let status ← request.body thread
  own (.leave thread request status)
  pure status

def makeRequest (rest : Task Unit) : Option Request → Task Unit
  | none => pure ()
  | some request => do
    let _ ← request.task thread
    rest

def nextRequests : Nat → Task Unit
  | 0 => pure ()
  | calls + 1 => do
    let next ← own .nextRequest
    makeRequest thread (nextRequests calls) next

def callHandler (index : Index) (handler arg : UInt32) : Task Unit :=
  if handler = 0 then pure ()
  else do
    own (.callHandler thread index handler arg)
    let calls ← own .plan
    nextRequests thread calls

def armAgain (index : Index) (periodic : Bool) : Task Unit :=
  if periodic then do
    let interval ← own (.readInterval index)
    let _ ← osal thread (.mod (runtime index) (max interval 1))
    pure ()
  else pure ()

def fireIndex (index : Index) : Task Unit := do
  let found ← own (.beginFire index)
  callHandler thread index found.1 found.2.1
  own (.endFire index)
  armAgain thread index found.2.2

def swtmrFire (data : UInt32) : Task Unit :=
  match indexOf data.toNat with
  | none => pure ()
  | some index => fireIndex thread index

def callback (handler : Nat) (data : UInt32) : Task Unit := do
  if handler = swtmrFireEntry then swtmrFire thread data else pure ()
  own (.returned thread)

def sweep : Task Unit := Timer.timeoutProc Program.left (callback thread) thread

inductive Job where
  | request (request : Request)
  | sweep

def Job.task : Job → Task Unit
  | .request call => do
    let _ ← call.task thread
    pure ()
  | .sweep => Swtmr.sweep thread

end Routines

def swtmrTasks (thread : Nat) (p : Task Unit) : Prop := ∃ job : Job, p = job.task thread

def swtmrSystem : System (Pool ops World) (PoolLabel ops) := poolSystem Atom swtmrTasks

end HisiRf.Swtmr
