import HisiRf.Interaction.Pool
import HisiRf.Netif.HostTx
import HisiRf.Netif.RxStop
import HisiRf.Netif.UserCleanup
import HisiRf.Supplicant.Deauth

/-! The tasks that take a station down and bring it up again, over the trackers they share.

Each routine is its sequence of critical sections, accesses to single words and
native calls, in the order of the source. A native call is entered and left in
two actions, so that everyone else may act while it runs; a callback that runs
on the calling thread is no different from one on another thread, because it
touches nothing but the shared trackers. Loops that wait poll at most `rounds`
times, and every finite run is one with enough rounds.
-/

namespace HisiRf.Teardown

open Interaction

inductive WorkerState where | free | starting | ready | poisoned deriving DecidableEq

/-- The trackers, the word that tells whether the worker runs, the flag of the queued RX path and
the receipt in the owner of the native context. -/
structure World where
  queue : Deauth.Queue
  workerState : WorkerState
  hostTx : HostTx.Tracker
  cleanup : UserCleanup.Tracker
  rxRejected : Bool
  rxStop : RxStop.Transaction
  disconnectReceipt : Except Int32 (Option Deauth.Receipt)

def World.boot : World := ⟨.new, .free, .new, .new, false, .new, .ok none⟩

inductive QueueCall where
  | pop
  | complete (ticket : Deauth.Ticket) (status : Int32)
  | beginInline (reason : UInt16)
  | health
  | wakeFailed
  | workerUnavailable
  | checkpoint
  | receiptSince (before : Deauth.Checkpoint)

@[reducible] def QueueCall.Reply : QueueCall → Type
  | .pop => Option Deauth.Request
  | .complete _ _ | .health => Except Deauth.Error Unit
  | .beginInline _ => Except Deauth.Error Deauth.Request
  | .wakeFailed | .workerUnavailable => Unit
  | .checkpoint => Deauth.Checkpoint
  | .receiptSince _ => Except Deauth.Error Deauth.Receipt

def QueueCall.answer (q : Deauth.Queue) : (call : QueueCall) → call.Reply × Deauth.Queue
  | .pop => q.pop
  | .complete ticket status => q.complete ticket status
  | .beginInline reason => q.beginInline reason
  | .health => (q.health, q)
  | .wakeFailed => ((), q.wakeFailed)
  | .workerUnavailable => ((), q.workerUnavailable)
  | .checkpoint => (q.checkpoint, q)
  | .receiptSince before => (q.receiptSince before, q)

inductive HostTxCall where
  | begin (pointer : Nat)
  | postReturned (ticket : HostTx.Ticket) (status : Int32)
  | dispatch (pointer : Nat)
  | beforeFree (pointer : Nat)
  | complete (ticket : HostTx.Ticket) (freeing : Bool) (status : Int32)
  | close
  | sealAdmission
  | fail (status : Int32)
  | drained

@[reducible] def HostTxCall.Reply : HostTxCall → Type
  | .begin _ => Except HostTx.Rejection HostTx.Ticket
  | .dispatch _ | .beforeFree _ => Option HostTx.Ticket
  | .postReturned _ _ | .complete _ _ _ | .close | .sealAdmission | .fail _ => Unit
  | .drained => Except Int32 Bool

def HostTxCall.answer (t : HostTx.Tracker) : (call : HostTxCall) → call.Reply × HostTx.Tracker
  | .begin pointer => t.begin pointer
  | .postReturned ticket status => ((), t.postReturned ticket status)
  | .dispatch pointer => t.dispatch pointer
  | .beforeFree pointer => t.beforeFree pointer
  | .complete ticket freeing status => ((), t.complete ticket freeing status)
  | .close => ((), t.close)
  | .sealAdmission => ((), t.sealAdmission)
  | .fail status => ((), t.fail status)
  | .drained => (t.drained, t)

inductive CleanupCall where
  | checkedStatus (status : Int32)
  | beginFree (user : Nat)
  | finishFree (ticket : UserCleanup.Ticket) (status : UInt32)
  | finish (ticket : Option UserCleanup.Ticket) (outer : UInt32)

@[reducible] def CleanupCall.Reply : CleanupCall → Type
  | .checkedStatus _ => Int32
  | .beginFree _ => Option UserCleanup.Ticket
  | .finishFree _ _ => Unit
  | .finish _ _ => UInt32

def CleanupCall.answer (t : UserCleanup.Tracker) :
    (call : CleanupCall) → call.Reply × UserCleanup.Tracker
  | .checkedStatus status => ((t.checkedStatus status.toUInt32).toInt32, t)
  | .beginFree user => t.beginFree user
  | .finishFree ticket status => ((), t.finishFree ticket status)
  | .finish ticket outer => t.finish ticket outer

inductive StopCall where
  | install
  | requestAt (startedMs : UInt64)
  | posted (now : Option UInt64) (status : Int32)
  | resultAt (now : Option UInt64)
  | enterAt (now : Option UInt64)
  | checkDeadline (now : Option UInt64)
  | mayRebuildAt (now : Option UInt64)
  | finishAt (report : Option Int32) (now : Option UInt64) (before after empty : UInt8)
      (status : Int32)
  | observe (checkpoint : RxStop.Checkpoint) (now : Option UInt64)
  | fail (status : Int32)

@[reducible] def StopCall.Reply : StopCall → Type
  | .requestAt _ | .enterAt _ | .checkDeadline _ => Except Int32 Unit
  | .resultAt _ => Except Int32 Bool
  | .mayRebuildAt _ => Bool
  | .finishAt _ _ _ _ _ _ | .fail _ => Int32
  | .install | .posted _ _ | .observe _ _ => Unit

def StopCall.answer (t : RxStop.Transaction) : (call : StopCall) → call.Reply × RxStop.Transaction
  | .install => ((), t.install)
  | .requestAt startedMs => t.requestAt startedMs
  | .posted now status => ((), (t.observe .posted now).postReturned status)
  | .resultAt now => t.resultAt now
  | .enterAt now => t.enterAt now
  | .checkDeadline now => t.checkDeadline now
  | .mayRebuildAt now => t.mayRebuildAt now
  | .finishAt report now before after empty status =>
    -- The report of a rebuild comes first; its own fault of zero is no fault.
    let reported := match report with
      | some fault => if fault ≠ 0 then t.fail fault else t
      | none => t
    let finished := reported.finishAt now before after empty status
    (finished.fault, finished)
  | .observe checkpoint now => ((), t.observe checkpoint now)
  | .fail status => ((t.fail status).fault, t.fail status)

inductive Op where
  | queue (call : QueueCall)
  | hostTx (call : HostTxCall)
  | cleanup (call : CleanupCall)
  | rxStop (call : StopCall)
  /- critical sections over several trackers -/
  | closeAndPush (reason : UInt16)
  | closeAndBegin (user : Nat)
  | prepareAssociation
  | ioctlsReturned (receipt : Option Deauth.Receipt)
  /- single words -/
  | claimWorker
  | loadWorkerState
  | storeWorkerState (state : WorkerState)
  | rxModeRejected
  | rejectRx
  | loadReceipt
  | storeReceipt (receipt : Except Int32 (Option Deauth.Receipt))
  /- what is outside the trackers: any answer is possible -/
  | clock
  | sleep
  | wake
  | succeeds
  | native
  | notifyRunner
  | closeRoute
  | associationStarted
  | sendStop
  | enterAssociate
  | leaveAssociate
  /- The request is not passed on; it tells for which one the call is made. -/
  | enterDisconnect (request : Deauth.Request)
  | leaveDisconnect

@[reducible] def Op.Reply : Op → Type
  | .queue call => call.Reply
  | .hostTx call => call.Reply
  | .cleanup call => call.Reply
  | .rxStop call => call.Reply
  | .closeAndPush _ => Except Deauth.Error Deauth.Ticket
  | .closeAndBegin _ => Option UserCleanup.Ticket
  | .prepareAssociation => Except Int32 Unit
  | .ioctlsReturned _ => Except Deauth.Error Bool
  | .claimWorker => Except WorkerState Unit
  | .loadWorkerState => WorkerState
  | .loadReceipt => Except Int32 (Option Deauth.Receipt)
  | .clock => Option UInt64
  | .rxModeRejected | .sleep | .wake | .succeeds => Bool
  | .native | .sendStop | .leaveAssociate | .leaveDisconnect => Int32
  | .storeWorkerState _ | .rejectRx | .storeReceipt _ | .notifyRunner | .closeRoute
  | .associationStarted | .enterAssociate | .enterDisconnect _ => Unit

abbrev ops : Signature := ⟨Op, Op.Reply⟩

abbrev Task (A : Type) := Program ops A

def unsupportedQueuedRx : Int32 := -0x1024

/-- One decision over the disconnect, user and host-TX trackers. -/
def World.prepareAssociation (w : World) : Except Int32 Unit × World :=
  if w.rxRejected then (.error unsupportedQueuedRx, w)
  else
    match w.queue.pollIdle with
    | .ok (.ready ()) =>
      let resumed := w.hostTx.resumeHandshake w.cleanup.handshakeStatus.toInt32
      (resumed.1, { w with hostTx := resumed.2 })
    | .ok .pending => (.error Deauth.Error.busy.status, w)
    | .error error => (.error error.status, w)

def World.ioctlsReturned (w : World) (receipt : Option Deauth.Receipt) : Except Deauth.Error Bool :=
  match w.queue.pollIdle with
  | .error error => .error error
  | .ok idle =>
    match receipt with
    | none => .ok (idle = .ready ())
    | some receipt =>
      match w.queue.poll receipt with
      | .error error => .error error
      | .ok polled => .ok (polled ≠ .pending ∧ idle = .ready ())

inductive Atom (w : World) : (o : Op) → o.Reply → World → Prop where
  | queue (call : QueueCall) :
      Atom w (.queue call) (call.answer w.queue).1 { w with queue := (call.answer w.queue).2 }
  | hostTx (call : HostTxCall) :
      Atom w (.hostTx call) (call.answer w.hostTx).1 { w with hostTx := (call.answer w.hostTx).2 }
  | cleanup (call : CleanupCall) :
      Atom w (.cleanup call) (call.answer w.cleanup).1
        { w with cleanup := (call.answer w.cleanup).2 }
  | rxStop (call : StopCall) :
      Atom w (.rxStop call) (call.answer w.rxStop).1 { w with rxStop := (call.answer w.rxStop).2 }
  | closeAndPush (reason : UInt16) :
      Atom w (.closeAndPush reason) (w.queue.push reason).1
        { w with hostTx := w.hostTx.close, queue := (w.queue.push reason).2 }
  | closeAndBegin (user : Nat) :
      Atom w (.closeAndBegin user) (w.cleanup.begin user).1
        { w with hostTx := w.hostTx.close, cleanup := (w.cleanup.begin user).2 }
  | prepareAssociation : Atom w .prepareAssociation w.prepareAssociation.1 w.prepareAssociation.2
  | ioctlsReturned (receipt : Option Deauth.Receipt) :
      Atom w (.ioctlsReturned receipt) (w.ioctlsReturned receipt) w
  | claimWorker : w.workerState = .free →
      Atom w .claimWorker (.ok ()) { w with workerState := .starting }
  | claimRefused : w.workerState ≠ .free → Atom w .claimWorker (.error w.workerState) w
  | loadWorkerState : Atom w .loadWorkerState w.workerState w
  | storeWorkerState (state : WorkerState) :
      Atom w (.storeWorkerState state) () { w with workerState := state }
  | rxModeRejected : Atom w .rxModeRejected w.rxRejected w
  | rejectRx : Atom w .rejectRx () { w with rxRejected := true }
  | loadReceipt : Atom w .loadReceipt w.disconnectReceipt w
  | storeReceipt (receipt : Except Int32 (Option Deauth.Receipt)) :
      Atom w (.storeReceipt receipt) () { w with disconnectReceipt := receipt }
  | clock (now : Option UInt64) : Atom w .clock now w
  | sleep (done : Bool) : Atom w .sleep done w
  | wake (done : Bool) : Atom w .wake done w
  | succeeds (done : Bool) : Atom w .succeeds done w
  | native (status : Int32) : Atom w .native status w
  | notifyRunner : Atom w .notifyRunner () w
  | closeRoute : Atom w .closeRoute () w
  | associationStarted : Atom w .associationStarted () w
  | sendStop (status : Int32) : Atom w .sendStop status w
  | enterAssociate : Atom w .enterAssociate () w
  | leaveAssociate (status : Int32) : Atom w .leaveAssociate status w
  | enterDisconnect (request : Deauth.Request) : Atom w (.enterDisconnect request) () w
  | leaveDisconnect (status : Int32) : Atom w .leaveDisconnect status w

def atom (o : Op) : Task o.Reply := Program.call (I := ops) o .done

/-! Host transmission. -/

def waitForDrain (started : UInt64) : Nat → Task (Except Int32 Unit)
  | 0 => pure (.error HostTx.drainTimeout)
  | rounds + 1 => do
    match ← atom (.hostTx .drained) with
    | .error status => pure (.error status)
    | .ok true => pure (.ok ())
    | .ok false =>
      match ← atom .clock with
      | none => pure (.error HostTx.contractError)
      | some now =>
        if now < started ∨ 1000 ≤ now - started then pure (.error HostTx.drainTimeout)
        else
          let slept ← atom .sleep
          if slept then waitForDrain started rounds
          else pure (.error HostTx.contractError)

def noteDrain : Except Int32 Unit → Task (Except Int32 Unit)
  | .error status => do
    atom (.hostTx (.fail status))
    pure (.error status)
  | .ok () => pure (.ok ())

def closeAndDrain (rounds : Nat) : Task (Except Int32 Unit) := do
  atom (.hostTx .close)
  match ← atom .clock with
  | none => noteDrain (.error HostTx.contractError)
  | some started =>
    let result ← waitForDrain started rounds
    noteDrain result

def sealAndDrain (rounds : Nat) : Task (Except Int32 Unit) := do
  atom (.hostTx .sealAdmission)
  closeAndDrain rounds

def post (kind : UInt16) (netbuf : Nat) : Task Int32 := do
  if kind ≠ 4 then atom .native
  else
    match ← atom (.hostTx (.begin netbuf)) with
    | .error .release =>
      let _ ← atom .native
      pure HostTx.contractError
    | .error .duplicate => pure HostTx.contractError
    | .ok ticket =>
      let status ← atom .native
      atom (.hostTx (.postReturned ticket status))
      pure status

/-- `pointer` is what the message names, or zero if it is malformed. -/
def dispatch (kind : UInt16) (pointer : Nat) : Task Int32 := do
  let ticket ← if kind = 4 then atom (.hostTx (.dispatch pointer)) else pure none
  let status ← atom .native
  match ticket with
  | some ticket => atom (.hostTx (.complete ticket false status))
  | none => pure ()
  pure status

def free (netbuf : Nat) : Task UInt32 := do
  let ticket ← atom (.hostTx (.beforeFree netbuf))
  let status ← atom .native
  match ticket with
  | some ticket => atom (.hostTx (.complete ticket true status))
  | none => pure ()
  pure status.toUInt32

/-! Native users and the queued RX path. -/

def deleteUser (user : Nat) : Task UInt32 := do
  atom .closeRoute
  let ticket ← atom (.closeAndBegin user)
  let status ← atom .native
  atom (.cleanup (.finish ticket status.toUInt32))

/-- `injected` is the status that the fault-injection build reports in place of a success. -/
def freeUser (injected : Option UInt32) (user : Nat) : Task UInt32 := do
  let ticket ← atom (.cleanup (.beginFree user))
  let returned ← atom .native
  match ticket with
  | none => pure returned.toUInt32
  | some ticket =>
    let status := if returned = 0 then injected.getD 0 else returned.toUInt32
    atom (.cleanup (.finishFree ticket status))
    pure status

def postMessage (message : UInt16) : Task Int32 := do
  if message = 595 then
    atom .rejectRx
    atom .closeRoute
    pure 103
  else atom .native

/-! Deauthentication. -/

def startDeauthWorker : Task (Except Unit Unit) := do
  match ← atom .claimWorker with
  | .error .ready => pure (.ok ())
  | .error _ => pure (.error ())
  | .ok () =>
    let initialized ← atom .succeeds
    if initialized = false then
      atom (.storeWorkerState .poisoned)
      pure (.error ())
    else
      let spawned ← atom .succeeds
      if spawned = false then
        atom (.storeWorkerState .poisoned)
        pure (.error ())
      else
        atom (.storeWorkerState .ready)
        pure (.ok ())

def disconnectAfterHostTxDrain (rounds : Nat) (request : Deauth.Request) : Task Int32 := do
  match ← closeAndDrain rounds with
  | .error status => pure status
  | .ok () =>
    atom (.enterDisconnect request)
    atom .leaveDisconnect

/-- The native part of a request, with the faults of user cleanup taken in. -/
def checkedDisconnect (rounds : Nat) (request : Deauth.Request) : Task Int32 := do
  let status ← disconnectAfterHostTxDrain rounds request
  atom (.cleanup (.checkedStatus status))

def deauthWorker (rounds : Nat) : Task Unit := do
  match ← atom (.queue .pop) with
  | none => pure ()
  | some request =>
    let status ← checkedDisconnect rounds request
    match ← atom (.queue (.complete request.ticket status)) with
    | .error _ => atom (.storeWorkerState .poisoned)
    | .ok () => pure ()
    atom .notifyRunner

/-- The result of an inline request: its own status, if nothing else went wrong. -/
def inlineResult (status : Int32) : Except Deauth.Error Unit → Task (Except Deauth.Error Int32)
  | .error error => pure (.error error)
  | .ok () => do
    match ← atom (.queue .health) with
    | .error error => pure (.error error)
    | .ok () => pure (.ok status)

def runInline (rounds : Nat) (reason : UInt16) : Task (Except Deauth.Error Int32) := do
  match ← atom (.queue (.beginInline reason)) with
  | .error error => pure (.error error)
  | .ok request =>
    let status ← checkedDisconnect rounds request
    let completed ← atom (.queue (.complete request.ticket status))
    let woken ← atom .wake
    if woken = false then atom (.queue .wakeFailed)
    inlineResult status completed

def disconnectInline (rounds : Nat) (reason : UInt16) : Task Int32 := do
  atom .closeRoute
  let state ← atom .loadWorkerState
  if state ≠ .ready then
    atom (.queue .workerUnavailable)
    pure Deauth.Error.workerUnavailable.status
  else
    let result ← runInline rounds reason
    atom .notifyRunner
    match result with
    | .error error => pure error.status
    | .ok status => pure status

def queueDeauthentication (reason : UInt16) : Task Int32 := do
  atom .closeRoute
  let state ← atom .loadWorkerState
  if state ≠ .ready then
    atom (.hostTx .close)
    atom (.queue .workerUnavailable)
    pure (-1)
  else
    match ← atom (.closeAndPush reason) with
    | .error _ => pure (-1)
    | .ok _ =>
      let woken ← atom .wake
      if woken then pure 0
      else
        atom (.queue .wakeFailed)
        atom (.storeWorkerState .poisoned)
        atom .notifyRunner
        pure (-1)

/-! Association. -/

def prevAuthNotValid : UInt16 := 2

def associationIoctl : Task Int32 := do
  atom .associationStarted
  atom .enterAssociate
  atom .leaveAssociate

/-- The second attempt, after the stale station state was cleared. -/
def associateAgain (rounds : Nat) (first : Int32) : Task Int32 := do
  let cleared ← disconnectInline rounds prevAuthNotValid
  if cleared ≠ 0 then pure first
  else
    match ← atom .prepareAssociation with
    | .error status => pure status
    | .ok () => associationIoctl

/-- `acceptable` tells whether the request passes the checks on its fields. -/
def associate (rounds : Nat) (acceptable : Bool) : Task Int32 := do
  if acceptable = false then pure (-1)
  else
    match ← atom .prepareAssociation with
    | .error status => pure status
    | .ok () =>
      let first ← associationIoctl
      if first = 0 then pure 0 else associateAgain rounds first

/-! The stop of native reception: the waiting task and the device worker. -/

def queuedRx : Int32 := -0x1024

def awaitStop : Nat → Task (Except Int32 Unit)
  | 0 => pure (.error RxStop.contract)
  | rounds + 1 => do
    let now ← atom .clock
    match ← atom (.rxStop (.resultAt now)) with
    | .error status => pure (.error status)
    | .ok true => pure (.ok ())
    | .ok false =>
      let slept ← atom .sleep
      if slept then awaitStop rounds else pure (.error RxStop.contract)

/-- Whether reception goes through the host queue, which the stop does not cover. -/
def receivesQueued : Task Bool := do
  let rejected ← atom .rxModeRejected
  if rejected then pure true
  else
    let thruput ← atom .native
    pure (thruput ≠ 0)

def stopAndWait (rounds : Nat) : Task (Except Int32 Unit) := do
  let queued ← receivesQueued
  if queued then pure (.error queuedRx)
  else
    match ← atom .clock with
    | none => pure (.error RxStop.contract)
    | some started =>
      match ← atom (.rxStop (.requestAt started)) with
      | .error status => pure (.error status)
      | .ok () =>
        let status ← atom .sendStop
        let now ← atom .clock
        atom (.rxStop (.posted now status))
        awaitStop rounds

def stopOnce (rounds : Nat) : Task (Except Int32 Unit) := do
  match ← stopAndWait rounds with
  | .error status =>
    let _ ← atom (.rxStop (.fail status))
    pure (.error status)
  | .ok () => pure (.ok ())

def observeStop (checkpoint : RxStop.Checkpoint) : Task Unit := do
  let now ← atom .clock
  atom (.rxStop (.observe checkpoint now))

/-- What follows the native teardown, which ended with `status`. -/
def finishStop (report : Int32) (device : Bool) (before status : Int32) : Task Int32 := do
  observeStop .destroyed
  let after ← atom .native
  if device = false then atom (.rxStop (.fail RxStop.contract))
  else
    let empty ← atom .native
    let now ← atom .clock
    let rebuilt ← if status = 0 ∧ after = 0 ∧ empty = 1 then atom (.rxStop (.mayRebuildAt now))
      else pure false
    let now ← atom .clock
    atom (.rxStop (.finishAt (if rebuilt then some report else none) now before.toUInt32.toUInt8
      after.toUInt32.toUInt8 empty.toUInt32.toUInt8 status))

/-- The native teardown under the device worker. `report` is the fault of the rebuild, which is
attempted only if the transaction still allows it, and `device` whether there is a device. -/
def stopNatively (report : Int32) (device : Bool) : Task Int32 := do
  let before ← atom .native
  observeStop .disabled
  let disabled ← atom .native
  let status ← if disabled = 0 then atom .native else pure RxStop.macEnabled
  finishStop report device before status

/-- The handler of the stop message; `sameWorker` tells whether it runs on the device worker. -/
def stopHandler (matching sameWorker device : Bool) (report : Int32) : Task Int32 := do
  if matching = false then atom .native
  else
    let now ← atom .clock
    match ← atom (.rxStop (.enterAt now)) with
    | .error status => pure status
    | .ok () =>
      if sameWorker = false then atom (.rxStop (.fail RxStop.contract))
      else
        let queued ← receivesQueued
        if queued then atom (.rxStop (.fail queuedRx))
        else
          let now ← atom .clock
          match ← atom (.rxStop (.checkDeadline now)) with
          | .error status => pure status
          | .ok () => stopNatively report device

/-! Calls of the unique owner of the native context. -/

def disconnectIoctlsReturned : Task (Except Int32 Bool) := do
  match ← atom .loadReceipt with
  | .error status => pure (.error status)
  | .ok receipt =>
    match ← atom (.ioctlsReturned receipt) with
    | .ok false => pure (.ok false)
    | .ok true =>
      atom (.storeReceipt (.ok none))
      pure (.ok true)
    | .error error =>
      atom (.storeReceipt (.error error.status))
      pure (.error error.status)

def requireDisconnectReturned : Task (Except Int32 Unit) := do
  match ← disconnectIoctlsReturned with
  | .error status => pure (.error status)
  | .ok true => pure (.ok ())
  | .ok false => pure (.error (-0x6307))

/-- What the C code may ask of the driver while the owner is in one of its calls. -/
inductive Hook where
  | associate (acceptable : Bool)
  | deauthenticate (reason : UInt16)

def hook (rounds : Nat) : Hook → Task Int32
  | .associate acceptable => associate rounds acceptable
  | .deauthenticate reason => queueDeauthentication reason

def callHooks (rounds : Nat) : List Hook → Task Int32
  | [] => atom .native
  | first :: rest => do
    let _ ← hook rounds first
    callHooks rounds rest

def connect (rounds : Nat) (hooks : List Hook) : Task (Except Int32 Unit) := do
  match ← requireDisconnectReturned with
  | .error status => pure (.error status)
  | .ok () =>
    let status ← callHooks rounds hooks
    pure (if status = 0 then .ok () else .error status)

def disconnect (rounds : Nat) (hooks : List Hook) : Task (Except Int32 Unit) := do
  match ← requireDisconnectReturned with
  | .error status => pure (.error status)
  | .ok () =>
    let before ← atom (.queue .checkpoint)
    let status ← callHooks rounds hooks
    match ← atom (.queue (.receiptSince before)) with
    | .error error =>
      atom (.storeReceipt (.error error.status))
      pure (.error error.status)
    | .ok receipt =>
      atom (.storeReceipt (.ok (some receipt)))
      pure (if status = 0 then .ok () else .error status)

/-- What happens in a poll: a call of the C code, or a link event that first needs the stale
station state cleared. -/
inductive Work where
  | call (hook : Hook)
  | clear

def serveWork (rounds : Nat) : List Work → Task (Except Int32 Unit)
  | [] => pure (.ok ())
  | .call first :: rest => do
    let _ ← hook rounds first
    serveWork rounds rest
  | .clear :: rest => do
    let cleared ← disconnectInline rounds prevAuthNotValid
    if cleared ≠ 0 then pure (.error cleared) else serveWork rounds rest

def poll (rounds : Nat) (work : List Work) : Task (Except Int32 Unit) := do
  match ← disconnectIoctlsReturned with
  | .error status => pure (.error status)
  | .ok false => pure (.ok ())
  | .ok true => serveWork rounds work

def finishDisconnect (rounds : Nat) : Task (Except Int32 Unit) := do
  match ← requireDisconnectReturned with
  | .error status => pure (.error status)
  | .ok () =>
    match ← sealAndDrain rounds with
    | .error status => pure (.error status)
    | .ok () =>
      let status ← atom (.cleanup (.checkedStatus 0))
      if status = 0 then stopOnce rounds else pure (.error status)

inductive Job where
  | startDeauthWorker
  | deauthWorker (rounds : Nat)
  | disconnectInline (rounds : Nat) (reason : UInt16)
  | queueDeauthentication (reason : UInt16)
  | associate (rounds : Nat) (acceptable : Bool)
  | post (kind : UInt16) (netbuf : Nat)
  | dispatch (kind : UInt16) (pointer : Nat)
  | free (netbuf : Nat)
  | deleteUser (user : Nat)
  | freeUser (injected : Option UInt32) (user : Nat)
  | postMessage (message : UInt16)
  | installStop
  | stopHandler (matching sameWorker device : Bool) (report : Int32)
  | contextCall (rounds : Nat) (hooks : List Hook)
  | connect (rounds : Nat) (hooks : List Hook)
  | disconnect (rounds : Nat) (hooks : List Hook)
  | poll (rounds : Nat) (work : List Work)
  | finishDisconnect (rounds : Nat)

def silently {A : Type} (task : Task A) : Task Unit := task.bind fun _ => .done ()

def Job.task : Job → Task Unit
  | .startDeauthWorker => silently Teardown.startDeauthWorker
  | .deauthWorker rounds => silently (Teardown.deauthWorker rounds)
  | .disconnectInline rounds reason => silently (Teardown.disconnectInline rounds reason)
  | .queueDeauthentication reason => silently (Teardown.queueDeauthentication reason)
  | .associate rounds acceptable => silently (Teardown.associate rounds acceptable)
  | .post kind netbuf => silently (Teardown.post kind netbuf)
  | .dispatch kind pointer => silently (Teardown.dispatch kind pointer)
  | .free netbuf => silently (Teardown.free netbuf)
  | .deleteUser user => silently (Teardown.deleteUser user)
  | .freeUser injected user => silently (Teardown.freeUser injected user)
  | .postMessage message => silently (Teardown.postMessage message)
  | .installStop => silently (atom (.rxStop .install))
  | .stopHandler matching sameWorker device report =>
    silently (Teardown.stopHandler matching sameWorker device report)
  | .contextCall rounds hooks => silently (callHooks rounds hooks)
  | .connect rounds hooks => silently (Teardown.connect rounds hooks)
  | .disconnect rounds hooks => silently (Teardown.disconnect rounds hooks)
  | .poll rounds work => silently (Teardown.poll rounds work)
  | .finishDisconnect rounds => silently (Teardown.finishDisconnect rounds)

def anyJob (_ : Nat) (task : Task Unit) : Prop := ∃ job : Job, task = job.task

/-- The routines that are reached only through the native context. -/
def Job.ofOwner : Job → Bool
  | .disconnectInline _ _ | .queueDeauthentication _ | .associate _ _ | .contextCall _ _
  | .connect _ _ | .disconnect _ _ | .poll _ _ | .finishDisconnect _ => true
  | _ => false

/-- One thread owns the native context and makes all calls of it, one after the other. -/
def ownedJobs (thread : Nat) (task : Task Unit) : Prop :=
  ∃ job : Job, task = job.task ∧ (job.ofOwner = true → thread = 0)

/-- The threads with any jobs, and those with one owner. -/
def crowd : System (Pool ops World) (PoolLabel ops) := poolSystem Atom anyJob

def station : System (Pool ops World) (PoolLabel ops) := poolSystem Atom ownedJobs

end HisiRf.Teardown
