import HisiRf.Backend.ErrorMap
import HisiRf.Backend.Port
import HisiRf.Interaction.Shared

/-! The globals behind a scan, the port methods that use them and the vendor callbacks.

The runner and the vendor's event thread share one atomic flag, one event queue
and one record guarded by critical sections. An atomic access, a critical
section and a native call are one action each. The slots of the event queue are
abstracted to a list, so that an enqueue and a drain are one action as well.
-/

namespace HisiRf

open Interaction

def maxScanResults : Nat := 32
def scanEventQueueDepth : Nat := 33

structure ScanState where
  active : Bool
  done : Bool
  count : Nat
  status : ScanStatus
  resultsReleased : Bool

inductive ScanEvent where
  | result
  | done (status : UInt32)

/-- Where a vendor callback stands. Its next action is named by the phase. -/
inductive CallbackPhase where
  | idle
  | swapActive (status : UInt32)
  | queueDone (status : UInt32)
  | publishDone (status : UInt32)
  | loadActive
  | queueResult
  | reserveResult

structure ScanGlobals where
  portReady : Bool
  nativeScanActive : Bool
  queue : List ScanEvent
  acceptedResults : Nat
  scan : ScanState
  callbacks : Nat → CallbackPhase

inductive ScanAtom where
  | requireDisconnectReturned
  | loadPortReady
  | captureScan
  | beginScanCapture
  | releaseScan
  | beginTransaction
  | loadScanActive
  | queuePending
  | claimScanTimeout
  | discardPending
  | openScan
  | scanIoctl
  | finishScan
  | readScan
  | claimRelease
  | clearResults
  | unclaimRelease
  | loadResult (index : Nat)
  | forceScanComplete
  | submitNative (op : PortOp)
  | pollNative (budget : Nat)
  | nextNative
  | observe (op : PortOp)

@[reducible] def ScanAtom.Reply : ScanAtom → Type
  | .requireDisconnectReturned | .submitNative _ => Except NativeSupplicantError Unit
  | .loadPortReady | .captureScan | .loadScanActive | .queuePending | .claimScanTimeout
  | .openScan | .claimRelease => Bool
  | .beginScanCapture | .scanIoctl => Int32
  | .clearResults => UInt32
  | .releaseScan | .beginTransaction | .discardPending | .finishScan | .unclaimRelease
  | .forceScanComplete => Unit
  | .readScan => ScanState
  | .loadResult _ => Option ScanResult
  | .pollNative _ => Except NativeSupplicantError PollResult
  | .nextNative => Except NativeSupplicantError (Option Event)
  | .observe op => op.Reply

abbrev scanAtoms : Signature := ⟨ScanAtom, ScanAtom.Reply⟩

abbrev ScanProgram (A : Type) := Program scanAtoms A

/-! The port methods, in the order of their atomic actions. -/

def perform (atom : ScanAtom) : ScanProgram atom.Reply := Program.call (I := scanAtoms) atom .done

/-- The capture proper, once no disconnect is outstanding. -/
def captureWhenReady : ScanProgram (Except NativeSupplicantError Unit) := do
  let ready ← perform .loadPortReady
  if ready = false then pure (.error .invalidResult)
  else
    let captured ← perform .captureScan
    if captured = false then pure (.error .invalidResult)
    else
      let status ← perform .beginScanCapture
      if status ≠ 0 then do
        perform .releaseScan
        pure (.error (.beginScanCaptureFailed status))
      else do
        perform .beginTransaction
        pure (.ok ())

/-- Only a build with the standard link asks whether the last disconnect returned. -/
def requireDisconnectReturned (standardL2 : Bool) :
    ScanProgram (Except NativeSupplicantError Unit) :=
  if standardL2 then perform .requireDisconnectReturned else pure (.ok ())

def beginScanCacheCapture (standardL2 : Bool) : ScanProgram (Except NativeSupplicantError Unit) := do
  match ← requireDisconnectReturned standardL2 with
  | .error error => pure (.error error)
  | .ok () => captureWhenReady

def cancelScanCacheCapture : ScanProgram Unit := do
  perform .releaseScan
  perform .discardPending

def beginScan : ScanProgram (Except Ws63Error Unit) := do
  let started ← perform .openScan
  if started = false then pure (.error .busy)
  else
    let result ← perform .scanIoctl
    if result ≠ 0 then do
      perform .finishScan
      pure (.error (.startScan result))
    else pure (.ok ())

def startScan (standardL2 : Bool) : ScanProgram (Except BackendError Unit) := do
  match ← beginScanCacheCapture standardL2 with
  | .error error => pure (.error (mapNativeError error))
  | .ok () =>
    match ← beginScan with
    | .error error => do
      cancelScanCacheCapture
      pure (.error (mapError error))
    | .ok () => pure (.ok ())

def releaseScanResultsOnce : ScanProgram (Except Ws63Error Unit) := do
  let claimed ← perform .claimRelease
  if claimed = false then pure (.ok ())
  else
    let status ← perform .clearResults
    if status = 0 then pure (.ok ())
    else do
      perform .unclaimRelease
      pure (.error (.clearScanResults status))

def pollScan : ScanProgram (Except BackendError (Option Nat)) := do
  let seen ← perform .readScan
  if seen.done = false then pure (.ok none)
  else
    let release ← releaseScanResultsOnce
    perform .finishScan
    match release with
    | .error error => pure (.error (mapError error))
    | .ok () =>
      if seen.status ≠ .success then pure (.error (mapError (.scanFailed seen.status)))
      else pure (.ok (some seen.count))

def scanResult (index : Nat) : ScanProgram (Option ScanResult) := do
  let seen ← perform .readScan
  if seen.done = false ∨ seen.count ≤ index then pure none
  else perform (.loadResult index)

def scanCacheCapturePending : ScanProgram Bool := do
  let active ← perform .loadScanActive
  if active then pure true else perform .queuePending

def scanCacheCompletionObserved : ScanProgram Bool := do
  let active ← perform .loadScanActive
  pure (!active)

def cancelScan : ScanProgram Unit := do
  perform .forceScanComplete
  perform .finishScan
  cancelScanCacheCapture

/-- A supplicant error is mapped on its way to the backend. -/
def mapped {A : Type} (program : ScanProgram (Except NativeSupplicantError A)) :
    ScanProgram (Except BackendError A) := do
  let reply ← program
  pure (reply.mapError mapNativeError)

/-- Every method of the port as its own sequence of actions. -/
def portProgram (standardL2 : Bool) : (op : PortOp) → ScanProgram op.Reply
  | .startScan => startScan standardL2
  | .pollScan => pollScan
  | .scanResult index => scanResult index
  | .scanCachePending => scanCacheCapturePending
  | .scanCacheCompletionObserved => scanCacheCompletionObserved
  | .tryClaimScanTimeout => perform .claimScanTimeout
  | .cancelScan => cancelScan
  | .configure config => mapped (perform (.submitNative (.configure config)))
  | .connect site => mapped (perform (.submitNative (.connect site)))
  | .disconnect site => mapped (perform (.submitNative (.disconnect site)))
  | .finishDisconnect => mapped (perform (.submitNative .finishDisconnect))
  | .poll budget => mapped (perform (.pollNative budget))
  | .nextEvent => mapped (perform .nextNative)
  | .inputPending => perform (.observe .inputPending)
  | .recoveryDiagnosticWord => perform (.observe .recoveryDiagnosticWord)
  | .contextDiagnosticWord => perform (.observe .contextDiagnosticWord)
  | .driverDiagnosticWord => perform (.observe .driverDiagnosticWord)
  | .matchDiagnosticWord => perform (.observe .matchDiagnosticWord)
  | .externalAuthRetryStalled => perform (.observe .externalAuthRetryStalled)
  | .countFirstEapolReconnect => perform (.observe .countFirstEapolReconnect)
  | .countExternalAuthReconnect => perform (.observe .countExternalAuthReconnect)
  | .nowUs => perform (.observe .nowUs)

/-- What one action of the runner does to the globals. Native calls may answer anything; the
native turn drains queued events and starts no scan of its own. -/
def ScanAtom.acts (w : ScanGlobals) : (atom : ScanAtom) → atom.Reply → ScanGlobals → Prop
  | .loadPortReady, reply, after => reply = w.portReady ∧ after = w
  | .captureScan, reply, after =>
    reply = !w.nativeScanActive ∧ after = { w with nativeScanActive := true }
  | .releaseScan, _, after => after = { w with nativeScanActive := false }
  | .beginTransaction, _, after => after = { w with acceptedResults := 0 }
  | .loadScanActive, reply, after => reply = w.nativeScanActive ∧ after = w
  | .queuePending, reply, after => reply = !w.queue.isEmpty ∧ after = w
  | .claimScanTimeout, reply, after =>
    reply = w.nativeScanActive ∧ after = { w with nativeScanActive := false }
  | .discardPending, _, after => after = { w with queue := [] }
  | .openScan, reply, after =>
    reply = !w.scan.active ∧
      after = if w.scan.active then w else { w with scan := ⟨true, false, 0, .success, false⟩ }
  | .finishScan, _, after => after = { w with scan := { w.scan with active := false } }
  | .readScan, reply, after => reply = w.scan ∧ after = w
  | .claimRelease, reply, after =>
    reply = !w.scan.resultsReleased ∧
      after = { w with scan := { w.scan with resultsReleased := true } }
  | .unclaimRelease, _, after => after = { w with scan := { w.scan with resultsReleased := false } }
  | .pollNative _, _, after => ∃ drained, after = { w with queue := w.queue.drop drained }
  | .requireDisconnectReturned, _, after | .beginScanCapture, _, after | .scanIoctl, _, after
  | .clearResults, _, after | .loadResult _, _, after | .forceScanComplete, _, after
  | .submitNative _, _, after | .nextNative, _, after | .observe _, _, after => after = w

/-- The steps of the vendor's event thread and of whoever owns the port. A callback is named
by a number, and any number of them may be under way. -/
inductive CallbackAct where
  | portState (ready : Bool)
  | doneArrives (callback : Nat) (status : UInt32)
  | swapActive (callback : Nat) (won : Bool)
  | queueDone (callback : Nat) (queued : Bool)
  | publishDone (callback : Nat)
  | resultArrives (callback : Nat) (whole : Bool)
  | loadActive (callback : Nat)
  | queueResult (callback : Nat)
  | reserveResult (callback : Nat)

namespace ScanGlobals

def phase (w : ScanGlobals) (callback : Nat) (next : CallbackPhase) : ScanGlobals :=
  { w with callbacks := Function.update w.callbacks callback next }

def enqueue (w : ScanGlobals) (event : ScanEvent) : ScanGlobals :=
  if w.queue.length < scanEventQueueDepth then { w with queue := w.queue ++ [event] } else w

/-- Results beyond the driver's own limit are counted as truncated and not queued. -/
def enqueueResult (w : ScanGlobals) : ScanGlobals :=
  if w.acceptedResults < maxScanResults then
    { w with acceptedResults := w.acceptedResults + 1 }.enqueue .result
  else w

def publishDone (w : ScanGlobals) (status : UInt32) : ScanGlobals :=
  if w.scan.active then
    { w with scan := { w.scan with status := .fromRaw status, done := true } }
  else w

def reserveResult (w : ScanGlobals) : ScanGlobals :=
  if w.scan.active ∧ w.scan.count < maxScanResults then
    { w with scan := { w.scan with count := w.scan.count + 1 } }
  else w

end ScanGlobals

inductive CallbackStep (w : ScanGlobals) : CallbackAct → ScanGlobals → Prop where
  | portState (ready : Bool) : CallbackStep w (.portState ready) { w with portReady := ready }
  | doneArrives {callback : Nat} (status : UInt32) (idle : w.callbacks callback = .idle) :
      CallbackStep w (.doneArrives callback status)
        (w.phase callback (if w.portReady then .swapActive status else .publishDone status))
  | swapActive {callback : Nat} {status : UInt32}
      (due : w.callbacks callback = .swapActive status) :
      CallbackStep w (.swapActive callback w.nativeScanActive)
        ({ w with nativeScanActive := false }.phase callback
          (if w.nativeScanActive then .queueDone status else .publishDone status))
  | queueDone {callback : Nat} {status : UInt32}
      (due : w.callbacks callback = .queueDone status) :
      CallbackStep w (.queueDone callback (w.queue.length < scanEventQueueDepth))
        ((w.enqueue (.done status)).phase callback (.publishDone status))
  | publishDone {callback : Nat} {status : UInt32}
      (due : w.callbacks callback = .publishDone status) :
      CallbackStep w (.publishDone callback) ((w.publishDone status).phase callback .idle)
  | resultArrives {callback : Nat} (whole : Bool) (idle : w.callbacks callback = .idle) :
      CallbackStep w (.resultArrives callback whole)
        (w.phase callback (if whole && w.portReady then .loadActive else .reserveResult))
  | loadActive {callback : Nat} (due : w.callbacks callback = .loadActive) :
      CallbackStep w (.loadActive callback)
        (w.phase callback (if w.nativeScanActive then .queueResult else .reserveResult))
  | queueResult {callback : Nat} (due : w.callbacks callback = .queueResult) :
      CallbackStep w (.queueResult callback) (w.enqueueResult.phase callback .reserveResult)
  | reserveResult {callback : Nat} (due : w.callbacks callback = .reserveResult) :
      CallbackStep w (.reserveResult callback) (w.reserveResult.phase callback .idle)

def scanWorld : SharedWorld scanAtoms ScanGlobals CallbackAct where
  atom := fun w atom reply after => atom.acts w reply after
  other := CallbackStep

abbrev ScanLabel := SharedLabel scanAtoms CallbackAct

/-- A run of the scan world in which the runner makes exactly the calls of a conversation. -/
abbrev ScanRealizes (standardL2 : Bool) :=
  Realizes scanWorld (I := portSignature.observed PollState)
    fun call => portProgram standardL2 call.1

end HisiRf
