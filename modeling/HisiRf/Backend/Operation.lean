import HisiRf.Backend.Contract
import HisiRf.Machine.Word

/-! The operation record of the incremental backend and its pure methods.

Every method that borrows the record mutably returns the updated record beside
its result. Times are 64-bit microsecond readings of an arbitrary clock.
-/

namespace HisiRf

open Machine (saturatingAdd saturatingMul)

def errorStaleOperation : UInt32 := 0x5732b002
def errorWorkBudget : UInt32 := 0x5732b003
def errorOperationTimeout : UInt32 := 0x5732b004
def firstEapolReconnectDelayUs : UInt64 := 1000000
def reconnectSettleUs : UInt64 := 5000
def firstEapolTimeoutMask : UInt32 := 0x0000000f
def firstEapolRetryMask : UInt32 := 0x00ff0000
def firstEapolRetryPending : UInt32 := 0x01000000

def nativeEventAuthorized : UInt8 := 3
def nativeEventDisconnected : UInt8 := 4
def nativeEventFailed : UInt8 := 5

inductive NativeConnectEvent where
  | progress | authorized | disconnected | failed
  deriving DecidableEq

def classifyNativeConnectEvent (kind : UInt8) : NativeConnectEvent :=
  if kind = nativeEventAuthorized then .authorized
  else if kind = nativeEventDisconnected then .disconnected
  else if kind = nativeEventFailed then .failed
  else .progress

def channelToFrequency (channel : UInt8) : UInt16 :=
  if channel = 14 then 2484
  else if 1 ≤ channel ∧ channel ≤ 13 then 2407 + channel.toUInt16 * 5
  else 0

inductive OperationKind where
  | init
  | scan
  | connect : ConnectionInfo → OperationKind
  | disconnect
  deriving DecidableEq

def OperationKind.isConnect : OperationKind → Bool
  | .connect _ => true
  | _ => false

inductive StartPhase where
  | ready
  | scan
  | connectConfigure : StationConfig → StartPhase
  | connectSubmit
  | disconnect
  | finishDisconnect
  deriving DecidableEq

inductive OperationOutcome where
  | continue
  | complete : IncrementalCompletion → OperationOutcome
  | cancelled
  | failed : Int32 → OperationOutcome
  deriving DecidableEq

structure ActiveOperation where
  id : OperationId
  kind : OperationKind
  startPhase : StartPhase
  deadlineUs : UInt64
  backendDeadlineUs : Option UInt64
  cancellationRequested : Bool
  cancellationActionSubmitted : Bool
  firstEapolReconnectDeadlineUs : Option UInt64
  firstEapolReconnectSubmitted : Bool
  externalAuthReconnectDeadlineUs : Option UInt64
  externalAuthReconnectSubmitted : Bool
  reconnectAfterDisconnect : Bool
  reconnectSubmitDeadlineUs : Option UInt64
  lastEventKind : UInt8
  lastDisconnectStatus : Option Int32
  scanTotal : Option Nat
  scanSeen : Nat
  scanWritten : Nat
  scanTruncated : Bool
  deriving DecidableEq

def operationError (code : UInt32) : BackendError := stagedError .other code .operation

namespace ActiveOperation

def new (id : OperationId) (kind : OperationKind) (timeoutMs : UInt32) (nowUs : UInt64) :
    ActiveOperation where
  id := id
  kind := kind
  startPhase := .ready
  deadlineUs := saturatingAdd nowUs (saturatingMul timeoutMs.toUInt64 1000)
  backendDeadlineUs := none
  cancellationRequested := false
  cancellationActionSubmitted := false
  firstEapolReconnectDeadlineUs := none
  firstEapolReconnectSubmitted := false
  externalAuthReconnectDeadlineUs := none
  externalAuthReconnectSubmitted := false
  reconnectAfterDisconnect := false
  reconnectSubmitDeadlineUs := none
  lastEventKind := 0
  lastDisconnectStatus := none
  scanTotal := none
  scanSeen := 0
  scanWritten := 0
  scanTruncated := false

def init (id : OperationId) (nowUs : UInt64) : ActiveOperation := new id .init 0 nowUs

def connect (id : OperationId) (info : ConnectionInfo) (timeoutMs : UInt32) (nowUs : UInt64) :
    ActiveOperation :=
  new id (.connect info) timeoutMs nowUs

def scan (id : OperationId) (config : ScanConfig) (nowUs : UInt64) : ActiveOperation :=
  new id .scan config.operationTimeoutMs nowUs

def disconnect (id : OperationId) (timeoutMs : UInt32) (nowUs : UInt64) : ActiveOperation :=
  new id .disconnect timeoutMs nowUs

def fromRequest (id : OperationId) (request : IncrementalRequest) (nowUs : UInt64) :
    ActiveOperation :=
  match request with
  | .init _ => init id nowUs
  | .scan config => { scan id config nowUs with startPhase := .scan }
  | .connect config =>
    let info : ConnectionInfo := ⟨config.bssid, channelToFrequency config.channel⟩
    { connect id info config.operationTimeoutMs nowUs with startPhase := .connectConfigure config }
  | .disconnect config =>
    { disconnect id config.disconnectTimeoutMs nowUs with startPhase := .disconnect }

def nextDeadlineUs (op : ActiveOperation) : UInt64 :=
  let deadline := (op.backendDeadlineUs.map (min · op.deadlineUs)).getD op.deadlineUs
  let deadline := (op.firstEapolReconnectDeadlineUs.map (min · deadline)).getD deadline
  let deadline := (op.externalAuthReconnectDeadlineUs.map (min · deadline)).getD deadline
  (op.reconnectSubmitDeadlineUs.map (min · deadline)).getD deadline

/-- The vendor recovery word shows a finished retry after a first-EAPOL timeout. -/
def firstEapolRecoveryComplete (recovery : UInt32) : Bool :=
  (recovery &&& firstEapolTimeoutMask) != 0 && (recovery &&& firstEapolRetryMask) != 0
    && (recovery &&& firstEapolRetryPending) == 0

def shouldSubmitFirstEapolReconnect (op : ActiveOperation) (recovery : UInt32) (nowUs : UInt64) :
    Bool × ActiveOperation :=
  if !op.kind.isConnect || op.cancellationRequested || op.firstEapolReconnectSubmitted
      || !firstEapolRecoveryComplete recovery then
    (false, op)
  else
    -- The delay starts with the first indication and survives later ones.
    let deadline := op.firstEapolReconnectDeadlineUs.getD
      (saturatingAdd nowUs firstEapolReconnectDelayUs)
    if nowUs < deadline then
      (false, { op with firstEapolReconnectDeadlineUs := some deadline })
    else
      (true, { op with
        firstEapolReconnectSubmitted := true
        firstEapolReconnectDeadlineUs := none })

def shouldSubmitExternalAuthReconnect (op : ActiveOperation) (stalled : Bool) (nowUs : UInt64) :
    Bool × ActiveOperation :=
  if !op.kind.isConnect || op.cancellationRequested || op.externalAuthReconnectSubmitted then
    (false, op)
  else if !stalled then
    (false, { op with externalAuthReconnectDeadlineUs := none })
  else
    let deadline := op.externalAuthReconnectDeadlineUs.getD
      (saturatingAdd nowUs firstEapolReconnectDelayUs)
    if nowUs < deadline then
      (false, { op with externalAuthReconnectDeadlineUs := some deadline })
    else
      (true, { op with
        externalAuthReconnectSubmitted := true
        externalAuthReconnectDeadlineUs := none })

/-- Both recovery causes look at one indication and one clock reading. -/
def recovering (op : ActiveOperation) (recovery : UInt32) (stalled : Bool) (nowUs : UInt64) :
    Bool × Bool × ActiveOperation :=
  let first := op.shouldSubmitFirstEapolReconnect recovery nowUs
  let second := first.2.shouldSubmitExternalAuthReconnect stalled nowUs
  (first.1, second.1, second.2)

def requestReconnectAfterDisconnect (op : ActiveOperation) : ActiveOperation :=
  { op with reconnectAfterDisconnect := true }

def observeReconnectDisconnect (op : ActiveOperation) (kind : UInt8) (nowUs : UInt64) :
    ActiveOperation :=
  if op.reconnectAfterDisconnect && !op.cancellationRequested
      && classifyNativeConnectEvent kind == .disconnected then
    { op with
      reconnectAfterDisconnect := false
      reconnectSubmitDeadlineUs := some (saturatingAdd nowUs reconnectSettleUs) }
  else op

-- Unlike the methods around it, this one does not ask for a cancellation.
def takeReconnectWhenSettled (op : ActiveOperation) (nowUs : UInt64) : Bool × ActiveOperation :=
  if op.reconnectSubmitDeadlineUs.any (fun deadline => nowUs ≥ deadline) then
    (true, { op with reconnectSubmitDeadlineUs := none })
  else (false, op)

def observe (op : ActiveOperation) (kind : UInt8) (status : Int32) :
    OperationOutcome × ActiveOperation :=
  let seen := { op with lastEventKind := kind }
  match op.kind with
  | .init => (.continue, seen)
  | .scan => (.continue, seen)
  | .connect info =>
    match classifyNativeConnectEvent kind with
    | .progress => (.continue, seen)
    | .authorized =>
      if op.cancellationRequested then (.continue, seen)
      else (.complete (.connected info), seen)
    | .disconnected =>
      if op.cancellationRequested then (.cancelled, seen)
      else if status ≠ 0 then (.continue, { seen with lastDisconnectStatus := some status })
      else (.continue, seen)
    | .failed => (.failed status, seen)
  | .disconnect =>
    match classifyNativeConnectEvent kind with
    | .disconnected =>
      if op.cancellationRequested then (.cancelled, seen)
      else (.complete .disconnected, seen)
    | .failed => (.failed status, seen)
    | .progress | .authorized => (.continue, seen)

end ActiveOperation

def timeoutError (op : ActiveOperation) : BackendError :=
  let status := (op.lastDisconnectStatus.getD 0).toUInt32
  (stagedError .operationTimeout (errorOperationTimeout ||| op.lastEventKind.toUInt32)
    (match op.kind with
      | .init => .init
      | .scan => .scan
      | .connect _ => .connect
      | .disconnect => .disconnect)).withTrace .vendorStatus status

end HisiRf
