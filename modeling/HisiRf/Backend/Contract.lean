import Mathlib.Algebra.Group.Nat.Defs
import Mathlib.Logic.Basic

/-! Values exchanged with the chip-neutral control contract.

The contract crate is not part of the repository. Its records are kept with
the fields that the WS63 backend and worker read; the acceptance rule of a
work report stays a parameter of everything that builds one.
-/

namespace HisiRf

/-- Identity of one queued operation. Only equality is observed. -/
structure OperationId where
  raw : Nat
  deriving DecidableEq

inductive BackendErrorClass where
  | init | busy | operationTimeout | unsupportedSecurity | connect | cancelled | other
  deriving DecidableEq

inductive DiagnosticStage where
  | controlPlane | operation | init | scan | connect | disconnect | associate
  | authenticate | eapol | sae | runtime | backend

inductive DiagnosticTraceKind where
  | vendorStatus | supplicantContext | driverContext | backendStatus | hostapStatus
  | ieeeStatus | disconnectReason

structure BackendError where
  errorClass : BackendErrorClass
  code : UInt32
  stage : Option DiagnosticStage
  traces : List (DiagnosticTraceKind × UInt32)

def BackendError.new (errorClass : BackendErrorClass) (code : UInt32) : BackendError :=
  ⟨errorClass, code, none, []⟩

def BackendError.withStage (error : BackendError) (stage : DiagnosticStage) : BackendError :=
  { error with stage := some stage }

def BackendError.withTrace (error : BackendError) (kind : DiagnosticTraceKind)
    (value : UInt32) : BackendError :=
  { error with traces := error.traces ++ [(kind, value)] }

def stagedError (errorClass : BackendErrorClass) (code : UInt32) (stage : DiagnosticStage) :
    BackendError :=
  (BackendError.new errorClass code).withStage stage

inductive Security where
  | open | wpa2Personal | wpa3Personal | wpa2Wpa3PersonalTransition | otherProtected

structure ScanResult where
  ssid : List UInt8
  bssid : List UInt8
  frequencyMhz : UInt16
  rssiDbm : Int16
  security : Security
  channel : UInt8

def ScanResult.empty : ScanResult := ⟨[], [0, 0, 0, 0, 0, 0], 0, 0, .open, 0⟩

structure ConnectionInfo where
  bssid : List UInt8
  frequencyMhz : UInt16
  deriving DecidableEq

structure ScanOutcome where
  count : Nat
  truncated : Bool
  deriving DecidableEq

structure ScanConfig where
  operationTimeoutMs : UInt32

/-- The credentials of a station request are read by the supplicant only. -/
structure StationConfig where
  bssid : List UInt8
  channel : UInt8
  operationTimeoutMs : UInt32
  deriving DecidableEq

structure WifiConfig where
  disconnectTimeoutMs : UInt32

inductive IncrementalRequest where
  | init : WifiConfig → IncrementalRequest
  | scan : ScanConfig → IncrementalRequest
  | connect : StationConfig → IncrementalRequest
  | disconnect : WifiConfig → IncrementalRequest

inductive IncrementalCompletion where
  | initialized
  | scan : ScanOutcome → IncrementalCompletion
  | connected : ConnectionInfo → IncrementalCompletion
  | disconnected
  deriving DecidableEq

inductive WakeReason where | command | backend | timer | l2Rx deriving DecidableEq

structure WaitSet where
  backend : Bool
  timer : Bool
  l2Rx : Bool

namespace WaitSet

def empty : WaitSet := ⟨false, false, false⟩
def backendOnly : WaitSet := ⟨true, false, false⟩
def timerOnly : WaitSet := ⟨false, true, false⟩

def union (a b : WaitSet) : WaitSet :=
  ⟨a.backend || b.backend, a.timer || b.timer, a.l2Rx || b.l2Rx⟩

end WaitSet

inductive PollDisposition where
  | pending : WaitSet → PollDisposition
  | budgetExhausted : WaitSet → PollDisposition
  | complete : IncrementalCompletion → PollDisposition
  | cancelled

/-- The operation goes on after a report with this disposition. -/
def PollDisposition.continues : PollDisposition → Bool
  | .pending _ | .budgetExhausted _ => true
  | .complete _ | .cancelled => false

structure WorkBudget where
  maxEvents : Nat
  maxTimeUs : Nat
  eventsPositive : 0 < maxEvents
  eventsFit : maxEvents < 2 ^ 16
  timePositive : 0 < maxTimeUs
  timeFits : maxTimeUs < 2 ^ 32

structure WorkReport where
  operation : OperationId
  consumedEvents : Nat
  elapsedUs : Nat
  madeProgress : Bool
  disposition : PollDisposition

abbrev ReportRule := WorkBudget → Nat → Nat → Bool → PollDisposition → Bool

def WorkReport.tryNew (accepts : ReportRule) (id : OperationId) (budget : WorkBudget)
    (consumedEvents elapsedUs : Nat) (madeProgress : Bool) (disposition : PollDisposition) :
    Option WorkReport :=
  if accepts budget consumedEvents elapsedUs madeProgress disposition then
    some ⟨id, consumedEvents, elapsedUs, madeProgress, disposition⟩
  else none

theorem WorkReport.tryNew_eq_some {accepts : ReportRule} {id : OperationId} {budget : WorkBudget}
    {consumed elapsed : Nat} {progress : Bool} {disposition : PollDisposition} {report : WorkReport}
    (built : WorkReport.tryNew accepts id budget consumed elapsed progress disposition = some report) :
    report = ⟨id, consumed, elapsed, progress, disposition⟩ := by
  unfold WorkReport.tryNew at built
  split at built
  · exact (Option.some.inj built).symm
  · cases built

end HisiRf
