import HisiRf.Backend.Operation
import HisiRf.Interaction.Routine

/-! The supplicant port and clock as an interaction signature.

Each method of the port is one request. The port may answer anything, so a
property of all conversations holds for the real port, for the fixtures and for
a port that fails at any call. Connect and disconnect carry the call site that
made them; the port does not see it.
-/

namespace HisiRf

open Interaction

structure PollResult where
  workCompleted : UInt32
  outputPending : UInt32
  nextDeadlineMs : UInt64

structure Event where
  kind : UInt8
  status : Int32

inductive ConnectSite where | start | settled deriving DecidableEq

inductive DisconnectSite where
  | start
  | cancellation
  | recovery (firstEapol externalAuth : Bool)

inductive PortOp where
  | startScan
  | pollScan
  | scanResult (index : Nat)
  | scanCachePending
  | scanCacheCompletionObserved
  | tryClaimScanTimeout
  | cancelScan
  | configure (config : StationConfig)
  | connect (site : ConnectSite)
  | disconnect (site : DisconnectSite)
  | finishDisconnect
  | poll (budget : Nat)
  | inputPending
  | nextEvent
  | recoveryDiagnosticWord
  | contextDiagnosticWord
  | driverDiagnosticWord
  | matchDiagnosticWord
  | externalAuthRetryStalled
  | countFirstEapolReconnect
  | countExternalAuthReconnect
  | nowUs

@[reducible] def PortOp.Reply : PortOp → Type
  | .startScan | .configure _ | .connect _ | .disconnect _ | .finishDisconnect =>
    Except BackendError Unit
  | .pollScan => Except BackendError (Option Nat)
  | .scanResult _ => Option ScanResult
  | .scanCachePending | .scanCacheCompletionObserved | .tryClaimScanTimeout | .inputPending
  | .externalAuthRetryStalled => Bool
  | .cancelScan | .countFirstEapolReconnect | .countExternalAuthReconnect => Unit
  | .poll _ => Except BackendError PollResult
  | .nextEvent => Except BackendError (Option Event)
  | .recoveryDiagnosticWord | .contextDiagnosticWord | .driverDiagnosticWord
  | .matchDiagnosticWord => UInt32
  | .nowUs => UInt64

abbrev portSignature : Signature := ⟨PortOp, PortOp.Reply⟩

/-- What the backend owns during a poll: its operation slot and the caller's slice. -/
structure PollState where
  active : Option ActiveOperation
  scanOutput : List ScanResult

abbrev PollReturn := Except BackendError WorkReport

abbrev PortCall := Call portSignature PollState

/-- A stretch of a backend method, which may return from the whole method. -/
abbrev Step := Routine portSignature PollState PollReturn

namespace Port

abbrev request (op : PortOp) : Step op.Reply := Routine.request (I := portSignature) op

abbrev startScan : Step (Except BackendError Unit) := request .startScan
abbrev pollScan : Step (Except BackendError (Option Nat)) := request .pollScan
abbrev scanResult (index : Nat) : Step (Option ScanResult) := request (.scanResult index)
abbrev scanCachePending : Step Bool := request .scanCachePending
abbrev scanCacheCompletionObserved : Step Bool := request .scanCacheCompletionObserved
abbrev tryClaimScanTimeout : Step Bool := request .tryClaimScanTimeout
abbrev cancelScan : Step Unit := request .cancelScan
abbrev configure (config : StationConfig) : Step (Except BackendError Unit) :=
  request (.configure config)
abbrev connect (site : ConnectSite) : Step (Except BackendError Unit) := request (.connect site)
abbrev disconnect (site : DisconnectSite) : Step (Except BackendError Unit) :=
  request (.disconnect site)
abbrev finishDisconnect : Step (Except BackendError Unit) := request .finishDisconnect
abbrev poll (budget : Nat) : Step (Except BackendError PollResult) := request (.poll budget)
abbrev inputPending : Step Bool := request .inputPending
abbrev nextEvent : Step (Except BackendError (Option Event)) := request .nextEvent
abbrev recoveryDiagnosticWord : Step UInt32 := request .recoveryDiagnosticWord
abbrev contextDiagnosticWord : Step UInt32 := request .contextDiagnosticWord
abbrev driverDiagnosticWord : Step UInt32 := request .driverDiagnosticWord
abbrev matchDiagnosticWord : Step UInt32 := request .matchDiagnosticWord
abbrev externalAuthRetryStalled : Step Bool := request .externalAuthRetryStalled
abbrev countFirstEapolReconnect : Step Unit := request .countFirstEapolReconnect
abbrev countExternalAuthReconnect : Step Unit := request .countExternalAuthReconnect
abbrev nowUs : Step UInt64 := request .nowUs

end Port

end HisiRf
