import HisiRf.Backend.Port

/-! The incremental supplicant backend: start, poll, cancel and the next deadline.

`poll` is one method of the source. It is cut at its own section boundaries,
and a stretch that returns from the method leaves the whole routine.
-/

namespace HisiRf

open Interaction
open Machine (saturatingMul)

/-- What a build and the contract crate decide: the terminal receive-stop
experiment and the acceptance rule of work reports. -/
structure Platform where
  rxStopExperiment : Bool
  accepts : ReportRule

def activeMut (id : OperationId) : Step ActiveOperation := do
  let state ← Routine.read
  match state.active with
  | none => Routine.exit (.error (operationError errorStaleOperation))
  | some op =>
    if op.id = id then pure op
    else Routine.exit (.error (operationError errorStaleOperation))

def putActive (op : ActiveOperation) : Step Unit :=
  Routine.modify fun state => { state with active := some op }

def clearActive : Step Unit :=
  Routine.modify fun state => { state with active := none }

/-- Return from the method with the result of its last stretch. -/
def leave {A : Type} (last : Step PollReturn) : Step A := do
  let result ← last
  Routine.exit result

def clearWithError (error : BackendError) : Step PollReturn := do
  let state ← Routine.read
  if state.active.any (fun op => op.kind == .scan) then
    Port.cancelScan
  clearActive
  pure (.error error)

/-- `?` on a port call: the error leaves the method and nothing is cleared. -/
def orReturn {A : Type} (reply : Except BackendError A) : Step A :=
  match reply with
  | .ok value => pure value
  | .error error => Routine.exit (.error error)

/-- The guarded form: the error first clears the operation. -/
def orClear {A : Type} (reply : Except BackendError A) : Step A :=
  match reply with
  | .ok value => pure value
  | .error error => leave (clearWithError error)

/-- Spending the time grant turns a pending step into an exhausted one. -/
def boundedDisposition (budget : WorkBudget) (elapsed : Nat) (disposition : PollDisposition) :
    PollDisposition :=
  if elapsed ≥ budget.maxTimeUs then
    match disposition with
    | .pending wait => .budgetExhausted wait
    | other => other
  else disposition

def boundedStepReport (platform : Platform) (id : OperationId) (budget : WorkBudget)
    (startedUs : UInt64) (consumed : Nat) (disposition : PollDisposition) : Step PollReturn := do
  let finishedUs ← Port.nowUs
  let elapsed := (finishedUs - startedUs).toNat
  if elapsed > 2 ^ 32 - 1 then
    clearWithError (operationError errorWorkBudget)
  else
    match WorkReport.tryNew platform.accepts id budget consumed elapsed true
        (boundedDisposition budget elapsed disposition) with
    | some report => pure (.ok report)
    | none => clearWithError (operationError errorWorkBudget)

def startRequest (id : OperationId) (request : IncrementalRequest) :
    Routine portSignature PollState (Except BackendError Unit) (Except BackendError Unit) := do
  let state ← Routine.read
  if state.active.isSome then
    pure (.error (stagedError .busy 1 .controlPlane))
  else
    let nowUs ← Routine.request (I := portSignature) PortOp.nowUs
    Routine.modify fun state =>
      { state with active := some (ActiveOperation.fromRequest id request nowUs) }
    pure (.ok ())

def initDisposition (cancelled : Bool) : PollDisposition :=
  if cancelled then .cancelled else .complete .initialized

/-- Initialization already happened; the operation only acknowledges it. -/
def pollInit (platform : Platform) (id : OperationId) (budget : WorkBudget) : Step Unit := do
  let op ← activeMut id
  if op.kind = .init then
    clearActive
    match WorkReport.tryNew platform.accepts id budget 0 0 true
        (initDisposition op.cancellationRequested) with
    | some report => Routine.exit (.ok report)
    | none => Routine.exit (.error (operationError errorWorkBudget))

def waitBackendOrTimer : WaitSet := WaitSet.backendOnly.union WaitSet.timerOnly

def cancellationAction (kind : OperationKind) : Step Unit :=
  match kind with
  | .scan => Port.cancelScan
  | .connect _ => do
    let reply ← Port.disconnect .cancellation
    orReturn reply
  | .init | .disconnect => pure ()

def submitCancellation (platform : Platform) (id : OperationId) (budget : WorkBudget)
    (startedUs : UInt64) (kind : OperationKind) : Step Unit := do
  cancellationAction kind
  let op ← activeMut id
  putActive { op with cancellationActionSubmitted := true }
  if kind.isConnect then
    leave (boundedStepReport platform id budget startedUs 1 (.pending waitBackendOrTimer))
  else
    clearActive
    leave (boundedStepReport platform id budget startedUs 1 .cancelled)

def pollCancellation (platform : Platform) (id : OperationId) (budget : WorkBudget)
    (startedUs : UInt64) : Step Unit := do
  let op ← activeMut id
  if op.cancellationRequested then
    if op.startPhase ≠ .ready then
      clearActive
      leave (boundedStepReport platform id budget startedUs 0 .cancelled)
    else if !op.cancellationActionSubmitted then
      submitCancellation platform id budget startedUs op.kind

/-- Issue the request that starts the operation; `none` when it was issued before. -/
def submitStart (platform : Platform) (id : OperationId) (budget : WorkBudget)
    (startedUs : UInt64) (phase : StartPhase) : Step (Option WaitSet) :=
  match phase with
  | .ready => pure none
  | .scan => do
    let reply ← Port.startScan
    orReturn reply
    pure (some waitBackendOrTimer)
  | .connectConfigure config => do
    let reply ← Port.configure config
    orReturn reply
    let op ← activeMut id
    putActive { op with startPhase := .connectSubmit }
    pure (some WaitSet.empty)
  | .connectSubmit => do
    let reply ← Port.connect .start
    orReturn reply
    pure (some waitBackendOrTimer)
  | .disconnect => do
    let reply ← Port.disconnect .start
    orReturn reply
    pure (some waitBackendOrTimer)
  | .finishDisconnect => do
    let op ← activeMut id
    if startedUs ≥ op.deadlineUs then
      leave (clearWithError (timeoutError op))
    else
      let reply ← Port.finishDisconnect
      orClear reply
      clearActive
      leave (boundedStepReport platform id budget startedUs 1 (.complete .disconnected))

def pollStart (platform : Platform) (id : OperationId) (budget : WorkBudget)
    (startedUs : UInt64) : Step Unit := do
  let op ← activeMut id
  putActive { op with startPhase := .ready }
  let wait ← submitStart platform id budget startedUs op.startPhase
  match wait with
  | some wait => leave (boundedStepReport platform id budget startedUs 1 (.pending wait))
  | none => pure ()

def pollSupplicant (budget : WorkBudget) : Step PollResult := do
  let reply ← Port.poll budget.maxEvents
  let result ← orClear reply
  if result.workCompleted.toNat > budget.maxEvents then
    leave (clearWithError (operationError errorWorkBudget))
  else pure result

/-- The locals that the later stretches of `poll` update. -/
structure Progress where
  consumed : Nat
  madeProgress : Bool
  outcome : OperationOutcome

/-- The event loop; `room` is the number of events that still fit the budget. -/
def drainEvents (id : OperationId) : Nat → Progress → Step Progress
  | 0, progress => pure progress
  | room + 1, progress => do
    let reply ← Port.nextEvent
    let next ← orClear reply
    match next with
    | none => pure progress
    | some event => do
      let nowUs ← Port.nowUs
      let op ← activeMut id
      let observed := op.observe event.kind event.status
      putActive (observed.2.observeReconnectDisconnect event.kind nowUs)
      if observed.1 = .continue then
        drainEvents id room ⟨progress.consumed + 1, true, observed.1⟩
      else pure ⟨progress.consumed + 1, true, observed.1⟩

def pollEvents (id : OperationId) (budget : WorkBudget) (result : PollResult) : Step Progress :=
  let consumed := result.workCompleted.toNat
  let progress : Progress := ⟨consumed, consumed != 0, .continue⟩
  if result.outputPending ≠ 0 then drainEvents id (budget.maxEvents - consumed) progress
  else pure progress

/-- With the receive-stop experiment, a finished disconnect spends its terminal
native work on a turn of its own. -/
def deferFinishDisconnect (platform : Platform) (id : OperationId) (budget : WorkBudget)
    (startedUs : UInt64) (progress : Progress) : Step Unit := do
  if platform.rxStopExperiment && progress.outcome == .complete .disconnected then
    let op ← activeMut id
    putActive { op with startPhase := .finishDisconnect }
    leave (boundedStepReport platform id budget startedUs progress.consumed
      (.pending WaitSet.empty))

/-- Copy retained results into the caller's slice while the budget lasts. -/
def copyScanResults (id : OperationId) : Nat → Progress → Step Progress
  | 0, progress => pure progress
  | room + 1, progress => do
    let op ← activeMut id
    match op.scanTotal with
    | none => pure progress
    | some total =>
      if op.scanSeen ≥ total then pure progress
      else do
        let found ← Port.scanResult op.scanSeen
        let op ← activeMut id
        let state ← Routine.read
        let seen := { op with scanSeen := op.scanSeen + 1 }
        match found with
        | some result =>
          if op.scanWritten < state.scanOutput.length then
            Routine.modify fun state =>
              { active := some { seen with scanWritten := op.scanWritten + 1 }
                scanOutput := state.scanOutput.set op.scanWritten result }
          else putActive { seen with scanTruncated := true }
        | none => putActive { seen with scanTruncated := true }
        copyScanResults id room ⟨progress.consumed + 1, true, progress.outcome⟩

def finishScanCopy (id : OperationId) (progress : Progress) : Step Progress := do
  let op ← activeMut id
  match op.scanTotal with
  | some total =>
    if op.scanSeen = total then
      pure { progress with
        madeProgress := true
        outcome := .complete (.scan ⟨op.scanWritten,
          op.scanTruncated || decide (op.scanWritten < total)⟩) }
    else pure progress
  | none => pure progress

def noteScanTotal (id : OperationId) (total : Option Nat) : Step Unit := do
  if total.isSome then
    let op ← activeMut id
    putActive { op with scanTotal := total }

/-- Once the native cache is drained: stop a cancelled scan, or copy and check for the end. -/
def collectScan (id : OperationId) (budget : WorkBudget) (progress : Progress) : Step Progress := do
  let op ← activeMut id
  if op.cancellationRequested then
    finishScanCopy id { progress with madeProgress := true, outcome := .cancelled }
  else
    let progress ← copyScanResults id (budget.maxEvents - progress.consumed) progress
    finishScanCopy id progress

def pollScanResults (id : OperationId) (budget : WorkBudget) (progress : Progress) :
    Step Progress := do
  let reply ← Port.pollScan
  let total ← orClear reply
  noteScanTotal id total
  let pending ← Port.scanCachePending
  if pending then pure progress else collectScan id budget progress

def submitSettledReconnect (id : OperationId) (progress : Progress) : Step Progress := do
  let nowUs ← Port.nowUs
  let op ← activeMut id
  let settled := op.takeReconnectWhenSettled nowUs
  putActive settled.2
  if settled.1 then
    let reply ← Port.connect .settled
    orClear reply
    pure { progress with madeProgress := true }
  else pure progress

/-- The diagnostic counters of the two recovery causes. -/
def countReconnects (firstEapol externalAuth : Bool) : Step Unit := do
  if firstEapol then
    Port.countFirstEapolReconnect
  if externalAuth then
    Port.countExternalAuthReconnect

/-- Submit the disconnect of a recovery cause that came due. -/
def submitRecoveryDisconnect (id : OperationId) (progress : Progress) : Step Progress := do
  let recovery ← Port.recoveryDiagnosticWord
  let stalled ← Port.externalAuthRetryStalled
  let nowUs ← Port.nowUs
  let op ← activeMut id
  let due := op.recovering recovery stalled nowUs
  putActive due.2.2
  if due.1 || due.2.1 then
    let reply ← Port.disconnect (.recovery due.1 due.2.1)
    orClear reply
    let op ← activeMut id
    putActive op.requestReconnectAfterDisconnect
    countReconnects due.1 due.2.1
    pure { progress with madeProgress := true }
  else pure progress

def pollRecovery (id : OperationId) (progress : Progress) : Step Progress := do
  if progress.outcome = .continue then
    let progress ← submitSettledReconnect id progress
    submitRecoveryDisconnect id progress
  else pure progress

/-- The last completion snapshot before a scan may time out. -/
def snapshotScanCompletion (id : OperationId) (isScan : Bool) (finishedUs : UInt64)
    (progress : Progress) : Step (UInt64 × Progress) := do
  let op ← activeMut id
  if isScan && progress.outcome == .continue && decide (finishedUs ≥ op.deadlineUs)
      && op.scanTotal.isNone then
    let reply ← Port.pollScan
    let found ← orClear reply
    match found with
    | none => pure (finishedUs, progress)
    | some total => do
      let op ← activeMut id
      putActive { op with scanTotal := some total }
      let finishedUs ← Port.nowUs
      if total = 0 then
        let pending ← Port.scanCachePending
        if !pending then
          pure (finishedUs, { progress with
            madeProgress := true, outcome := .complete (.scan ⟨0, false⟩) })
        else pure (finishedUs, { progress with madeProgress := true })
      else pure (finishedUs, { progress with madeProgress := true })
  else pure (finishedUs, progress)

/-- Whether completion was observed and whether scan work is left to this backend. -/
def observeScanWork (id : OperationId) (isScan : Bool) : Step (Bool × Bool) := do
  if isScan then
    let cachePending ← Port.scanCachePending
    let observed ← Port.scanCacheCompletionObserved
    let op ← activeMut id
    pure (op.scanTotal.isSome || observed,
      observed || cachePending || op.scanTotal.any (fun total => decide (op.scanSeen < total)))
  else pure (false, false)

def claimScanTimeout (id : OperationId) (isScan : Bool) (finishedUs : UInt64)
    (progress : Progress) (completionObserved : Bool) : Step Bool := do
  let op ← activeMut id
  if isScan && progress.outcome == .continue && decide (finishedUs ≥ op.deadlineUs)
      && op.scanTotal.isNone && !completionObserved then
    Port.tryClaimScanTimeout
  else pure false

/-- The supplicant's next deadline; the largest word means that it has none. -/
def backendDeadline (nextDeadlineMs : UInt64) : Option UInt64 :=
  if nextDeadlineMs ≠ Machine.wordMax then some (saturatingMul nextDeadlineMs 1000) else none

def pollTimeout (id : OperationId) (isScan claimed : Bool) (finishedUs : UInt64)
    (nextDeadlineMs : UInt64) (progress : Progress) : Step Unit := do
  let op ← activeMut id
  let op := { op with backendDeadlineUs := backendDeadline nextDeadlineMs }
  putActive op
  if finishedUs ≥ op.deadlineUs ∧ progress.outcome = .continue
      ∧ ¬(isScan = true ∧ (op.scanTotal.isSome = true ∨ claimed = false)) then
    let context ← Port.contextDiagnosticWord
    let driver ← Port.driverDiagnosticWord
    let matched ← Port.matchDiagnosticWord
    leave (clearWithError ((((timeoutError op).withTrace .supplicantContext context).withTrace
      .driverContext driver).withTrace .backendStatus matched))

def failedError (status : Int32) : BackendError :=
  (stagedError .connect status.toUInt32 .connect).withTrace .vendorStatus status.toUInt32

/-- The last report of a poll; a terminal one gives up the operation. -/
def closePoll (platform : Platform) (id : OperationId) (budget : WorkBudget)
    (progress : Progress) (elapsed : Nat) (disposition : PollDisposition) (terminal : Bool) :
    Step PollReturn :=
  match WorkReport.tryNew platform.accepts id budget progress.consumed elapsed
      progress.madeProgress disposition with
  | none => clearWithError (operationError errorWorkBudget)
  | some report => do
    if terminal then
      clearActive
    pure (.ok report)

def pollReport (platform : Platform) (id : OperationId) (budget : WorkBudget)
    (progress : Progress) (elapsed : Nat) (outputPending : UInt32) (scanWorkPending : Bool) :
    Step PollReturn := do
  let outputWorkPending := outputPending ≠ 0 ∧ progress.consumed = budget.maxEvents
  let inputWorkPending ← Port.inputPending
  let wait :=
    if progress.madeProgress = true
        ∧ (scanWorkPending = true ∨ inputWorkPending = true ∨ outputWorkPending) then
      WaitSet.empty
    else waitBackendOrTimer
  match progress.outcome with
  | .complete completion => closePoll platform id budget progress elapsed (.complete completion) true
  | .cancelled => closePoll platform id budget progress elapsed .cancelled true
  | .failed status => clearWithError (failedError status)
  | .continue =>
    if progress.consumed = budget.maxEvents ∨ elapsed ≥ budget.maxTimeUs then
      closePoll platform id budget progress elapsed (.budgetExhausted wait) false
    else closePoll platform id budget progress elapsed (.pending wait) false

def pollScanStretch (id : OperationId) (budget : WorkBudget) (isScan : Bool)
    (progress : Progress) : Step Progress :=
  if isScan && progress.outcome == .continue then pollScanResults id budget progress
  else pure progress

/-- Everything after the start phase: native work, events, results, recovery, deadlines. -/
def pollBody (platform : Platform) (id : OperationId) (budget : WorkBudget)
    (startedUs : UInt64) : Step PollReturn := do
  let result ← pollSupplicant budget
  let progress ← pollEvents id budget result
  deferFinishDisconnect platform id budget startedUs progress
  let op ← activeMut id
  let isScan := op.kind == .scan
  let progress ← pollScanStretch id budget isScan progress
  let progress ← pollRecovery id progress
  let finishedUs ← Port.nowUs
  let (finishedUs, progress) ← snapshotScanCompletion id isScan finishedUs progress
  let elapsed := (finishedUs - startedUs).toNat
  if elapsed > 2 ^ 32 - 1 then
    leave (clearWithError (operationError errorWorkBudget))
  else
    let (completionObserved, scanWorkPending) ← observeScanWork id isScan
    let claimed ← claimScanTimeout id isScan finishedUs progress completionObserved
    pollTimeout id isScan claimed finishedUs result.nextDeadlineMs progress
    pollReport platform id budget progress elapsed result.outputPending scanWorkPending

def poll (platform : Platform) (id : OperationId) (_reason : WakeReason) (budget : WorkBudget) :
    Step PollReturn := do
  let startedUs ← Port.nowUs
  pollInit platform id budget
  pollCancellation platform id budget startedUs
  pollStart platform id budget startedUs
  pollBody platform id budget startedUs

/-- The slot of the backend; its port and clock are the environment. -/
def pollProgram (platform : Platform) (id : OperationId) (reason : WakeReason)
    (budget : WorkBudget) (state : PollState) :
    Program (portSignature.observed PollState) (PollReturn × PollState) :=
  (poll platform id reason budget).program state

def cancel (active : Option ActiveOperation) (id : OperationId) :
    Except BackendError Unit × Option ActiveOperation :=
  match active with
  | none => (.error (operationError errorStaleOperation), none)
  | some op =>
    if op.id = id then (.ok (), some { op with cancellationRequested := true })
    else (.error (operationError errorStaleOperation), some op)

def nextDeadlineUs (active : Option ActiveOperation) (id : OperationId) : Option UInt64 :=
  (active.filter fun op => op.id = id).map ActiveOperation.nextDeadlineUs

/-! A port that gives the same answers throughout a poll, for concrete runs. -/

structure SteadyPort where
  nowUs : UInt64 := 0
  submits : Except BackendError Unit := .ok ()
  polls : Except BackendError PollResult := .ok ⟨0, 0, Machine.wordMax⟩
  event : Option Event := none
  recovery : UInt32 := 0
  stalled : Bool := false

def SteadyPort.reply (port : SteadyPort) : (op : PortOp) → op.Reply
  | .startScan | .configure _ | .connect _ | .disconnect _ | .finishDisconnect => port.submits
  | .pollScan => .ok none
  | .scanResult _ => none
  | .scanCachePending | .scanCacheCompletionObserved | .tryClaimScanTimeout | .inputPending => false
  | .externalAuthRetryStalled => port.stalled
  | .cancelScan | .countFirstEapolReconnect | .countExternalAuthReconnect => ()
  | .poll _ => port.polls
  | .nextEvent => .ok port.event
  | .recoveryDiagnosticWord => port.recovery
  | .contextDiagnosticWord | .driverDiagnosticWord | .matchDiagnosticWord => 0
  | .nowUs => port.nowUs

/-- A scan as `start` leaves it, at time zero. -/
def queuedScan : ActiveOperation := .fromRequest ⟨1⟩ (.scan ⟨1000⟩) 0

/-- A contract that takes every report, and the smallest event grant. -/
def anyReport : Platform := ⟨false, fun _ _ _ _ _ => true⟩

def oneEvent : WorkBudget := ⟨1, 1000, by decide, by decide, by decide, by decide⟩

def steadyPoll (port : SteadyPort) (op : ActiveOperation) :
    List PortCall × PollReturn × PollState :=
  (pollProgram anyReport op.id .command oneEvent ⟨some op, []⟩).answer fun call =>
    port.reply call.1

theorem steadyPoll_runs (port : SteadyPort) (op : ActiveOperation) :
    Program.Runs (pollProgram anyReport op.id .command oneEvent ⟨some op, []⟩)
      (steadyPoll port op).1 (steadyPoll port op).2 :=
  Program.answer_runs _ _

end HisiRf
