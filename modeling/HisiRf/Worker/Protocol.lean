import HisiRf.Backend.Poll
import HisiRf.Interaction.Transition
import HisiRf.Worker.Mailbox

/-! One runner and one worker at critical-section granularity.

The runner's proxy calls and the turns of the worker loop interleave between
any two critical sections. The worker may take a turn at any time: besides the
proxy, link wakers raise its semaphore. What the backend does with a command is
left open, and so is whether a wake-up succeeds.
-/

namespace HisiRf

open Interaction

/-- What the worker alone may touch. Its calls may have any outcome. -/
structure WorkerBackend (B : Type) where
  cancel : B → OperationId → B
  start : B → OperationId → IncrementalRequest → Except BackendError Unit → B → Prop
  poll : B → OperationId → WakeReason → WorkBudget → List ScanResult →
    Except BackendError WorkReport → B → List ScanResult → Prop
  nextDeadlineUs : B → OperationId → Option UInt64

/-- The arguments of the proxy's `poll`; `room` is the length of the caller's slice. -/
structure PollArgs where
  id : OperationId
  reason : WakeReason
  budget : WorkBudget
  room : Nat

abbrev PollResponse := Except BackendError WorkReport

inductive RunnerPhase where
  | idle
  | polling (args : PollArgs)
  | copying (args : PollArgs) (result : PollResponse) (count : Nat)
  | submitting (args : PollArgs)

inductive WorkerPhase where
  | waiting
  | cancelling (turn : WorkerTurn)
  | executing (turn : WorkerTurn)
  | publishing (turn : WorkerTurn) (response : Option WorkerResponse)

structure WorkerState (B : Type) where
  mailbox : WorkerMailbox
  backend : B
  storage : List ScanResult
  runner : RunnerPhase
  worker : WorkerPhase

inductive WorkerLabel where
  | start (id : OperationId) (request : IncrementalRequest) (accepted : Bool)
      (result : Except BackendError Unit)
  | cancel (id : OperationId) (result : Except BackendError Unit)
  | arm (armed : Bool)
  | poll (args : PollArgs)
  | take (args : PollArgs) (response : Option WorkerResponse) (returned : Option PollResponse)
  | endCopy (args : PollArgs) (copied : List ScanResult) (returned : PollResponse)
  | submitPoll (args : PollArgs) (accepted : Bool) (returned : PollResponse)
  | turn (turn : WorkerTurn)
  | cancelled (id : Option OperationId)
  | executed (command : Option WorkerCommand) (response : Option WorkerResponse)
  | publish (response : Option WorkerResponse)

/-- A call that reached the mailbox still fails when the wake-up does. -/
def wakeResult (woken : Bool) : Except BackendError Unit :=
  if woken then .ok () else .error (workerError errorWorkerRuntime)

def submitResult (accepted woken : Bool) : Except BackendError Unit :=
  if accepted then wakeResult woken else .error (workerError errorWorkerBusy)

def waitingReport (accepts : ReportRule) (args : PollArgs) : PollResponse :=
  match WorkReport.tryNew accepts args.id args.budget 0 0 false (.pending .backendOnly) with
  | some report => .ok report
  | none => .error (workerError errorWorkerProtocol)

/-- A busy worker is waited for; only a failed wake-up is reported. -/
def submitPollResult (accepts : ReportRule) (args : PollArgs) (accepted woken : Bool) :
    PollResponse :=
  if accepted && !woken then .error (workerError errorWorkerRuntime)
  else waitingReport accepts args

/-- One round of the proxy's loop after `take_response`: where the runner stands and what the
poll returns. A response of another operation is dropped. -/
def afterTake (args : PollArgs) (response : Option WorkerResponse) (copy : Option Nat) :
    RunnerPhase × Option PollResponse :=
  match response with
  | none => (.submitting args, none)
  | some (.started id result) =>
    if id = args.id then
      match result with
      | .ok () => (.submitting args, none)
      | .error error => (.idle, some (.error error))
    else (.polling args, none)
  | some (.polled id result) =>
    if id = args.id then
      match copy with
      | some count => (.copying args result count, none)
      | none => (.idle, some result)
    else (.polling args, none)

/-- The cancellation of a turn reaches the backend before its command; the result is dropped. -/
def applyCancel {B : Type} (model : WorkerBackend B) (backend : B) : Option OperationId → B
  | some id => model.cancel backend id
  | none => backend

def storageAtStart (request : IncrementalRequest) (storage : List ScanResult) : List ScanResult :=
  match request with
  | .scan _ => List.replicate scanCapacity .empty
  | _ => storage

/-- How a worker turn executes the command that it took. -/
inductive Executes {B : Type} (accepts : ReportRule) (model : WorkerBackend B) (turn : WorkerTurn)
    (backend : B) (storage : List ScanResult) :
    Option WorkerResponse → B → List ScanResult → Prop where
  | idle (empty : turn.command = none) :
      Executes accepts model turn backend storage none backend storage
  | start {id : OperationId} {request : IncrementalRequest} {result : Except BackendError Unit}
      {after : B} (command : turn.command = some (.start id request))
      (started : model.start backend id request result after) :
      Executes accepts model turn backend storage (some (.started id result)) after
        (storageAtStart request storage)
  | injected {id staleId : OperationId} {reason : WakeReason} {budget staleBudget : WorkBudget}
      {report : WorkReport} (command : turn.command = some (.poll id reason budget))
      (stale : turn.injectedStale = some (staleId, staleBudget))
      (built : WorkReport.tryNew accepts staleId staleBudget 0 1 true (.complete .initialized) =
        some report) :
      Executes accepts model turn backend storage (some (.polled staleId (.ok report))) backend
        storage
  | poll {id : OperationId} {reason : WakeReason} {budget : WorkBudget} {result : PollResponse}
      {after : B} {written : List ScanResult}
      (command : turn.command = some (.poll id reason budget)) (fresh : turn.injectedStale = none)
      (polled : model.poll backend id reason budget storage result after written) :
      Executes accepts model turn backend storage (some (.polled id result)) after written

inductive WorkerStep {B : Type} (accepts : ReportRule) (model : WorkerBackend B)
    (s : WorkerState B) : WorkerLabel → WorkerState B → Prop where
  | start (id : OperationId) (request : IncrementalRequest) (woken : Bool)
      (idle : s.runner = .idle) :
      WorkerStep accepts model s
        (.start id request (s.mailbox.submit (.start id request)).1
          (submitResult (s.mailbox.submit (.start id request)).1 woken))
        { s with mailbox := (s.mailbox.submit (.start id request)).2 }
  | cancel (id : OperationId) (woken : Bool) (idle : s.runner = .idle) :
      WorkerStep accepts model s (.cancel id (wakeResult woken))
        { s with mailbox := s.mailbox.requestCancel id }
  | arm : WorkerStep accepts model s (.arm s.mailbox.armStaleCompletionInjection.1)
        { s with mailbox := s.mailbox.armStaleCompletionInjection.2 }
  | poll (args : PollArgs) (idle : s.runner = .idle) :
      WorkerStep accepts model s (.poll args) { s with runner := .polling args }
  | take {args : PollArgs} (polling : s.runner = .polling args) :
      WorkerStep accepts model s
        (.take args s.mailbox.response
          (afterTake args s.mailbox.response (s.mailbox.takeResponse args.id args.room).1.2).2)
        { s with
          mailbox := (s.mailbox.takeResponse args.id args.room).2
          runner :=
            (afterTake args s.mailbox.response (s.mailbox.takeResponse args.id args.room).1.2).1 }
  | endCopy {args : PollArgs} {result : PollResponse} {count : Nat}
      (copying : s.runner = .copying args result count) :
      WorkerStep accepts model s (.endCopy args (s.storage.take count) result)
        { s with mailbox := s.mailbox.endCopy, runner := .idle }
  | submitPoll {args : PollArgs} (woken : Bool) (submitting : s.runner = .submitting args) :
      WorkerStep accepts model s
        (.submitPoll args (s.mailbox.submit (.poll args.id args.reason args.budget)).1
          (submitPollResult accepts args
            (s.mailbox.submit (.poll args.id args.reason args.budget)).1 woken))
        { s with
          mailbox := (s.mailbox.submit (.poll args.id args.reason args.budget)).2
          runner := .idle }
  | turn (waiting : s.worker = .waiting) :
      WorkerStep accepts model s (.turn s.mailbox.take.1)
        { s with mailbox := s.mailbox.take.2, worker := .cancelling s.mailbox.take.1 }
  | cancelled {turn : WorkerTurn} (cancelling : s.worker = .cancelling turn) :
      WorkerStep accepts model s (.cancelled turn.cancel)
        { s with backend := applyCancel model s.backend turn.cancel, worker := .executing turn }
  | executed {turn : WorkerTurn} {response : Option WorkerResponse} {after : B}
      {written : List ScanResult} (executing : s.worker = .executing turn)
      (executes : Executes accepts model turn s.backend s.storage response after written) :
      WorkerStep accepts model s (.executed turn.command response)
        { s with backend := after, storage := written, worker := .publishing turn response }
  | publish {turn : WorkerTurn} {response : Option WorkerResponse}
      (publishing : s.worker = .publishing turn response) :
      WorkerStep accepts model s (.publish response)
        { s with
          mailbox := s.mailbox.publish turn response
            ((nextActive turn.previousActive response).bind (model.nextDeadlineUs s.backend))
          worker := .waiting }

def workerSystem {B : Type} (accepts : ReportRule) (model : WorkerBackend B) :
    System (WorkerState B) WorkerLabel :=
  ⟨WorkerStep accepts model⟩

/-- The incremental backend as the worker calls it, with any port and clock. -/
def ws63Backend (platform : Platform) : WorkerBackend (Option ActiveOperation) where
  cancel := fun active id => (HisiRf.cancel active id).2
  start := fun active id request result after => ∃ talk state,
    Program.Runs ((startRequest id request).program ⟨active, []⟩) talk (result, state) ∧
      state.active = after
  poll := fun active id reason budget storage result after written => ∃ talk,
    Program.Runs (pollProgram platform id reason budget ⟨active, storage⟩) talk
      (result, ⟨after, written⟩)
  nextDeadlineUs := HisiRf.nextDeadlineUs

def ws63Worker (platform : Platform) : System (WorkerState (Option ActiveOperation)) WorkerLabel :=
  workerSystem platform.accepts (ws63Backend platform)

def WorkerState.initial {B : Type} (backend : B) : WorkerState B :=
  ⟨.new, backend, List.replicate scanCapacity .empty, .idle, .waiting⟩

end HisiRf
