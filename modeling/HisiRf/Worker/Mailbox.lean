import HisiRf.Backend.Contract
import HisiRf.Machine.Word

/-! The mailbox between the runner's proxy and the backend worker.

One definition for each critical section of the source. Between two critical
sections either side may run; the interleavings are in the protocol module.
-/

namespace HisiRf

def scanCapacity : Nat := 32
def errorWorkerBusy : UInt32 := 0x5732b101
def errorWorkerRuntime : UInt32 := 0x5732b102
def errorWorkerProtocol : UInt32 := 0x5732b103

def workerError (code : UInt32) : BackendError := .new .other code

inductive WorkerCommand where
  | start (id : OperationId) (request : IncrementalRequest)
  | poll (id : OperationId) (reason : WakeReason) (budget : WorkBudget)

inductive WorkerResponse where
  | started (id : OperationId) (result : Except BackendError Unit)
  | polled (id : OperationId) (result : Except BackendError WorkReport)

def WorkerResponse.id : WorkerResponse → OperationId
  | .started id _ | .polled id _ => id

def WorkerResponse.scanCount : WorkerResponse → Option Nat
  | .polled _ (.ok report) =>
    match report.disposition with
    | .complete (.scan outcome) => some outcome.count
    | _ => none
  | _ => none

structure WorkerMailbox where
  command : Option WorkerCommand
  response : Option WorkerResponse
  cancellation : Option OperationId
  workerBusy : Bool
  active : Option OperationId
  lastTerminal : Option OperationId
  deadlineUs : Option UInt64
  staleResponsesDropped : Nat
  staleResponsesInjected : Nat
  staleInjectionArmed : Bool

namespace WorkerMailbox

def new : WorkerMailbox where
  command := none
  response := none
  cancellation := none
  workerBusy := false
  active := none
  lastTerminal := none
  deadlineUs := none
  staleResponsesDropped := 0
  staleResponsesInjected := 0
  staleInjectionArmed := false

def saturatingCount (count : Nat) : Nat := min (count + 1) (2 ^ 32 - 1)

/-- The critical section of `submit`: whether the command was accepted. -/
def submit (mailbox : WorkerMailbox) (command : WorkerCommand) : Bool × WorkerMailbox :=
  if mailbox.command.isSome || mailbox.workerBusy || mailbox.response.isSome then (false, mailbox)
  else (true, { mailbox with command := some command })

def requestCancel (mailbox : WorkerMailbox) (id : OperationId) : WorkerMailbox :=
  { mailbox with cancellation := some id }

/-- The first critical section of `take_response`: the response with the number of
scan results to copy out of the lock. -/
def takeResponse (mailbox : WorkerMailbox) (expected : OperationId) (room : Nat) :
    (Option WorkerResponse × Option Nat) × WorkerMailbox :=
  let taken := { mailbox with response := none }
  match mailbox.response with
  | none => ((none, none), taken)
  | some response =>
    if response.id ≠ expected then
      ((some response, none),
        { taken with staleResponsesDropped := saturatingCount mailbox.staleResponsesDropped })
    else
      match response.scanCount with
      | some count =>
        ((some response, some (min (min count room) scanCapacity)),
          { taken with workerBusy := true })
      | none => ((some response, none), taken)

/-- The second critical section of `take_response`. -/
def endCopy (mailbox : WorkerMailbox) : WorkerMailbox := { mailbox with workerBusy := false }

def armStaleCompletionInjection (mailbox : WorkerMailbox) : Bool × WorkerMailbox :=
  if mailbox.lastTerminal.isNone || mailbox.staleInjectionArmed then (false, mailbox)
  else (true, { mailbox with staleInjectionArmed := true })

def deadline (mailbox : WorkerMailbox) (id : OperationId) : Option UInt64 :=
  if mailbox.active = some id then mailbox.deadlineUs else none

end WorkerMailbox

structure WorkerTurn where
  cancel : Option OperationId
  command : Option WorkerCommand
  previousActive : Option OperationId
  injectedStale : Option (OperationId × WorkBudget)

/-- The stale completion that an armed injection puts in place of a poll. -/
def WorkerMailbox.injectedStale (mailbox : WorkerMailbox) : Option (OperationId × WorkBudget) :=
  match mailbox.command, mailbox.lastTerminal with
  | some (.poll id _ budget), some staleId =>
    if mailbox.staleInjectionArmed ∧ staleId ≠ id then some (staleId, budget) else none
  | _, _ => none

def WorkerMailbox.take (mailbox : WorkerMailbox) : WorkerTurn × WorkerMailbox :=
  let injected := mailbox.injectedStale
  ({ cancel := mailbox.cancellation
     command := mailbox.command
     previousActive := mailbox.active
     injectedStale := injected },
   { mailbox with
     cancellation := none
     command := none
     workerBusy := mailbox.cancellation.isSome || mailbox.command.isSome
     staleInjectionArmed := mailbox.staleInjectionArmed && injected.isNone
     staleResponsesInjected :=
       if injected.isSome then saturatingCount mailbox.staleResponsesInjected
       else mailbox.staleResponsesInjected })

def nextActive (previous : Option OperationId) (response : Option WorkerResponse) :
    Option OperationId :=
  match response with
  | none => previous
  | some response =>
    if previous.any (fun active => active ≠ response.id) then previous
    else
      match response with
      | .started id (.ok ()) => some id
      | .polled id (.ok report) => if report.disposition.continues then some id else none
      | _ => none

def WorkerMailbox.publish (mailbox : WorkerMailbox) (turn : WorkerTurn)
    (response : Option WorkerResponse) (deadline : Option UInt64) : WorkerMailbox :=
  let active := nextActive turn.previousActive response
  { mailbox with
    lastTerminal :=
      if turn.previousActive.isSome && active.isNone then turn.previousActive
      else mailbox.lastTerminal
    workerBusy := false
    active := active
    deadlineUs := deadline
    response := if response.isSome then response else mailbox.response }

end HisiRf
