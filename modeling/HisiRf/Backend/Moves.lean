import HisiRf.Backend.Poll
import Mathlib.Data.List.Count
import Mathlib.Logic.Relation

/-! What a poll can do to its operation, said once.

A moment is the backend's state with the conversation so far. A move is one
action of `poll` on it: a request that leaves the operation alone, the request
that submits the operation, an observed native event, a settled reconnect, a
recovery disconnect, scan bookkeeping, or the end of the operation. Later
invariants are checked against the moves and never against `poll` itself.
-/

namespace HisiRf

open Interaction

structure Moment where
  state : PollState
  talk : List PortCall

namespace Moment

def say (moment : Moment) (op : PortOp) (reply : op.Reply) : Moment :=
  { moment with talk := moment.talk ++ [⟨(op, moment.state), reply⟩] }

def put (moment : Moment) (op : ActiveOperation) : Moment :=
  { moment with state := { moment.state with active := some op } }

def clear (moment : Moment) : Moment :=
  { moment with state := { moment.state with active := none } }

variable (moment : Moment) (op : PortOp) (reply : op.Reply) (active : ActiveOperation)

theorem put_of_active {moment : Moment} {active : ActiveOperation}
    (same : moment.state.active = some active) : moment.put active = moment := by
  obtain ⟨⟨slot, output⟩, talk⟩ := moment
  simp only at same
  rw [same]
  rfl

end Moment

def PortOp.error? : (op : PortOp) → op.Reply → Option BackendError
  | .startScan, .error error => some error
  | .configure _, .error error => some error
  | .connect _, .error error => some error
  | .disconnect _, .error error => some error
  | .finishDisconnect, .error error => some error
  | .pollScan, .error error => some error
  | .poll _, .error error => some error
  | .nextEvent, .error error => some error
  | _, _ => none

def callError? (call : PortCall) : Option BackendError := PortOp.error? call.op.1 call.reply

/-- Requests that neither submit to the native station nor claim a scan. -/
def PortOp.quiet : PortOp → Bool
  | .startScan | .configure _ | .connect _ | .disconnect _ | .tryClaimScanTimeout => false
  | _ => true

def PortOp.isConnect : PortOp → Bool
  | .connect _ => true
  | _ => false

theorem PortOp.not_connect_of_quiet {op : PortOp} (quiet : op.quiet = true) :
    op.isConnect = false := by
  cases op <;> first | rfl | cases quiet

def calls (test : PortOp → Bool) (talk : List PortCall) : Nat :=
  talk.countP fun call => test call.op.1

@[simp] theorem calls_snoc (test : PortOp → Bool) (talk : List PortCall) (call : PortCall) :
    calls test (talk ++ [call]) = calls test talk + (test call.op.1).toNat := by
  unfold calls
  rw [List.countP_append, List.countP_singleton]
  cases test call.op.1 <;> rfl

theorem calls_plain {talk : List PortCall} {call : PortCall} {test : PortOp → Bool}
    (uncounted : test call.op.1 = false) : calls test (talk ++ [call]) = calls test talk := by
  rw [calls_snoc, uncounted]
  rfl

namespace ActiveOperation

/-- The request by which the next poll submits the operation or its cancellation. -/
def submission (op : ActiveOperation) : Option PortOp :=
  if op.kind = .init then none
  else if op.cancellationRequested then
    if op.startPhase = .ready ∧ op.cancellationActionSubmitted = false ∧ op.kind.isConnect = true
    then some (.disconnect .cancellation) else none
  else
    match op.startPhase with
    | .ready | .finishDisconnect => none
    | .scan => some .startScan
    | .connectConfigure config => some (.configure config)
    | .connectSubmit => some (.connect .start)
    | .disconnect => some (.disconnect .start)

/-- The record while that request is out. -/
def submitting (op : ActiveOperation) : ActiveOperation := { op with startPhase := .ready }

/-- The record once the request was accepted. -/
def submitted (op : ActiveOperation) : PortOp → ActiveOperation
  | .configure _ => { op with startPhase := .connectSubmit }
  | .disconnect .cancellation => { op with cancellationActionSubmitted := true }
  | _ => op

/-- An observed native event with the clock reading that follows it. -/
def observed (op : ActiveOperation) (event : Event) (nowUs : UInt64) : ActiveOperation :=
  (op.observe event.kind event.status).2.observeReconnectDisconnect event.kind nowUs

def scanned (op : ActiveOperation) (total : Option Nat) (seen written : Nat) (truncated : Bool) :
    ActiveOperation :=
  { op with scanTotal := total, scanSeen := seen, scanWritten := written
            scanTruncated := truncated }

structure SameRequest (op later : ActiveOperation) : Prop where
  id : later.id = op.id
  kind : later.kind = op.kind
  cancellation : later.cancellationRequested = op.cancellationRequested

theorem SameRequest.refl (op : ActiveOperation) : op.SameRequest op := ⟨rfl, rfl, rfl⟩

theorem SameRequest.trans {first op later : ActiveOperation} (before : first.SameRequest op)
    (after : op.SameRequest later) : first.SameRequest later :=
  ⟨after.id.trans before.id, after.kind.trans before.kind,
    after.cancellation.trans before.cancellation⟩

theorem submitting_of_ready {op : ActiveOperation} (ready : op.startPhase = .ready) :
    op.submitting = op := by
  unfold submitting
  rw [← ready]

theorem submitting_same (op : ActiveOperation) : op.SameRequest op.submitting := ⟨rfl, rfl, rfl⟩

theorem submitted_same (op : ActiveOperation) (call : PortOp) :
    op.SameRequest (op.submitted call) := by
  unfold submitted
  split <;> exact ⟨rfl, rfl, rfl⟩

/-- The event is the disconnect that a recovery waits for. -/
def arms (op : ActiveOperation) (event : Event) : Bool :=
  op.reconnectAfterDisconnect && !op.cancellationRequested
    && classifyNativeConnectEvent event.kind == .disconnected

section

variable (op : ActiveOperation)
include op

/-- Observing an event only remembers it and may arm the settle deadline. -/
theorem observed_eq (event : Event) (nowUs : UInt64) : ∃ status, op.observed event nowUs = { op with
      lastEventKind := event.kind, lastDisconnectStatus := status
      reconnectAfterDisconnect := if op.arms event then false else op.reconnectAfterDisconnect
      reconnectSubmitDeadlineUs :=
        if op.arms event then some (Machine.saturatingAdd nowUs reconnectSettleUs)
        else op.reconnectSubmitDeadlineUs } := by
  have remembers : ∃ status, (op.observe event.kind event.status).2 =
      { op with lastEventKind := event.kind, lastDisconnectStatus := status } := by
    have kept : ∃ status, { op with lastEventKind := event.kind } =
        { op with lastEventKind := event.kind, lastDisconnectStatus := status } := ⟨_, rfl⟩
    unfold observe
    split <;> try exact kept
    · split
      · exact kept
      · split <;> exact kept
      · split
        · exact kept
        · split
          · exact ⟨some event.status, rfl⟩
          · exact kept
      · exact kept
    · split
      · split <;> exact kept
      · exact kept
      · exact kept
      · exact kept
  obtain ⟨status, seen⟩ := remembers
  refine ⟨status, ?_⟩
  unfold observed observeReconnectDisconnect
  rw [seen]
  by_cases arming : op.arms event = true
  · rw [if_pos arming, if_pos arming]
    exact if_pos arming
  · rw [if_neg arming, if_neg arming]
    exact if_neg arming

theorem observed_same (event : Event) (nowUs : UInt64) : op.SameRequest (op.observed event nowUs) ∧
      (op.observed event nowUs).startPhase = op.startPhase := by
  obtain ⟨status, same⟩ := observed_eq op event nowUs
  rw [same]
  exact ⟨⟨rfl, rfl, rfl⟩, rfl⟩

variable (recovery : UInt32)

theorem shouldSubmitFirstEapolReconnect_eq (nowUs : UInt64) :
    (∃ deadline, (op.shouldSubmitFirstEapolReconnect recovery nowUs).2 = { op with
      firstEapolReconnectDeadlineUs := deadline
      firstEapolReconnectSubmitted := op.firstEapolReconnectSubmitted
        || (op.shouldSubmitFirstEapolReconnect recovery nowUs).1 }) ∧
    ((op.shouldSubmitFirstEapolReconnect recovery nowUs).1 = true →
      op.firstEapolReconnectSubmitted = false) := by
  unfold shouldSubmitFirstEapolReconnect
  split
  · exact ⟨⟨op.firstEapolReconnectDeadlineUs, by simp only [Bool.or_false]⟩, nofun⟩
  · rename_i possible
    simp only [Bool.or_eq_true, not_or] at possible
    dsimp only
    split
    · exact ⟨⟨_, by simp only [Bool.or_false]; rfl⟩, nofun⟩
    · exact ⟨⟨_, by simp only [Bool.or_true]; rfl⟩,
        fun _ => Bool.eq_false_iff.mpr possible.1.2⟩

theorem shouldSubmitExternalAuthReconnect_eq (stalled : Bool) (nowUs : UInt64) :
    (∃ deadline, (op.shouldSubmitExternalAuthReconnect stalled nowUs).2 = { op with
      externalAuthReconnectDeadlineUs := deadline
      externalAuthReconnectSubmitted := op.externalAuthReconnectSubmitted
        || (op.shouldSubmitExternalAuthReconnect stalled nowUs).1 }) ∧
    ((op.shouldSubmitExternalAuthReconnect stalled nowUs).1 = true →
      op.externalAuthReconnectSubmitted = false) := by
  unfold shouldSubmitExternalAuthReconnect
  split
  · exact ⟨⟨op.externalAuthReconnectDeadlineUs, by simp only [Bool.or_false]⟩, nofun⟩
  rename_i possible
  simp only [Bool.or_eq_true, not_or] at possible
  split
  · exact ⟨⟨_, by simp only [Bool.or_false]; rfl⟩, nofun⟩
  · dsimp only
    split
    · exact ⟨⟨_, by simp only [Bool.or_false]; rfl⟩, nofun⟩
    · exact ⟨⟨_, by simp only [Bool.or_true]; rfl⟩,
        fun _ => Bool.eq_false_iff.mpr possible.2⟩

/-- A recovery decision moves the recovery deadlines and marks the causes it submits, each of
which was unmarked. -/
theorem recovering_eq (stalled : Bool) (nowUs : UInt64) :
    (∃ first second, (op.recovering recovery stalled nowUs).2.2 = { op with
      firstEapolReconnectDeadlineUs := first
      firstEapolReconnectSubmitted :=
        op.firstEapolReconnectSubmitted || (op.recovering recovery stalled nowUs).1
      externalAuthReconnectDeadlineUs := second
      externalAuthReconnectSubmitted :=
        op.externalAuthReconnectSubmitted || (op.recovering recovery stalled nowUs).2.1 }) ∧
    ((op.recovering recovery stalled nowUs).1 = true → op.firstEapolReconnectSubmitted = false) ∧
    ((op.recovering recovery stalled nowUs).2.1 = true →
      op.externalAuthReconnectSubmitted = false) := by
  obtain ⟨⟨first, firstSame⟩, firstFresh⟩ :=
    shouldSubmitFirstEapolReconnect_eq op recovery nowUs
  obtain ⟨⟨second, secondSame⟩, secondFresh⟩ :=
    shouldSubmitExternalAuthReconnect_eq (op.shouldSubmitFirstEapolReconnect recovery nowUs).2
      stalled nowUs
  have kept : (op.shouldSubmitFirstEapolReconnect recovery nowUs).2.externalAuthReconnectSubmitted =
      op.externalAuthReconnectSubmitted := by rw [firstSame]
  refine ⟨⟨first, second, ?_⟩, firstFresh, fun due => kept ▸ secondFresh due⟩
  unfold recovering
  dsimp only
  rw [secondSame, kept, firstSame]

theorem recovering_same (stalled : Bool) (nowUs : UInt64) :
    op.SameRequest (op.recovering recovery stalled nowUs).2.2 ∧
      (op.recovering recovery stalled nowUs).2.2.startPhase = op.startPhase := by
  obtain ⟨⟨first, second, same⟩, _⟩ := recovering_eq op recovery stalled nowUs
  rw [same]
  exact ⟨⟨rfl, rfl, rfl⟩, rfl⟩

theorem takeReconnectWhenSettled_same (nowUs : UInt64) :
    op.SameRequest (op.takeReconnectWhenSettled nowUs).2 ∧
      (op.takeReconnectWhenSettled nowUs).2.startPhase = op.startPhase := by
  unfold takeReconnectWhenSettled
  split <;> exact ⟨⟨rfl, rfl, rfl⟩, rfl⟩

end

/-- Which completions an outcome of this request may carry. -/
structure Fair (first : ActiveOperation) (outcome : OperationOutcome) : Prop where
  connected : ∀ info, outcome = .complete (.connected info) →
    first.kind = .connect info ∧ first.cancellationRequested = false
  disconnected : outcome = .complete .disconnected → first.kind = .disconnect

theorem fair_continue (first : ActiveOperation) : first.Fair .continue :=
  ⟨nofun, nofun⟩

theorem observe_fair (op : ActiveOperation) (kind : UInt8) (status : Int32) :
    op.Fair (op.observe kind status).1 := by
  unfold observe
  cases request : op.kind with
  | init | scan => exact fair_continue op
  | connect =>
    cases classifyNativeConnectEvent kind with
    | progress => exact fair_continue op
    | failed => exact ⟨nofun, nofun⟩
    | authorized =>
      cases requested : op.cancellationRequested with
      | true => exact fair_continue op
      | false =>
        refine ⟨?_, nofun⟩
        intro other done
        cases done
        exact ⟨request, requested⟩
    | disconnected =>
      cases op.cancellationRequested with
      | true => exact ⟨nofun, nofun⟩
      | false =>
        dsimp only
        split
        · rename_i impossible
          cases impossible
        · split <;> exact fair_continue op
  | disconnect =>
    cases classifyNativeConnectEvent kind with
    | progress | authorized => exact fair_continue op
    | failed => exact ⟨nofun, nofun⟩
    | disconnected =>
      cases op.cancellationRequested with
      | true => exact ⟨nofun, nofun⟩
      | false => exact ⟨nofun, fun _ => request⟩

theorem Fair.of_same {first op : ActiveOperation} {outcome : OperationOutcome}
    (same : first.SameRequest op) (fair : op.Fair outcome) : first.Fair outcome := by
  constructor
  · intro info done
    obtain ⟨kind, requested⟩ := fair.connected info done
    exact ⟨same.kind.symm.trans kind, same.cancellation.symm.trans requested⟩
  · intro done
    exact same.kind.symm.trans (fair.disconnected done)

end ActiveOperation

inductive Move : Moment → Moment → Prop where
  | ask {moment : Moment} (op : PortOp) (reply : op.Reply) (quiet : op.quiet = true) :
      Move moment (moment.say op reply)
  | claim {moment : Moment} {op : ActiveOperation} (active : moment.state.active = some op)
      (ready : op.startPhase = .ready) (reply : Bool) :
      Move moment (moment.say .tryClaimScanTimeout reply)
  | clear {moment : Moment} : Move moment moment.clear
  | submit {moment : Moment} {op : ActiveOperation} (active : moment.state.active = some op)
      {call : PortOp} (due : op.submission = some call) (reply : call.Reply) :
      Move moment ((moment.put op.submitting).say call reply)
  | accept {moment : Moment} {op : ActiveOperation} (active : moment.state.active = some op)
      {call : PortOp} (due : op.submission = some call) (reply : call.Reply)
      (fine : call.error? reply = none) :
      Move moment (((moment.put op.submitting).say call reply).put (op.submitting.submitted call))
  | observe {moment : Moment} {op : ActiveOperation} (active : moment.state.active = some op)
      (ready : op.startPhase = .ready) (event : Event) (nowUs : UInt64) :
      Move moment (((moment.say .nextEvent (.ok (some event))).say .nowUs nowUs).put
        (op.observed event nowUs))
  | settle {moment : Moment} {op : ActiveOperation} (active : moment.state.active = some op)
      (ready : op.startPhase = .ready) (nowUs : UInt64)
      (settled : (op.takeReconnectWhenSettled nowUs).1 = true)
      (reply : (PortOp.connect .settled).Reply) :
      Move moment (((moment.say .nowUs nowUs).put (op.takeReconnectWhenSettled nowUs).2).say
        (.connect .settled) reply)
  | defer {moment : Moment} {op : ActiveOperation} (active : moment.state.active = some op)
      (recovery : UInt32) (stalled : Bool) (nowUs : UInt64)
      (early : (op.recovering recovery stalled nowUs).1 = false ∧
        (op.recovering recovery stalled nowUs).2.1 = false) :
      Move moment (moment.put (op.recovering recovery stalled nowUs).2.2)
  | recover {moment : Moment} {op : ActiveOperation} (active : moment.state.active = some op)
      (recovery : UInt32) (stalled : Bool) (nowUs : UInt64) (firstEapol externalAuth : Bool)
      (due : (op.recovering recovery stalled nowUs).1 = firstEapol ∧
        (op.recovering recovery stalled nowUs).2.1 = externalAuth ∧
        (firstEapol || externalAuth) = true)
      (reply : (PortOp.disconnect (.recovery firstEapol externalAuth)).Reply) :
      Move moment ((moment.put (op.recovering recovery stalled nowUs).2.2).say
        (.disconnect (.recovery firstEapol externalAuth)) reply)
  | request {moment : Moment} {op : ActiveOperation} (active : moment.state.active = some op)
      (recovery : UInt32) (stalled : Bool) (nowUs : UInt64) (firstEapol externalAuth : Bool)
      (due : (op.recovering recovery stalled nowUs).1 = firstEapol ∧
        (op.recovering recovery stalled nowUs).2.1 = externalAuth ∧
        (firstEapol || externalAuth) = true) :
      Move moment (((moment.put (op.recovering recovery stalled nowUs).2.2).say
        (.disconnect (.recovery firstEapol externalAuth)) (.ok ())).put
        (op.recovering recovery stalled nowUs).2.2.requestReconnectAfterDisconnect)
  | scan {moment : Moment} {op : ActiveOperation} (active : moment.state.active = some op)
      (scans : op.kind = .scan) (output : List ScanResult) (total : Option Nat)
      (seen written : Nat) (truncated : Bool) :
      Move moment { moment with
        state := ⟨some (op.scanned total seen written truncated), output⟩ }
  | retime {moment : Moment} {op : ActiveOperation} (active : moment.state.active = some op)
      (deadline : Option UInt64) :
      Move moment (moment.put { op with backendDeadlineUs := deadline })
  | terminate {moment : Moment} {op : ActiveOperation} (active : moment.state.active = some op)
      (finishing : op.startPhase = .finishDisconnect) : Move moment (moment.put op.submitting)
  | finish {moment : Moment} {op : ActiveOperation} (active : moment.state.active = some op)
      (disconnects : op.kind = .disconnect) :
      Move moment (moment.put { op with startPhase := .finishDisconnect })

theorem Move.extends {before after : Moment} (move : Move before after) :
    ∃ more, after.talk = before.talk ++ more := by
  cases move with
  | observe | settle => exact ⟨_, List.append_assoc ..⟩
  | ask | claim | submit | accept | recover | request => exact ⟨_, rfl⟩
  | _ => exact ⟨[], (List.append_nil _).symm⟩

abbrev Moves := Relation.ReflTransGen Move

theorem moves_invariant {inv : Moment → Prop}
    (keeps : ∀ before after, Move before after → inv before → inv after) {before after : Moment}
    (path : Moves before after) (holds : inv before) : inv after := by
  induction path with
  | refl => exact holds
  | tail _ move ih => exact keeps _ _ move ih

/-- A won timeout claim in the conversation, made while no total had been seen. -/
def Claimed (talk : List PortCall) : Prop :=
  ∃ seen op, seen.active = some op ∧ op.scanTotal = none ∧
    ⟨(.tryClaimScanTimeout, seen), true⟩ ∈ talk

/-- A timeout error is the port's own, belongs to an operation that is no scan or is past
its last event, or followed a won claim while no total had been seen. -/
def TimeoutCause (first : ActiveOperation) (error : BackendError) (talk : List PortCall) : Prop :=
  error.errorClass = .operationTimeout →
    (∃ call ∈ talk, callError? call = some error) ∨
      (first.kind ≠ .scan ∨ first.startPhase = .finishDisconnect) ∨ Claimed talk

/-- How a poll of the operation `first` can end; `begun` is the conversation up to its
first clock reading. -/
inductive Ends (first : ActiveOperation) (begun : List PortCall) :
    PollReturn → PollState → List PortCall → Prop where
  | failed {error : BackendError} {state : PollState} {talk : List PortCall}
      (idle : state.active = none)
      (cause : TimeoutCause first error talk) :
      Ends first begun (.error error) state talk
  | refused {error : BackendError} {op : ActiveOperation} {call : PortOp} {reply : call.Reply}
      {state seen : PollState} (active : state.active = some op)
      (same : first.SameRequest op) (due : first.submission = some call)
      (refusal : call.error? reply = some error) :
      Ends first begun (.error error) state (begun ++ [⟨(call, seen), reply⟩])
  | going {report : WorkReport} {op : ActiveOperation} {state : PollState} {talk : List PortCall}
      (operation : report.operation = first.id) (continues : report.disposition.continues = true)
      (active : state.active = some op) (same : first.SameRequest op) :
      Ends first begun (.ok report) state talk
  | finished {report : WorkReport} {state : PollState} {talk : List PortCall}
      (operation : report.operation = first.id) (stops : report.disposition.continues = false)
      (idle : state.active = none)
      (connected : ∀ info, report.disposition = .complete (.connected info) →
        first.kind = .connect info ∧ first.cancellationRequested = false) :
      Ends first begun (.ok report) state talk

end HisiRf
