import HisiRf.Backend.Life
import HisiRf.Worker.Exclusion

/-! Whether a cancel reaches the operation it was meant for.

A worker turn takes the cancellation and the queued command together and hands
the cancellation to the backend first. A cancel that overtakes its own start in
the mailbox is therefore refused by an idle backend, and the refusal is dropped.
Every other cancel that the worker consumes is on record in the operation.
-/

namespace HisiRf

open Interaction Option

/-- How far the latest cancel of an operation has come. -/
inductive Delivery where | none | issued | taken | consumed deriving DecidableEq

/-- A new start of the operation begins anew; an issued cancel counts as consumed once a turn
that took it has called the backend. -/
def Delivery.next (id : OperationId) (delivery : Delivery) : WorkerLabel → Delivery
  | .start other _ accepted _ => if accepted ∧ other = id then .none else delivery
  | .cancel other _ => if delivery = .none ∧ other = id then .issued else delivery
  | .turn turn => if delivery = .issued ∧ turn.cancel = some id then .taken else delivery
  | .cancelled _ => if delivery = .taken then .consumed else delivery
  | _ => delivery

def delivery (id : OperationId) (labels : List WorkerLabel) : Delivery :=
  labels.foldl (Delivery.next id) .none

abbrev Ws63State := WorkerState (Option ActiveOperation)

/-- The cancel does not overtake a queued start of its own operation at an idle backend. -/
def CancelTimely (s : Ws63State) : WorkerLabel → Prop
  | .cancel id _ => ∀ request, s.mailbox.command = some (.start id request) → s.backend ≠ none
  | _ => True

/-- The worker with a runner whose cancels are all timely. -/
def timelyWorker (platform : Platform) : System Ws63State WorkerLabel :=
  ⟨fun s label t => (ws63Worker platform).step s label t ∧ CancelTimely s label⟩

/-- Where a start of the operation is still ahead, the backend would refuse it. -/
def StartsBlocked (id : OperationId) (command : Option WorkerCommand)
    (backend : Option ActiveOperation) : Prop :=
  ∀ request, command = some (.start id request) → backend ≠ none

def NoStart (id : OperationId) (command : Option WorkerCommand) : Prop :=
  ∀ request, command ≠ some (.start id request)

/-- The operation, if the backend holds it, was cancelled. -/
def OnRecord (id : OperationId) (backend : Option ActiveOperation) : Prop :=
  ∀ op, backend = some op → op.id = id → op.cancellationRequested = true

def Delivers (id : OperationId) (s : Ws63State) : Delivery → Prop
  | .none => True
  | .issued => StartsBlocked id s.mailbox.command s.backend
  | .taken => NoStart id s.mailbox.command ∧ ∃ turn, s.worker = .cancelling turn ∧
      turn.cancel = some id ∧ StartsBlocked id turn.command s.backend
  | .consumed => NoStart id s.mailbox.command ∧ OnRecord id s.backend ∧
      ∀ turn, s.worker = .cancelling turn ∨ s.worker = .executing turn →
        StartsBlocked id turn.command s.backend

variable {platform : Platform} {id : OperationId}

variable {backend after : Option ActiveOperation} {turn : WorkerTurn}
  {command : Option WorkerCommand} {storage written : List ScanResult}
  {response : Option WorkerResponse}

theorem blocked_of_noStart (unstarted : NoStart id command) : StartsBlocked id command backend := by
  intro request queued
  exact absurd queued (unstarted request)

theorem noStart_none : NoStart id none := by
  intro request queued
  cases queued

theorem applyCancel_holds (platform : Platform) (cancel : Option OperationId)
    (held : backend ≠ none) : applyCancel (ws63Backend platform) backend cancel ≠ none := by
  cases cancel with
  | none => exact held
  | some other =>
    show (HisiRf.cancel backend other).2 ≠ none
    rcases cancel_eq backend other with same | ⟨op, _, requested⟩
    · rw [same]
      exact held
    · rw [requested]
      exact some_ne_none _

theorem applyCancel_keeps_record (platform : Platform) (cancel : Option OperationId)
    (record : OnRecord id backend) :
    OnRecord id (applyCancel (ws63Backend platform) backend cancel) := by
  cases cancel with
  | none => exact record
  | some other =>
    show OnRecord id (HisiRf.cancel backend other).2
    rcases cancel_eq backend other with same | ⟨op, _, requested⟩
    · rw [same]
      exact record
    · rw [requested]
      intro later found named
      exact some.inj found ▸ rfl

theorem applyCancel_records (platform : Platform) :
    OnRecord id (applyCancel (ws63Backend platform) backend (some id)) := by
  intro later found named
  have cancelled : (HisiRf.cancel backend id).2 = some later := found
  cases backend with
  | none => cases cancelled
  | some op =>
    by_cases own : op.id = id
    · simp only [HisiRf.cancel, if_pos own] at cancelled
      exact some.inj cancelled ▸ rfl
    · simp only [HisiRf.cancel, if_neg own] at cancelled
      rw [some.inj cancelled] at own
      exact absurd named own

/-- A turn keeps the record: a start that is not refused is one of another operation. -/
theorem executes_keeps_record
    (executes : Executes platform.accepts (ws63Backend platform) turn backend storage response
      after written)
    (record : OnRecord id backend) (blocked : StartsBlocked id turn.command backend) :
    OnRecord id after := by
  cases executes with
  | idle | injected => exact record
  | @start other request result _ command started =>
    obtain ⟨talk, state, run, rfl⟩ := started
    rcases startRequest_runs run with ⟨_, _, same⟩ | ⟨idle, _, nowUs, filled⟩
    · rw [same]
      exact record
    rw [filled]
    intro op found named
    have fresh : op.id = other := by
      rw [← some.inj found]
      cases request <;> rfl
    rw [named] at fresh
    subst fresh
    exact absurd idle (blocked request command)
  | poll command fresh polled =>
    obtain ⟨talk, run⟩ := polled
    intro later found named
    rcases poll_same_request run with idle | ⟨first, op, before, kept, request⟩
    · cases idle.symm.trans found
    · have same : op = later := some.inj (kept.symm.trans found)
      subst same
      rw [request.cancellation]
      exact record first before (request.id.symm.trans named)

variable {s t : Ws63State} {stage : Delivery} {label : WorkerLabel}

section

variable (delivers : Delivers id s stage)
include delivers

theorem Delivers.frame (worker : t.worker = s.worker)
    (backend : t.backend = s.backend)
    (command : t.mailbox.command = s.mailbox.command ∨ NoStart id t.mailbox.command) :
    Delivers id t stage := by
  have blocked : StartsBlocked id s.mailbox.command s.backend →
      StartsBlocked id t.mailbox.command t.backend := by
    intro before
    rcases command with same | unstarted
    · rw [same, backend]
      exact before
    · exact blocked_of_noStart unstarted
  have unstarted : NoStart id s.mailbox.command → NoStart id t.mailbox.command := by
    intro before
    rcases command with same | unstarted
    · rw [same]
      exact before
    · exact unstarted
  cases stage with
  | none => trivial
  | issued => exact blocked delivers
  | taken =>
    obtain ⟨queued, turn, cancelling, own, start⟩ := delivers
    exact ⟨unstarted queued, turn, worker.trans cancelling, own, backend ▸ start⟩
  | consumed =>
    obtain ⟨queued, record, start⟩ := delivers
    refine ⟨unstarted queued, backend ▸ record, ?_⟩
    rw [worker, backend]
    exact start

theorem turn_delivers (waiting : s.worker = .waiting) :
    Delivers id { s with mailbox := s.mailbox.take.2, worker := .cancelling s.mailbox.take.1 }
      (stage.next id (.turn s.mailbox.take.1)) := by
  by_cases takes : stage = .issued ∧ s.mailbox.take.1.cancel = some id
  · obtain ⟨rfl, own⟩ := takes
    have next : Delivery.issued.next id (.turn s.mailbox.take.1) = .taken := if_pos ⟨rfl, own⟩
    rw [next]
    exact ⟨noStart_none, s.mailbox.take.1, rfl, own, delivers⟩
  have next : stage.next id (.turn s.mailbox.take.1) = stage := if_neg takes
  rw [next]
  cases stage with
  | none => trivial
  | issued => exact blocked_of_noStart noStart_none
  | taken =>
    obtain ⟨_, turn, cancelling, _⟩ := delivers
    cases waiting.symm.trans cancelling
  | consumed =>
    obtain ⟨queued, record, _⟩ := delivers
    refine ⟨noStart_none, record, ?_⟩
    rintro turn (cancelling | executing)
    · cases cancelling
      exact blocked_of_noStart queued
    · cases executing

theorem cancelled_delivers (cancelling : s.worker = .cancelling turn) : Delivers id { s with
        backend := applyCancel (ws63Backend platform) s.backend turn.cancel
        worker := .executing turn }
      (stage.next id (.cancelled turn.cancel)) := by
  have blocked : ∀ command, StartsBlocked id command s.backend →
      StartsBlocked id command (applyCancel (ws63Backend platform) s.backend turn.cancel) := by
    intro command before request queued
    exact applyCancel_holds platform turn.cancel (before request queued)
  cases stage with
  | none => trivial
  | issued => exact blocked _ delivers
  | taken =>
    obtain ⟨queued, current, same, own, start⟩ := delivers
    cases cancelling.symm.trans same
    refine ⟨queued, ?_, ?_⟩
    · rw [own]
      exact applyCancel_records platform
    · rintro later (impossible | executing)
      · cases impossible
      · cases executing
        exact blocked _ start
  | consumed =>
    obtain ⟨queued, record, start⟩ := delivers
    refine ⟨queued, applyCancel_keeps_record platform turn.cancel record, ?_⟩
    rintro later (impossible | executing)
    · cases impossible
    · cases executing
      exact blocked _ (start turn (.inl cancelling))

end

theorem executed_delivers (orderly : s.Orderly) (delivers : Delivers id s stage)
    (executing : s.worker = .executing turn)
    (executes : Executes platform.accepts (ws63Backend platform) turn s.backend s.storage response
      after written) : Delivers id
      { s with backend := after, storage := written, worker := .publishing turn response } stage := by
  cases stage with
  | none => trivial
  | issued =>
    cases command : turn.command with
    | none =>
      cases executes with
      | idle | injected => exact delivers
      | start taken | poll taken => cases command.symm.trans taken
    | some taken =>
      -- while a command is executed nothing is queued
      have running : s.executes = true := by
        rw [WorkerState.executes, executing]
        exact isSome_iff_exists.mpr ⟨taken, command⟩
      have empty := (orderly.executing running).2.1
      exact blocked_of_noStart (empty ▸ noStart_none)
  | taken =>
    obtain ⟨_, current, cancelling, _⟩ := delivers
    cases executing.symm.trans cancelling
  | consumed =>
    obtain ⟨queued, record, start⟩ := delivers
    refine ⟨queued, executes_keeps_record executes record (start turn (.inr executing)), ?_⟩
    rintro later (impossible | impossible) <;> cases impossible

theorem delivers_step (orderly : s.Orderly) (delivers : Delivers id s stage)
    (step : (ws63Worker platform).step s label t) (timely : CancelTimely s label) :
    Delivers id t (stage.next id label) := by
  cases step with
  | start other request woken =>
    rcases submit_cases s.mailbox (.start other request) with refused | ⟨accepted, _⟩
    · rw [refused]
      exact delivers.frame rfl rfl (.inl rfl)
    rw [accepted]
    by_cases own : other = id
    · have next : stage.next id (.start other request true (submitResult true woken)) = .none :=
        if_pos ⟨rfl, own⟩
      rw [next]
      trivial
    · have next : stage.next id (.start other request true (submitResult true woken)) = stage :=
        if_neg fun both => own both.2
      rw [next]
      refine delivers.frame rfl rfl (.inr ?_)
      intro later same
      cases same
      exact own rfl
  | cancel other woken =>
    by_cases issues : stage = .none ∧ other = id
    · obtain ⟨rfl, rfl⟩ := issues
      have next : Delivery.none.next other (.cancel other (wakeResult woken)) = .issued :=
        if_pos ⟨rfl, rfl⟩
      rw [next]
      exact timely
    · have next : stage.next id (.cancel other (wakeResult woken)) = stage := if_neg issues
      rw [next]
      exact delivers.frame rfl rfl (.inl rfl)
  | arm =>
    refine delivers.frame rfl rfl (.inl ?_)
    unfold WorkerMailbox.armStaleCompletionInjection
    split <;> rfl
  | @take args =>
    exact delivers.frame rfl rfl (.inl (takeResponse_frame s.mailbox args.id args.room).2.1)
  | poll | endCopy => exact delivers.frame rfl rfl (.inl rfl)
  | @submitPoll args =>
    rcases submit_cases s.mailbox (.poll args.id args.reason args.budget) with
      refused | ⟨accepted, _⟩
    · rw [refused]
      exact delivers.frame rfl rfl (.inl rfl)
    · rw [accepted]
      refine delivers.frame rfl rfl (.inr ?_)
      intro request same
      cases same
  | turn waiting => exact turn_delivers delivers waiting
  | cancelled cancelling => exact cancelled_delivers delivers cancelling
  | executed executing executes => exact executed_delivers orderly delivers executing executes
  | publish publishing =>
    cases stage with
    | none => trivial
    | issued => exact delivers
    | taken =>
      obtain ⟨_, current, cancelling, _⟩ := delivers
      cases publishing.symm.trans cancelling
    | consumed =>
      obtain ⟨queued, record, _⟩ := delivers
      refine ⟨queued, record, ?_⟩
      rintro later (impossible | impossible) <;> cases impossible

theorem delivers_of_run (id : OperationId) {labels : List WorkerLabel}
    (run : Run (timelyWorker platform) (.initial none) labels s) :
    s.Orderly ∧ Delivers id s (delivery id labels) := by
  induction run with
  | start => exact ⟨initial_orderly none, trivial⟩
  | next before step ih =>
    obtain ⟨orderly, delivers⟩ := ih
    obtain ⟨taken, timely⟩ := step
    refine ⟨WorkerStep.keeps_orderly orderly taken, ?_⟩
    rw [delivery, List.foldl_append]
    exact delivers_step orderly delivers taken timely

/-- A timely cancel that the worker has consumed is on record: the backend never holds its
operation as uncancelled. -/
theorem timely_cancel_recorded {platform : Platform} {id : OperationId}
    {labels : List WorkerLabel} {s : Ws63State}
    (run : Run (timelyWorker platform) (.initial none) labels s)
    (consumed : delivery id labels = .consumed) :
    ∀ op, s.backend = some op → op.id = id → op.cancellationRequested = true := by
  have delivers := (delivers_of_run id run).2
  rw [consumed] at delivers
  exact delivers.2.1

/-- One turn takes a start with its cancel: the cancel is consumed, and the backend holds the
operation without it. -/
theorem cancel_overtakes_queued_start : ∃ turns s op, Run (ws63Worker anyReport) (.initial none)
        (.start ⟨1⟩ scanRequest true (.ok ()) :: .cancel ⟨1⟩ (.ok ()) :: turns) s ∧
      (∀ args response returned, .take args response returned ∉ turns) ∧
      delivery ⟨1⟩ (.start ⟨1⟩ scanRequest true (.ok ()) :: .cancel ⟨1⟩ (.ok ()) :: turns) =
        .consumed ∧ s.mailbox.cancellation = none ∧ s.backend = some op ∧ op.id = ⟨1⟩ ∧
      op.cancellationRequested = false :=
  ⟨_, cancelledStartState, queuedScan, cancelledStart_runs, by simp, by decide, rfl, rfl, rfl, rfl⟩

/-! The cancel that comes after the start was taken. -/

def startTurn : WorkerTurn := ⟨none, some (.start ⟨1⟩ scanRequest), none, none⟩

def startedMailbox : WorkerMailbox :=
  { WorkerMailbox.new with
    response := some startedResponse
    active := some ⟨1⟩
    deadlineUs := some 1000000 }

def cancelTurn : WorkerTurn := ⟨some ⟨1⟩, none, some ⟨1⟩, none⟩

def timelyCancel : List WorkerLabel :=
  [.start ⟨1⟩ scanRequest true (.ok ()), .turn startTurn, .cancelled none,
    .executed (some (.start ⟨1⟩ scanRequest)) (some startedResponse),
    .publish (some startedResponse), .cancel ⟨1⟩ (.ok ()), .turn cancelTurn,
    .cancelled (some ⟨1⟩)]

def cancelledScan : ActiveOperation := { queuedScan with cancellationRequested := true }

def timelyCancelState : Ws63State :=
  ⟨{ startedMailbox with workerBusy := true }, some cancelledScan, emptyStorage, .idle,
    .executing cancelTurn⟩

theorem timelyCancel_runs :
    Run (timelyWorker anyReport) (.initial none) timelyCancel timelyCancelState := by
  have start : (timelyWorker anyReport).step (.initial none) (.start ⟨1⟩ scanRequest true (.ok ())) _ :=
    ⟨WorkerStep.start ⟨1⟩ scanRequest true rfl, trivial⟩
  have turn := (Run.start.next start).next ⟨WorkerStep.turn rfl, trivial⟩
  have empty := turn.next ⟨WorkerStep.cancelled rfl, trivial⟩
  have executed := empty.next ⟨WorkerStep.executed rfl (.start rfl queuedScan_starts), trivial⟩
  have publish := executed.next ⟨WorkerStep.publish rfl, trivial⟩
  have cancel := publish.next ⟨WorkerStep.cancel ⟨1⟩ true rfl, nofun⟩
  have take := cancel.next ⟨WorkerStep.turn rfl, trivial⟩
  have cancelled := take.next ⟨WorkerStep.cancelled rfl, trivial⟩
  exact cancelled

theorem cancel_after_start_recorded :
    timelyCancelState.backend = some cancelledScan ∧ cancelledScan.cancellationRequested = true :=
  ⟨rfl, timely_cancel_recorded timelyCancel_runs (by decide) cancelledScan rfl rfl⟩

end HisiRf
