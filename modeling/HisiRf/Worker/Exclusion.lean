import HisiRf.Worker.Protocol
import Mathlib.Data.List.Count

/-! The mailbox holds one command at a time, from acceptance to the end of its response.

`workerBusy` is written by both sides for several reasons. What carries the
protocol is weaker than "busy means executing": a command that is executed
leaves the rest of the mailbox empty, with the busy flag set, while no result is
copied. From that one invariant follow the exclusion, the pairing of commands
and responses and the safety of the out-of-lock copy.
-/

namespace HisiRf

open Interaction WorkerMailbox WorkerPhase Option Bool

def RunnerPhase.copies : RunnerPhase → Bool
  | .copying _ _ _ => true
  | _ => false

def WorkerPhase.turn? : WorkerPhase → Option WorkerTurn
  | .waiting => none
  | .cancelling turn | .executing turn | .publishing turn _ => some turn

/-- The command that a turn has taken and not yet answered. -/
def WorkerPhase.command? (phase : WorkerPhase) : Option WorkerCommand :=
  phase.turn?.bind WorkerTurn.command

namespace WorkerState

variable {B : Type} (s : WorkerState B)

def executes : Bool := s.worker.command?.isSome

/-- At most one of a queued command, a command being executed and an unread response. -/
def Exclusive : Prop :=
  s.mailbox.command.isSome.toNat + s.executes.toNat + s.mailbox.response.isSome.toNat ≤ 1

def ScanHeld : Prop :=
  (∃ response, s.mailbox.response = some response ∧ response.scanCount.isSome = true) ∨
    s.runner.copies = true

structure Orderly : Prop where
  executing : s.executes = true → s.mailbox.workerBusy = true ∧ s.mailbox.command = none ∧
    s.mailbox.response = none ∧ s.runner.copies = false
  queued : s.mailbox.command.isSome = true → s.mailbox.response = none ∧ s.runner.copies = false
  unread : s.mailbox.response.isSome = true → s.runner.copies = false
  answered : ∀ turn response, s.worker = .publishing turn response →
    response.isSome = turn.command.isSome
  active : ∀ turn, s.worker.turn? = some turn → turn.previousActive = s.mailbox.active

end WorkerState

open WorkerState (executes)

variable {mailbox : WorkerMailbox} {command : WorkerCommand}

/-- A command is accepted only by an empty mailbox of an idle worker. -/
theorem submit_cases (mailbox : WorkerMailbox) (command : WorkerCommand) :
    mailbox.submit command = (false, mailbox) ∨
      mailbox.submit command = (true, { mailbox with command := some command }) ∧
        mailbox.command = none ∧ mailbox.workerBusy = false ∧ mailbox.response = none := by
  grind [submit, isSome_eq_false_iff, isNone_iff_eq_none]

theorem submit_frame (mailbox : WorkerMailbox) (command : WorkerCommand) :
    (mailbox.submit command).2.response = mailbox.response ∧
      (mailbox.submit command).2.active = mailbox.active := by
  rcases submit_cases mailbox command with refused | ⟨accepted, _⟩ <;> grind

/-- Taking a response empties it and changes nothing else but the busy flag and the count. -/
theorem takeResponse_frame (mailbox : WorkerMailbox) (id : OperationId) (room : Nat) :
    (mailbox.takeResponse id room).2.response = none ∧
      (mailbox.takeResponse id room).2.command = mailbox.command ∧
      (mailbox.takeResponse id room).2.active = mailbox.active ∧
      (mailbox.workerBusy = true → (mailbox.takeResponse id room).2.workerBusy = true) := by
  unfold takeResponse
  split
  · exact ⟨rfl, rfl, rfl, fun busy => busy⟩
  · split
    · exact ⟨rfl, rfl, rfl, fun busy => busy⟩
    · split
      · exact ⟨rfl, rfl, rfl, fun _ => rfl⟩
      · exact ⟨rfl, rfl, rfl, fun busy => busy⟩

theorem copies_of_afterTake {args : PollArgs} {response : Option WorkerResponse}
    {copy : Option Nat} (copies : (afterTake args response copy).1.copies = true) :
    response.isSome = true := by
  cases response with
  | none => cases copies
  | some => rfl

def WorkerLabel.accepts : WorkerLabel → Bool
  | .start _ _ accepted _ | .submitPoll _ accepted _ => accepted
  | _ => false

def WorkerLabel.responds : WorkerLabel → Bool
  | .publish response => response.isSome
  | _ => false

def WorkerState.pending {B : Type} (s : WorkerState B) : Bool :=
  s.mailbox.command.isSome || s.executes

open WorkerState (pending)

variable {B : Type} {label : WorkerLabel}

variable {accepts : ReportRule} {model : WorkerBackend B} {s t : WorkerState B}

namespace WorkerState.Orderly

section

variable (orderly : s.Orderly)
include orderly

variable {runner : RunnerPhase}

theorem apart (apart : runner.copies = false) :
    ({ s with runner := runner } : WorkerState B).Orderly := by
  refine ⟨?_, ?_, fun _ => apart, orderly.answered, orderly.active⟩
  · intro running
    obtain ⟨busy, none, silent, _⟩ := orderly.executing running
    exact ⟨busy, none, silent, apart⟩
  · intro queued
    exact ⟨(orderly.queued queued).1, apart⟩

/-- An executing worker is busy. -/
theorem resting (free : s.mailbox.workerBusy = false) : s.executes = false := by
  by_contra running
  have busy := (orderly.executing (not_eq_false _ ▸ running)).1
  rw [free] at busy
  cases busy

theorem submit (command : WorkerCommand) (apart : runner.copies = false) :
    ({ s with mailbox := (s.mailbox.submit command).2, runner := runner } :
      WorkerState B).Orderly := by
  rcases submit_cases s.mailbox command with refused | ⟨accepted, empty, free, unread⟩
  · rw [refused]
    exact orderly.apart apart
  · rw [accepted]
    refine ⟨?_, fun _ => ⟨unread, apart⟩, fun _ => apart, orderly.answered, orderly.active⟩
    intro executes
    cases executes.symm.trans (orderly.resting free)

theorem frame (command : mailbox.command = s.mailbox.command)
    (response : mailbox.response = s.mailbox.response) (active : mailbox.active = s.mailbox.active)
    (busy : mailbox.workerBusy = s.mailbox.workerBusy) :
    ({ s with mailbox := mailbox } : WorkerState B).Orderly := by
  refine ⟨?_, ?_, ?_, orderly.answered, ?_⟩
  · intro executes
    rw [busy, command, response]
    exact orderly.executing executes
  · intro queued
    rw [response]
    exact orderly.queued (command ▸ queued)
  · intro unread
    exact orderly.unread (response ▸ unread)
  · intro turn found
    rw [active]
    exact orderly.active turn found

theorem take (args : PollArgs) :
    ({ s with
      mailbox := (s.mailbox.takeResponse args.id args.room).2
      runner := (afterTake args s.mailbox.response
        (s.mailbox.takeResponse args.id args.room).1.2).1 } : WorkerState B).Orderly := by
  obtain ⟨emptied, command, active, busy⟩ := takeResponse_frame s.mailbox args.id args.room
  -- a copy starts from an unread response only
  have apart : s.mailbox.response = none →
      (afterTake args s.mailbox.response
        (s.mailbox.takeResponse args.id args.room).1.2).1.copies = false := by
    intro read
    by_contra copies
    have unread := copies_of_afterTake (not_eq_false _ ▸ copies)
    rw [read] at unread
    cases unread
  refine ⟨?_, ?_, ?_, orderly.answered, ?_⟩
  · intro executes
    obtain ⟨busyBefore, none, silent, _⟩ := orderly.executing executes
    exact ⟨busy busyBefore, command.trans none, emptied, apart silent⟩
  · intro queued
    rw [command] at queued
    exact ⟨emptied, apart (orderly.queued queued).1⟩
  · grind
  · intro turn found
    rw [active]
    exact orderly.active turn found

theorem endCopy (copying : s.runner.copies = true) :
    ({ s with mailbox := s.mailbox.endCopy, runner := .idle } : WorkerState B).Orderly := by
  refine ⟨?_, ?_, fun _ => rfl, orderly.answered, orderly.active⟩
  · intro executes
    -- no command is executed while the runner copies, so the flag may be cleared
    have apart := (orderly.executing executes).2.2.2
    rw [copying] at apart
    cases apart
  · intro queued
    exact ⟨(orderly.queued queued).1, rfl⟩

theorem turn :
    ({ s with mailbox := s.mailbox.take.2, worker := .cancelling s.mailbox.take.1 } :
      WorkerState B).Orderly := by
  refine ⟨?_, ?_, orderly.unread, ?_, ?_⟩
  · intro executes
    have queued : s.mailbox.command.isSome = true := executes
    obtain ⟨silent, apart⟩ := orderly.queued queued
    refine ⟨?_, rfl, silent, apart⟩
    show (s.mailbox.cancellation.isSome || s.mailbox.command.isSome) = true
    rw [queued, Bool.or_true]
  · intro queued
    cases queued
  · intro turn response impossible
    cases impossible
  · intro turn found
    cases found
    rfl

variable {turn : WorkerTurn}

theorem advance (current : s.worker.turn? = some turn) {phase : WorkerPhase}
    (same : phase.turn? = some turn) (backend : B) (storage : List ScanResult)
    (answered : ∀ other response, phase = .publishing other response →
      response.isSome = other.command.isSome) :
    ({ s with backend := backend, storage := storage, worker := phase } : WorkerState B).Orderly := by
  have unchanged : phase.command? = s.worker.command? := by
    simp only [command?, same, current]
  refine ⟨?_, orderly.queued, orderly.unread, answered, ?_⟩
  · intro running
    apply orderly.executing
    unfold executes at running ⊢
    rwa [unchanged] at running
  · intro other found
    rw [same] at found
    exact some.inj found ▸ orderly.active turn current

theorem publish {response : Option WorkerResponse}
    (publishing : s.worker = .publishing turn response) (deadline : Option UInt64) :
    ({ s with mailbox := s.mailbox.publish turn response deadline, worker := .waiting } :
      WorkerState B).Orderly := by
  have answered := orderly.answered turn response publishing
  have executing : response.isSome = true → s.executes = true := by
    intro some
    rw [answered] at some
    simpa [executes, publishing, command?, turn?] using some
  have unread : (s.mailbox.publish turn response deadline).response.isSome = true →
      s.runner.copies = false := by
    intro kept
    cases response with
    | some => exact (orderly.executing (executing rfl)).2.2.2
    | none => exact orderly.unread kept
  refine ⟨?_, ?_, unread, ?_, ?_⟩
  · intro executes
    cases executes
  · intro queued
    refine ⟨?_, (orderly.queued queued).2⟩
    cases response with
    | some =>
      have empty := (orderly.executing (executing rfl)).2.1
      have kept : s.mailbox.command.isSome = true := queued
      rw [empty] at kept
      cases kept
    | none => exact (orderly.queued queued).1
  · grind
  · intro turn impossible
    cases impossible

end

end WorkerState.Orderly

theorem Executes.answers {turn : WorkerTurn} {backend after : B} {storage written : List ScanResult}
    {response : Option WorkerResponse}
    (executes : Executes accepts model turn backend storage response after written) :
    response.isSome = turn.command.isSome := by
  cases executes with
  | idle empty => rw [empty]; rfl
  | start command | injected command | poll command => rw [command]; rfl

/-- A waiting worker has left the deadline of the active operation in the mailbox. -/
def Timely (model : WorkerBackend B) (s : WorkerState B) : Prop :=
  s.worker = .waiting → s.mailbox.deadlineUs = s.mailbox.active.bind (model.nextDeadlineUs s.backend)

theorem WorkerStep.keeps_timely (timely : Timely model s) (step : WorkerStep accepts model s label t) :
    Timely model t := by
  cases step with
  | start | submitPoll => grind [Timely, submit]
  | arm => grind [Timely, armStaleCompletionInjection]
  | take => grind [Timely, takeResponse]
  | turn | cancelled | executed =>
    intro waiting
    cases waiting
  | publish => exact fun _ => rfl
  | _ => exact timely

theorem initial_orderly (backend : B) : (WorkerState.initial backend).Orderly := by
  refine ⟨?_, ?_, ?_, ?_, ?_⟩
  · intro running
    cases running
  · intro queued
    cases queued
  · intro unread
    cases unread
  · intro turn response impossible
    cases impossible
  · intro turn impossible
    cases impossible

/-- The runner dropped a response of another operation. -/
def WorkerLabel.drops : WorkerLabel → Bool
  | .take args (some response) _ => response.id ≠ args.id
  | _ => false

def WorkerLabel.endsCopy : WorkerLabel → Bool
  | .endCopy _ _ _ => true
  | _ => false

structure StepSafe (s : WorkerState B) (label : WorkerLabel) (t : WorkerState B) : Prop where
  /-- Nothing is published over an unread response. -/
  publishes : ∀ response, label = .publish (some response) → s.mailbox.response = none
  /-- A response of another operation returns nothing, and the poll goes on. -/
  foreign : ∀ args response returned, label = .take args (some response) returned →
    response.id ≠ args.id → returned = none ∧ t.runner = .polling args
  /-- The active identity changes only by a response with that identity. -/
  identity : ∀ active, s.mailbox.active = some active → t.mailbox.active = some active ∨
    ∃ response, label = .publish (some response) ∧ response.id = active
  /-- A published scan completion is held until it is copied or dropped. -/
  completes : ∀ response, label = .publish (some response) → response.scanCount.isSome = true →
    t.ScanHeld
  held : s.ScanHeld → t.ScanHeld ∨ label.endsCopy = true ∨ label.drops = true
  /-- While it is held, the storage does not change. -/
  storage : s.ScanHeld → t.storage = s.storage

/-- A step that keeps the response and the storage, and the runner off any copy. -/
theorem held_of_frame (held : s.ScanHeld) (response : t.mailbox.response = s.mailbox.response)
    (runner : s.runner.copies = true → t.runner.copies = true) : t.ScanHeld := by
  rcases held with ⟨scan, unread, counted⟩ | copies
  · exact .inl ⟨scan, response.trans unread, counted⟩
  · exact .inr (runner copies)

theorem stepSafe_of_frame (quiet : ∀ response, label ≠ .publish response)
    (untaken : ∀ args response returned, label ≠ .take args response returned)
    (active : t.mailbox.active = s.mailbox.active)
    (held : s.ScanHeld → t.ScanHeld ∨ label.endsCopy = true)
    (storage : s.ScanHeld → t.storage = s.storage) : StepSafe s label t := by
  refine ⟨?_, ?_, ?_, ?_, ?_, storage⟩ <;> grind

variable {args : PollArgs} {response : WorkerResponse}

theorem afterTake_foreign {copy : Option Nat} (foreign : response.id ≠ args.id) :
    afterTake args (some response) copy = (.polling args, none) := by
  cases response with
  | started | polled => exact if_neg foreign

theorem copies_of_scan (unread : mailbox.response = some response) (own : response.id = args.id)
    (scan : response.scanCount.isSome = true) :
    (afterTake args mailbox.response (mailbox.takeResponse args.id args.room).1.2).1.copies =
      true := by
  obtain ⟨count, counted⟩ := isSome_iff_exists.mp scan
  have copy : (mailbox.takeResponse args.id args.room).1.2 =
      some (min (min count args.room) scanCapacity) := by
    simp [takeResponse, unread, own, counted]
  rw [copy, unread]
  cases response with
  | started => cases counted
  | polled id =>
    have same : id = args.id := own
    simp [afterTake, same, RunnerPhase.copies]

theorem nextActive_identity (active : OperationId) (response : Option WorkerResponse) :
    nextActive (some active) response = some active ∨
      ∃ answer, response = some answer ∧ answer.id = active := by
  cases response with
  | none => exact .inl rfl
  | some answer =>
    by_cases same : answer.id = active
    · grind
    · left
      have differs : (some active).any (fun active => active ≠ answer.id) = true := by
        simp [Ne.symm same]
      simp only [nextActive]
      rw [if_pos differs]

theorem take_safe (polling : s.runner = .polling args) :
    StepSafe s
      (.take args s.mailbox.response
        (afterTake args s.mailbox.response (s.mailbox.takeResponse args.id args.room).1.2).2)
      { s with
        mailbox := (s.mailbox.takeResponse args.id args.room).2
        runner := (afterTake args s.mailbox.response
          (s.mailbox.takeResponse args.id args.room).1.2).1 } := by
  obtain ⟨emptied, _, active, _⟩ := takeResponse_frame s.mailbox args.id args.room
  refine ⟨?_, ?_, ?_, ?_, ?_, fun _ => rfl⟩
  · grind
  · grind [afterTake_foreign]
  · grind
  · grind
  rintro (⟨response, unread, scan⟩ | copies)
  · by_cases own : response.id = args.id
    · exact .inl (.inr (copies_of_scan unread own scan))
    · right
      right
      simp [WorkerLabel.drops, unread, own]
  · rw [polling] at copies
    cases copies

section

variable (orderly : s.Orderly)
include orderly

theorem submit_pending (command : WorkerCommand) (runner : RunnerPhase) :
    ({ s with mailbox := (s.mailbox.submit command).2, runner := runner } :
        WorkerState B).pending.toNat =
      s.pending.toNat + (s.mailbox.submit command).1.toNat ∧
    ((s.mailbox.submit command).1 = true → s.pending = false) := by
  rcases submit_cases s.mailbox command with refused | ⟨accepted, empty, free, unread⟩
  · rw [refused]
    exact ⟨rfl, nofun⟩
  have none : s.pending = false := by
    unfold pending
    rw [empty, orderly.resting free]
    rfl
  rw [accepted, none]
  exact ⟨rfl, fun _ => rfl⟩

theorem not_executes_of_held (held : s.ScanHeld) : s.executes = false := by
  by_contra running
  obtain ⟨_, _, silent, apart⟩ := orderly.executing (not_eq_false _ ▸ running)
  rcases held with ⟨response, unread, _⟩ | copies <;> grind

theorem publish_safe {turn : WorkerTurn} {response : Option WorkerResponse}
    (publishing : s.worker = .publishing turn response) (deadline : Option UInt64) :
    StepSafe s (.publish response)
      { s with mailbox := s.mailbox.publish turn response deadline, worker := .waiting } := by
  have executes : s.executes = response.isSome := by
    rw [orderly.answered turn response publishing, executes, publishing]
    rfl
  have previous : turn.previousActive = s.mailbox.active :=
    orderly.active turn (by rw [publishing]; rfl)
  refine ⟨?_, ?_, ?_, ?_, ?_, fun _ => rfl⟩
  · intro answer same
    cases same
    exact (orderly.executing executes).2.2.1
  · grind
  · intro active found
    rw [found] at previous
    rcases nextActive_identity active response with kept | ⟨answer, rfl, own⟩
    · left
      show nextActive turn.previousActive response = some active
      rw [previous]
      exact kept
    · grind
  · intro answer same scan
    cases same
    exact .inl ⟨answer, rfl, scan⟩
  · intro held
    have resting := not_executes_of_held orderly held
    rw [executes] at resting
    cases response with
    | none => exact .inl (held_of_frame held rfl fun copies => copies)
    | some => cases resting

variable (step : WorkerStep accepts model s label t)
include step

theorem WorkerStep.keeps_orderly : t.Orderly := by
  cases step with
  | start id request woken idle => exact orderly.submit _ (by rw [idle]; rfl)
  | cancel => exact orderly.frame rfl rfl rfl rfl
  | arm =>
    unfold armStaleCompletionInjection
    split <;> exact orderly.frame rfl rfl rfl rfl
  | poll => exact orderly.apart rfl
  | take => exact orderly.take _
  | endCopy copying => exact orderly.endCopy (by rw [copying]; rfl)
  | submitPoll => exact orderly.submit _ rfl
  | turn => exact orderly.turn
  | @cancelled turn cancelling =>
    have current : s.worker.turn? = some turn := by rw [cancelling]; rfl
    have same : (executing turn).turn? = some turn := rfl
    refine orderly.advance current same _ s.storage ?_
    intro other response impossible
    cases impossible
  | @executed turn response after written executing executes =>
    have current : s.worker.turn? = some turn := by rw [executing]; rfl
    have same : (publishing turn response).turn? = some turn := rfl
    refine orderly.advance current same after written ?_
    intro other answer published
    cases published
    exact executes.answers
  | publish publishing => exact orderly.publish publishing _

/-- A step accepts a command, answers the pending one, or leaves it pending. -/
theorem WorkerStep.pending :
    t.pending.toNat + label.responds.toNat = s.pending.toNat + label.accepts.toNat ∧
      (label.accepts = true → s.pending = false) := by
  cases step with
  | start id request => exact submit_pending orderly (.start id request) s.runner
  | submitPoll => exact submit_pending orderly _ .idle
  | arm =>
    unfold armStaleCompletionInjection
    split <;> exact ⟨rfl, nofun⟩
  | @take args =>
    have command := (takeResponse_frame s.mailbox args.id args.room).2.1
    refine ⟨?_, nofun⟩
    simp only [pending, executes, command]
    rfl
  | turn waiting =>
    refine ⟨?_, nofun⟩
    simp only [pending, executes, waiting]
    exact congrArg toNat (or_comm ..)
  | cancelled phase | executed phase =>
    refine ⟨?_, nofun⟩
    simp only [pending, executes, phase]
    rfl
  | @publish turn response publishing =>
    refine ⟨?_, nofun⟩
    have executes : s.executes = response.isSome := by
      rw [orderly.answered turn response publishing, executes, publishing]
      rfl
    cases response with
    | none =>
      simp only [pending, executes]
      rfl
    | some =>
      have empty := (orderly.executing executes).2.1
      simp only [pending, executes, empty, WorkerMailbox.publish]
      rfl
  | _ => exact ⟨rfl, nofun⟩

theorem WorkerStep.safe : StepSafe s label t := by
  cases step with
  | start id request =>
    obtain ⟨response, active⟩ := submit_frame s.mailbox (.start id request)
    exact stepSafe_of_frame (by simp) (by simp) active
      (fun held => .inl (held_of_frame held response fun copies => copies)) fun _ => rfl
  | arm =>
    have kept : s.mailbox.armStaleCompletionInjection.2.response = s.mailbox.response ∧
        s.mailbox.armStaleCompletionInjection.2.active = s.mailbox.active := by
      unfold armStaleCompletionInjection
      split <;> exact ⟨rfl, rfl⟩
    exact stepSafe_of_frame (by simp) (by simp) kept.2
      (fun held => .inl (held_of_frame held kept.1 fun copies => copies)) fun _ => rfl
  | poll args idle =>
    refine stepSafe_of_frame (by simp) (by simp) rfl ?_ fun _ => rfl
    intro held
    refine .inl (held_of_frame held rfl ?_)
    intro copies
    rw [idle] at copies
    cases copies
  | take polling => exact take_safe polling
  | endCopy =>
    exact stepSafe_of_frame (by simp) (by simp) rfl (fun _ => .inr rfl) fun _ => rfl
  | @submitPoll args woken submitting =>
    obtain ⟨response, active⟩ :=
      submit_frame s.mailbox (.poll args.id args.reason args.budget)
    refine stepSafe_of_frame (by simp) (by simp) active ?_ fun _ => rfl
    intro held
    refine .inl (held_of_frame held response ?_)
    intro copies
    rw [submitting] at copies
    cases copies
  | executed executing executes =>
    refine stepSafe_of_frame (by simp) (by simp) rfl
      (fun held => .inl (held_of_frame held rfl fun copies => copies)) ?_
    intro held
    -- only a turn without a command can be under way
    have resting := not_executes_of_held orderly held
    rw [WorkerState.executes, executing] at resting
    cases executes with
    | idle | injected => rfl
    | start command | poll command =>
      rw [command?, turn?, bind_some, command] at resting
      cases resting
  | publish publishing => exact publish_safe orderly publishing _
  | _ =>
    exact stepSafe_of_frame (by simp) (by simp) rfl
      (fun held => .inl (held_of_frame held rfl fun copies => copies)) fun _ => rfl

end

section

variable {backend : B} {labels : List WorkerLabel}
  (run : Run (workerSystem accepts model) (.initial backend) labels s)
include run

theorem runner_reads_current_deadline (waiting : s.worker = .waiting) (id : OperationId) :
    s.mailbox.deadline id =
      if s.mailbox.active = some id then model.nextDeadlineUs s.backend id else none := by
  have keeps : ∀ u label v, Timely model u → (workerSystem accepts model).step u label v →
      Timely model v := fun _ _ _ timely step => WorkerStep.keeps_timely timely step
  have timely := run.invariant keeps fun _ => rfl
  unfold deadline
  split
  next found => rw [timely waiting, found, bind_some]
  next => rfl

end

def scanRequest : IncrementalRequest := .scan ⟨1000⟩

theorem queuedScan_starts :
    (ws63Backend anyReport).start none ⟨1⟩ scanRequest (.ok ()) (some queuedScan) := by
  have run : Program.Runs ((startRequest ⟨1⟩ scanRequest).program ⟨none, []⟩)
      [⟨(.nowUs, ⟨none, []⟩), (0 : UInt64)⟩] (.ok (), ⟨some queuedScan, []⟩) :=
    Program.answer_runs (I := portSignature.observed PollState)
      (fun call => SteadyPort.reply {} call.1) ((startRequest ⟨1⟩ scanRequest).program ⟨none, []⟩)
  exact ⟨_, _, run, rfl⟩

/-- The mailbox with a queued start and a cancel for it. -/
def cancelledMailbox : WorkerMailbox :=
  { new with
    command := some (.start ⟨1⟩ scanRequest)
    cancellation := some ⟨1⟩ }

def cancelledTurn : WorkerTurn := cancelledMailbox.take.1

def startedResponse : WorkerResponse := .started ⟨1⟩ (.ok ())

def cancelledStart : List WorkerLabel :=
  [.start ⟨1⟩ scanRequest true (.ok ()), .cancel ⟨1⟩ (.ok ()), .turn cancelledTurn,
    .cancelled (some ⟨1⟩), .executed (some (.start ⟨1⟩ scanRequest)) (some startedResponse),
    .publish (some startedResponse)]

def emptyStorage : List ScanResult := List.replicate scanCapacity .empty

def cancelledStartState : WorkerState (Option ActiveOperation) :=
  ⟨cancelledMailbox.take.2.publish cancelledTurn (some startedResponse) (some 1000000),
    some queuedScan, emptyStorage, .idle, .waiting⟩

theorem cancelledStart_runs :
    Run (ws63Worker anyReport) (.initial none) cancelledStart cancelledStartState := by
  have start : (ws63Worker anyReport).step (.initial none) (.start ⟨1⟩ scanRequest true (.ok ())) _ :=
    WorkerStep.start ⟨1⟩ scanRequest true rfl
  have cancel := (Run.start.next start).next (WorkerStep.cancel ⟨1⟩ true rfl)
  have turn := cancel.next (WorkerStep.turn rfl)
  have cancelled := turn.next (WorkerStep.cancelled rfl)
  have executed := cancelled.next (WorkerStep.executed rfl (.start rfl queuedScan_starts))
  exact executed.next (WorkerStep.publish rfl)

theorem cancelledStart_deadline : cancelledStartState.worker = .waiting ∧
    cancelledStartState.mailbox.deadline ⟨1⟩ = some 1000000 :=
  ⟨rfl, runner_reads_current_deadline cancelledStart_runs rfl ⟨1⟩⟩

end HisiRf
