import HisiRf.Backend.Moves

/-! Every poll of an active operation is a sequence of moves and ends as listed.

One specification for each stretch of `poll`, composed in the order of the
source. All of them are over arbitrary replies.
-/

namespace HisiRf

open Interaction OperationKind ActiveOperation List Bool
open Routine (ensures_bind ensures_read ensures_pure)
open ActiveOperation (submitted_same submitting_same submitting_of_ready observed_same
  recovering_same takeReconnectWhenSettled_same submission)

abbrev Post (A : Type) := A → PollState → List PortCall → Prop

variable {A : Type} {out : Post PollReturn} {s : PollState} {past : List PortCall}

variable {B : Type} {next : Post A}

theorem ensures_call (op : PortOp) {next : Post op.Reply}
    (answered : ∀ reply : op.Reply, next reply s (past ++ [⟨(op, s), reply⟩])) :
    (Port.request op).Ensures next out s past := answered

theorem ensures_ask {op : PortOp} {k : op.Reply → Step A}
    (answered : ∀ reply, (k reply).Ensures next out s (past ++ [⟨(op, s), reply⟩])) :
    (Port.request op >>= k).Ensures next out s past := ensures_bind.mpr answered

variable {op : ActiveOperation}

theorem ensures_put {k : Unit → Step A}
    (rest : (k ()).Ensures next out { s with active := some op } past) :
    (putActive op >>= k).Ensures next out s past := ensures_bind.mpr rest

theorem ensures_activeMut {id : OperationId} {next : Post ActiveOperation}
    (active : s.active = some op) (same : op.id = id) (holds : next op s past) :
    (activeMut id).Ensures next out s past := by
  simp only [activeMut, ensures_bind, ensures_read, active, if_pos same]
  exact holds

theorem ensures_putActive (op : ActiveOperation) {next : Post Unit} :
    (putActive op).Ensures next out s past ↔ next () { s with active := some op } past := Iff.rfl

theorem ensures_clearActive {next : Post Unit} :
    clearActive.Ensures next out s past ↔ next () { s with active := none } past := Iff.rfl

theorem ensures_leave {last : Step PollReturn} :
    (leave last : Step A).Ensures next out s past ↔ last.Ensures out out s past := by
  simp only [leave, ensures_bind, Routine.ensures_exit]

variable {first : ActiveOperation}

variable {error : BackendError} {talk : List PortCall}

theorem TimeoutCause.of_class (other : error.errorClass ≠ .operationTimeout) :
    TimeoutCause first error talk := fun timeout => absurd timeout other

theorem TimeoutCause.of_request
    (other : first.kind ≠ .scan ∨ first.startPhase = .finishDisconnect) :
    TimeoutCause first error talk := fun _ => .inr (.inl other)

theorem TimeoutCause.of_reply {op : PortOp} {reply : op.Reply} {seen : PollState}
    (refusal : op.error? reply = some error) :
    TimeoutCause first error (talk ++ [⟨(op, seen), reply⟩]) := by
  intro _
  refine .inl ⟨⟨(op, seen), reply⟩, ?_, refusal⟩
  exact mem_append_right _ (mem_singleton.mpr rfl)

theorem TimeoutCause.extend (cause : TimeoutCause first error talk) (more : List PortCall) :
    TimeoutCause first error (talk ++ more) := by
  intro timeout
  rcases cause timeout with ⟨call, member, refusal⟩ | other | ⟨seen, op, active, unseen, claimed⟩
  · exact .inl ⟨call, mem_append_left _ member, refusal⟩
  · exact .inr (.inl other)
  · exact .inr (.inr ⟨seen, op, active, unseen, mem_append_left _ claimed⟩)

/-- The call after `begun` is not a refused submission of the operation. -/
def Accepted (first : ActiveOperation) (begun talk : List PortCall) : Prop :=
  ∀ call, talk[begun.length]? = some call → first.submission = some call.op.1 →
    callError? call = none

structure Reached (first : ActiveOperation) (origin moment : Moment) : Prop where
  moves : Moves origin moment
  accepted : ∀ more, Accepted first origin.talk (moment.talk ++ more)

namespace Reached

variable {origin moment later : Moment}

theorem tail (reached : Reached first origin moment) (move : Move moment later) :
    Reached first origin later := by
  refine ⟨reached.moves.tail move, ?_⟩
  intro more
  obtain ⟨added, extended⟩ := move.extends
  rw [extended, append_assoc]
  exact reached.accepted (added ++ more)

theorem begin (submitted : first.submission = none) : Reached first origin origin := by
  refine ⟨.refl, ?_⟩
  intro _ call _ due
  cases submitted.symm.trans due

theorem submit {call : PortCall} {more : List PortCall} (moves : Moves origin later)
    (told : later.talk = origin.talk ++ call :: more) (fine : callError? call = none) :
    Reached first origin later := by
  refine ⟨moves, ?_⟩
  intro after exchange found _
  rw [told, append_assoc, cons_append, getElem?_append_right (Nat.le_refl _),
    Nat.sub_self, getElem?_cons_zero, Option.some_inj] at found
  exact found ▸ fine

end Reached

structure Left (first : ActiveOperation) (origin : Moment) (result : PollReturn) (s : PollState)
    (talk : List PortCall) : Prop where
  ends : Ends first origin.talk result s talk
  moves : Moves origin ⟨s, talk⟩
  told : Accepted first origin.talk talk ∨ (∃ error, result = .error error) ∧ s.active.isSome = true

variable {result : PollReturn} {platform : Platform} {reason : WakeReason} {budget : WorkBudget}

theorem Reached.left {origin : Moment} (reached : Reached first origin ⟨s, talk⟩)
    (ends : Ends first origin.talk result s talk) : Left first origin result s talk := by
  refine ⟨ends, reached.moves, .inl ?_⟩
  have accepted := reached.accepted []
  rwa [append_nil] at accepted

/-- The poll still owns its operation, whose request was submitted earlier. -/
structure Held (first : ActiveOperation) (origin : Moment) (op : ActiveOperation) (s : PollState)
    (talk : List PortCall) : Prop where
  active : s.active = some op
  same : first.SameRequest op
  ready : op.startPhase = .ready
  moves : Reached first origin ⟨s, talk⟩

variable {origin : Moment}

variable {id : OperationId}

variable {reply : Except BackendError A} {disposition : PollDisposition}

section

variable (moves : Reached first origin ⟨s, past⟩)
include moves

theorem clearWithError_left (cause : TimeoutCause first error past) :
    (clearWithError error).Ensures (Left first origin) out s past := by
  simp only [clearWithError, ensures_bind, ensures_read]
  split
  · simp only [ensures_bind, ensures_clearActive, ensures_pure]
    intro reply
    have asked := moves.tail (.ask .cancelScan reply rfl)
    exact (asked.tail .clear).left (.failed rfl (cause.extend _))
  · exact (moves.tail .clear).left (.failed rfl cause)

variable (cause : ∀ error, reply = .error error → TimeoutCause first error past)
include cause

theorem orClear_left (fine : ∀ value, reply = .ok value → next value s past) :
    (orClear reply).Ensures next (Left first origin) s past := by
  cases reply with
  | ok value => exact fine value rfl
  | error error => exact ensures_leave.mpr (clearWithError_left moves (cause error rfl))

theorem ensures_orClear {next : Post B} {k : A → Step B}
    (fine : ∀ value, reply = .ok value → (k value).Ensures next (Left first origin) s past) :
    (orClear reply >>= k).Ensures next (Left first origin) s past := by
  apply ensures_bind.mpr
  exact orClear_left moves cause fine

end

theorem boundedDisposition_continues (elapsed : Nat) (disposition : PollDisposition) :
    (boundedDisposition budget elapsed disposition).continues = disposition.continues := by
  unfold boundedDisposition
  split
  · cases disposition <;> rfl
  · rfl

theorem boundedDisposition_complete {elapsed : Nat} {completion : IncrementalCompletion}
    (done : boundedDisposition budget elapsed disposition = .complete completion) :
    disposition = .complete completion := by
  unfold boundedDisposition at done
  split at done
  · cases disposition with
    | complete => exact done
    | _ => cases done
  · exact done

/-- The bounded report ends a poll, whether it keeps the operation or has just dropped it. -/
theorem boundedStepReport_left {startedUs : UInt64} {consumed : Nat}
    (moves : Reached first origin ⟨s, past⟩) (named : first.id = id)
    (keeps : disposition.continues = true → ∃ op, s.active = some op ∧ first.SameRequest op)
    (drops : disposition.continues = false → s.active = none)
    (connected : ∀ info, disposition = .complete (.connected info) → first.kind = .connect info ∧
      first.cancellationRequested = false) :
    (boundedStepReport platform id budget startedUs consumed disposition).Ensures
      (Left first origin) out s past := by
  refine ensures_ask fun finishedUs => ?_
  have asked := moves.tail (.ask .nowUs finishedUs rfl)
  have overrun : TimeoutCause first (operationError errorWorkBudget)
      (past ++ [⟨(.nowUs, s), finishedUs⟩]) := .of_class (by decide)
  dsimp only
  split
  · exact clearWithError_left asked overrun
  split
  · rename_i report built
    have fields := WorkReport.tryNew_eq_some built
    apply asked.left
    cases continues : disposition.continues with
    | true =>
      obtain ⟨op, active, same⟩ := keeps continues
      refine .going (by rw [fields, named]) ?_ active same
      rw [fields]
      exact (boundedDisposition_continues _ _).trans continues
    | false =>
      refine .finished (by rw [fields, named]) ?_ (drops continues) ?_
      · rw [fields]
        exact (boundedDisposition_continues _ _).trans continues
      · intro info done
        rw [fields] at done
        exact connected info (boundedDisposition_complete done)
  · exact clearWithError_left asked overrun

/-! Until the operation is known to be submitted, a poll has changed nothing. -/

theorem pollInit_spec (active : s.active = some op) : (pollInit platform op.id budget).Ensures
      (fun _ later talk => later = s ∧ talk = past ∧ op.kind ≠ .init) (Left op ⟨s, past⟩) s past := by
  refine ensures_bind.mpr (ensures_activeMut active rfl ?_)
  split
  · rename_i initial
    refine ensures_bind.mpr (ensures_clearActive.mpr ?_)
    have submitted : op.submission = none := if_pos initial
    have cleared : Reached op ⟨s, past⟩ ⟨{ s with active := none }, past⟩ :=
      (Reached.begin submitted).tail .clear
    split
    · rename_i report built
      have fields := WorkReport.tryNew_eq_some built
      refine cleared.left (.finished (by rw [fields]) ?_ rfl ?_)
      · rw [fields]
        cases op.cancellationRequested <;> rfl
      · intro info done
        rw [fields] at done
        cases requested : op.cancellationRequested <;> rw [requested] at done <;> cases done
    · exact cleared.left (.failed rfl (.of_class (by decide)))
  · rename_i other
    exact ⟨rfl, rfl, other⟩

variable {startedUs : UInt64} {consumed : Nat} {later : ActiveOperation}

theorem cancelled_left (reached : Reached op origin ⟨s, talk⟩) :
    (boundedStepReport platform op.id budget startedUs consumed .cancelled).Ensures
      (Left op origin) (Left op origin) { s with active := none } talk := by
  exact boundedStepReport_left (reached.tail .clear) rfl nofun (fun _ => rfl) nofun

theorem pending_left {wait : WaitSet} (active : s.active = some later) (same : op.SameRequest later)
    (reached : Reached op origin ⟨s, talk⟩) :
    (boundedStepReport platform op.id budget startedUs consumed (.pending wait)).Ensures
      (Left op origin) (Left op origin) s talk := by
  exact boundedStepReport_left reached rfl (fun _ => ⟨later, active, same⟩) nofun nofun

section

variable (active : s.active = some op) (starts : op.kind ≠ .init)
include active starts

theorem submitCancellation_left {next : Post Unit} (requested : op.cancellationRequested = true)
    (ready : op.startPhase = .ready) (unsubmitted : op.cancellationActionSubmitted = false) :
    (submitCancellation platform op.id budget startedUs op.kind).Ensures next
      (Left op ⟨s, past⟩) s past := by
  unfold submitCancellation
  simp only [ensures_bind]
  cases kind : op.kind with
  | init => exact absurd kind starts
  | scan =>
    have nothing : op.submission = none := by
      simp [submission, kind, requested, isConnect]
    intro reply
    refine ensures_activeMut active rfl ?_
    simp only [ensures_putActive, isConnect, false_eq_true, if_false,
      ensures_bind, ensures_clearActive, ensures_leave]
    exact cancelled_left ((Reached.begin nothing).tail (.ask .cancelScan reply rfl))
  | disconnect =>
    have nothing : op.submission = none := by
      simp [submission, kind, requested, isConnect]
    refine ensures_activeMut active rfl ?_
    simp only [ensures_putActive, isConnect, false_eq_true, if_false,
      ensures_bind, ensures_clearActive, ensures_leave]
    exact cancelled_left (.begin nothing)
  | connect =>
    have due : op.submission = some (.disconnect .cancellation) := by
      simp [submission, kind, requested, ready, unsubmitted,
        isConnect]
    have unchanged : (⟨s, past⟩ : Moment).put op.submitting = ⟨s, past⟩ := by
      rw [submitting_of_ready ready]
      exact Moment.put_of_active active
    intro reply
    cases reply with
    | error error =>
      have move : Move ⟨s, past⟩ _ := .submit active due (Except.error error)
      rw [unchanged] at move
      refine ⟨.refused active (.refl op) due rfl, .single move, .inr ⟨⟨error, rfl⟩, ?_⟩⟩
      exact Option.isSome_iff_exists.mpr ⟨op, active⟩
    | ok value =>
      refine ensures_activeMut active rfl ?_
      simp only [ensures_putActive, isConnect, if_true, ensures_leave]
      have move : Move ⟨s, past⟩ _ := .accept active due (Except.ok value) rfl
      rw [unchanged, submitting_of_ready ready] at move
      apply pending_left rfl (submitted_same op (.disconnect .cancellation))
      exact .submit (.single move) rfl rfl

theorem pollCancellation_spec : (pollCancellation platform op.id budget startedUs).Ensures
      (fun _ later talk => later = s ∧ talk = past ∧ (op.cancellationRequested = true →
        op.startPhase = .ready ∧ op.cancellationActionSubmitted = true)) (Left op ⟨s, past⟩) s past := by
  refine ensures_bind.mpr (ensures_activeMut active rfl ?_)
  split
  · rename_i requested
    split
    · rename_i unready
      have nothing : op.submission = none := by
        simp [submission, requested, unready]
      refine ensures_bind.mpr (ensures_clearActive.mpr ?_)
      exact ensures_leave.mpr (cancelled_left (.begin nothing))
    rename_i unready
    have ready : op.startPhase = .ready := not_not.mp unready
    split
    · rename_i unsubmitted
      exact submitCancellation_left active starts requested ready (by simpa using unsubmitted)
    · rename_i submitted
      exact ⟨rfl, rfl, fun _ => ⟨ready, by simpa using submitted⟩⟩
  · rename_i unrequested
    exact ⟨rfl, rfl, fun requested => absurd requested unrequested⟩

end

theorem finishDisconnect_left {next : Post (Option WaitSet)} (active : s.active = some later)
    (same : op.SameRequest later) (finishing : op.startPhase = .finishDisconnect)
    (moves : Reached op origin ⟨s, past⟩) :
    (submitStart platform op.id budget startedUs .finishDisconnect).Ensures next
      (Left op origin) s past := by
  refine ensures_bind.mpr (ensures_activeMut active same.id ?_)
  split
  · exact ensures_leave.mpr (clearWithError_left moves (.of_request (.inr finishing)))
  simp only [ensures_bind, ensures_clearActive, ensures_leave]
  refine ensures_call .finishDisconnect fun reply => ?_
  have asked := moves.tail (.ask .finishDisconnect reply rfl)
  refine orClear_left asked (fun _ _ => .of_request (.inr finishing)) fun _ _ => ?_
  exact boundedStepReport_left (asked.tail .clear) rfl (by rintro ⟨⟩) (fun _ => rfl) (by rintro _ ⟨⟩)

/-- The start stretch falls through only when the operation was submitted before. -/
theorem pollStart_spec (active : s.active = some op) (starts : op.kind ≠ .init)
    (cancels : op.cancellationRequested = true → op.startPhase = .ready ∧
      op.cancellationActionSubmitted = true) :
    (pollStart platform op.id budget startedUs).Ensures
      (fun _ later talk => talk = past ∧ Held op ⟨s, past⟩ op later talk) (Left op ⟨s, past⟩) s past := by
  have going : ∀ call (reply : call.Reply) wait later, op.submission = some call →
      call.error? reply = none → later = op.submitting.submitted call →
      (boundedStepReport platform op.id budget startedUs 1 (.pending wait)).Ensures
        (Left op ⟨s, past⟩) (Left op ⟨s, past⟩) { s with active := some later }
        (past ++ [⟨(call, { s with active := some op.submitting }), reply⟩]) := by
    rintro call reply wait _ due fine rfl
    refine pending_left rfl ((submitting_same op).trans (submitted_same _ call)) ?_
    exact .submit (.single (.accept active due reply fine)) rfl fine
  have refused : ∀ call, op.submission = some call → ∀ (reply : call.Reply) error,
      call.error? reply = some error →
      Left op ⟨s, past⟩ (.error error) { s with active := some op.submitting }
        (past ++ [⟨(call, { s with active := some op.submitting }), reply⟩]) := by
    intro call due reply error refusal
    exact ⟨(.refused rfl (submitting_same op) due refusal), .single (.submit active due reply),
      .inr ⟨⟨error, rfl⟩, rfl⟩⟩
  have uncancelled : op.startPhase ≠ .ready → op.cancellationRequested = false := by
    intro unready
    exact eq_false_iff.mpr fun requested => unready (cancels requested).1
  refine ensures_bind.mpr (ensures_activeMut active rfl ?_)
  refine ensures_put ?_
  refine ensures_bind.mpr ?_
  cases phase : op.startPhase with
  | ready =>
    refine ⟨rfl, ⟨?_, .refl op, phase, ?_⟩⟩
    · rw [← phase]
    have unchanged : (⟨s, past⟩ : Moment).put op = ⟨s, past⟩ := Moment.put_of_active active
    rw [← submitting_of_ready phase] at unchanged
    have nothing : op.submission = none := by
      by_cases requested : op.cancellationRequested = true
      · simp [submission, requested, (cancels requested).2]
      · simp [submission, requested, phase]
    have still : Reached op ⟨s, past⟩ ((⟨s, past⟩ : Moment).put op.submitting) := by
      rw [unchanged]
      exact .begin nothing
    exact still
  | scan | connectSubmit | disconnect =>
    refine ensures_ask fun reply => ?_
    refine ensures_bind.mpr ?_
    cases reply with
    | error error =>
      refine refused _ ?_ _ error rfl
      simp [submission, phase, starts, uncancelled]
    | ok value =>
      simp only [orReturn, ensures_pure, ensures_leave]
      refine going _ _ _ _ ?_ rfl rfl
      simp [submission, phase, starts, uncancelled]
  | connectConfigure config =>
    refine ensures_ask fun reply => ?_
    refine ensures_bind.mpr ?_
    cases reply with
    | error error =>
      refine refused _ ?_ _ error rfl
      simp [submission, phase, starts, uncancelled]
    | ok value =>
      simp only [orReturn, ensures_pure, ensures_bind]
      refine ensures_activeMut rfl rfl ?_
      simp only [ensures_putActive, ensures_leave]
      refine going _ _ _ _ ?_ rfl rfl
      simp [submission, phase, starts, uncancelled]
  | finishDisconnect =>
    have nothing : op.submission = none := by
      simp [submission, phase, uncancelled]
    have taken : Reached op ⟨s, past⟩ ((⟨s, past⟩ : Moment).put op.submitting) :=
      (Reached.begin nothing).tail (.terminate active phase)
    exact finishDisconnect_left rfl (submitting_same op) phase taken

section

/-! From here on the poll holds a submitted operation until it leaves. -/

theorem Held.ask (held : Held first origin op s past) (call : PortOp) (reply : call.Reply)
    (quiet : call.quiet = true) : Held first origin op s (past ++ [⟨(call, s), reply⟩]) :=
  { held with moves := held.moves.tail (.ask call reply quiet) }

/-- Fall through still holding the operation, with a fair outcome so far. -/
def Through (first : ActiveOperation) (origin : Moment) : Post Progress :=
  fun progress s talk => first.Fair progress.outcome ∧ ∃ op, Held first origin op s talk

abbrev Passes (first : ActiveOperation) (origin : Moment) (stretch : Step Progress) (s : PollState)
    (past : List PortCall) : Prop := stretch.Ensures (Through first origin) (Left first origin) s past

variable (held : Held first origin op s past)
include held

theorem Held.own {k : ActiveOperation → Step A} (rest : (k op).Ensures next out s talk) :
    (activeMut first.id >>= k).Ensures next out s talk :=
  ensures_bind.mpr (ensures_activeMut held.active held.same.id rest)

theorem pollSupplicant_spec :
    (pollSupplicant budget).Ensures (fun _ => Held first origin op)
      (Left first origin) s past := by
  refine ensures_ask fun reply => ?_
  have asked := held.ask (.poll budget.maxEvents) reply rfl
  refine ensures_orClear asked.moves (fun _ failed => .of_reply (by rw [failed]; rfl)) fun result _ => ?_
  split
  · apply ensures_leave.mpr
    exact clearWithError_left asked.moves (.of_class (by decide))
  · exact asked

theorem Held.observe (event : Event) (nowUs : UInt64) :
    Held first origin (op.observed event nowUs) { s with active := some (op.observed event nowUs) }
      (past ++ [⟨(.nextEvent, s), .ok (some event)⟩] ++ [⟨(.nowUs, s), nowUs⟩]) where
  active := rfl
  same := held.same.trans (observed_same op event nowUs).1
  ready := (observed_same op event nowUs).2.trans held.ready
  moves := held.moves.tail (.observe held.active held.ready event nowUs)

theorem drainEvents_spec (room : Nat) (progress : Progress) (fair : first.Fair progress.outcome) :
    Passes first origin (drainEvents first.id room progress) s past := by
  induction room generalizing progress op s past with
  | zero => exact ⟨fair, op, held⟩
  | succ room ih =>
    refine ensures_ask fun reply => ?_
    have asked := held.ask .nextEvent reply rfl
    refine ensures_orClear asked.moves (fun _ failed => .of_reply (by rw [failed]; rfl))
      fun next answered => ?_
    cases next with
    | none => exact ⟨fair, op, asked⟩
    | some event =>
      refine ensures_ask fun nowUs => ?_
      apply held.own
      apply ensures_put
      have observedFair : first.Fair (op.observe event.kind event.status).1 :=
        (observe_fair op event.kind event.status).of_same held.same
      have observed := held.observe event nowUs
      rw [answered]
      by_cases goes : (op.observe event.kind event.status).1 = .continue
      · rw [if_pos goes]
        exact ih observed _ observedFair
      · rw [if_neg goes]
        exact ⟨observedFair, _, observed⟩

theorem pollEvents_spec (result : PollResult) :
    Passes first origin (pollEvents first.id budget result) s past := by
  unfold pollEvents
  split
  · exact drainEvents_spec held _ _ (fair_continue first)
  · exact ⟨fair_continue first, op, held⟩

variable {progress : Progress} {isScan : Bool} {finishedUs : UInt64} {elapsed : Nat}

theorem deferFinishDisconnect_spec (fair : first.Fair progress.outcome) :
    (deferFinishDisconnect platform first.id budget startedUs progress).Ensures
      (fun _ => Held first origin op) (Left first origin) s past := by
  unfold deferFinishDisconnect
  split
  · rename_i finished
    have complete : progress.outcome = .complete .disconnected := by
      simpa using (and_eq_true_iff.mp finished).2
    have disconnects : op.kind = .disconnect :=
      held.same.kind.trans (fair.disconnected complete)
    apply held.own
    apply ensures_put
    apply ensures_leave.mpr
    have same : first.SameRequest { op with startPhase := .finishDisconnect } :=
      ⟨held.same.id, held.same.kind, held.same.cancellation⟩
    exact pending_left rfl same (held.moves.tail (.finish held.active disconnects))
  · exact held

theorem Held.scan (scans : first.kind = .scan)
    (output : List ScanResult) (total : Option Nat) (seen written : Nat) (truncated : Bool) :
    Held first origin (op.scanned total seen written truncated)
      ⟨some (op.scanned total seen written truncated), output⟩ past where
  active := rfl
  same := ⟨held.same.id, held.same.kind, held.same.cancellation⟩
  ready := held.ready
  moves := held.moves.tail
    (.scan held.active (held.same.kind.trans scans) output total seen written truncated)

theorem copyScanResults_spec (scans : first.kind = .scan) (room : Nat) (progress : Progress)
    (fair : first.Fair progress.outcome) :
    Passes first origin (copyScanResults first.id room progress) s past := by
  induction room generalizing progress op s past with
  | zero => exact ⟨fair, op, held⟩
  | succ room ih =>
    apply held.own
    cases op.scanTotal with
    | none => exact ⟨fair, op, held⟩
    | some =>
      dsimp only
      split
      · exact ⟨fair, op, held⟩
      refine ensures_ask fun found => ?_
      have asked := held.ask (.scanResult op.scanSeen) found rfl
      apply asked.own
      apply ensures_bind.mpr
      apply ensures_read.mpr
      cases found with
      | none => exact ih (asked.scan scans _ _ _ _ _) _ fair
      | some =>
        dsimp only
        split <;> exact ih (asked.scan scans _ _ _ _ _) _ fair

theorem finishScanCopy_spec (fair : first.Fair progress.outcome) :
    Passes first origin (finishScanCopy first.id progress) s past := by
  apply held.own
  split
  · split
    · exact ⟨⟨nofun, nofun⟩, op, held⟩
    · exact ⟨fair, op, held⟩
  · exact ⟨fair, op, held⟩

theorem noteScanTotal_spec {total : Option Nat} (scans : first.kind = .scan) :
    (noteScanTotal first.id total).Ensures (fun _ later talk => ∃ op, Held first origin op later talk)
      (Left first origin) s past := by
  unfold noteScanTotal
  split
  · apply held.own
    exact ⟨_, held.scan scans s.scanOutput total op.scanSeen op.scanWritten op.scanTruncated⟩
  · exact ⟨op, held⟩

section

variable (scans : first.kind = .scan) (fair : first.Fair progress.outcome)
include scans fair

theorem collectScan_spec :
    Passes first origin (collectScan first.id budget progress) s past := by
  apply held.own
  split
  · exact finishScanCopy_spec held ⟨nofun, nofun⟩
  · apply (copyScanResults_spec held scans _ progress fair).bind
    rintro copied later talk ⟨copiedFair, copiedOp, copiedHeld⟩
    exact finishScanCopy_spec copiedHeld copiedFair

theorem pollScanResults_spec :
    Passes first origin (pollScanResults first.id budget progress) s past := by
  refine ensures_ask fun reply => ?_
  have asked := held.ask .pollScan reply rfl
  refine ensures_orClear asked.moves (fun _ failed => .of_reply (by rw [failed]; rfl)) fun total _ => ?_
  apply (noteScanTotal_spec asked scans).bind
  rintro _ later talk ⟨noted, notedHeld⟩
  refine ensures_ask fun pending => ?_
  have checked := notedHeld.ask .scanCachePending pending rfl
  split
  · exact ⟨fair, noted, checked⟩
  · exact collectScan_spec checked scans fair

end

theorem submitSettledReconnect_spec (fair : first.Fair progress.outcome) :
    Passes first origin (submitSettledReconnect first.id progress) s past := by
  refine ensures_ask fun nowUs => ?_
  have asked := held.ask .nowUs nowUs rfl
  apply asked.own
  apply ensures_put
  obtain ⟨sameRequest, samePhase⟩ := takeReconnectWhenSettled_same op nowUs
  by_cases settled : (op.takeReconnectWhenSettled nowUs).1 = true
  · rw [if_pos settled]
    refine ensures_ask fun reply => ?_
    have submitted : Reached first origin _ :=
      held.moves.tail (.settle held.active held.ready nowUs settled reply)
    refine ensures_orClear submitted (fun _ failed => .of_reply (by rw [failed]; rfl)) fun _ _ => ?_
    exact ⟨fair, _, rfl, held.same.trans sameRequest, samePhase.trans held.ready, submitted⟩
  rw [if_neg settled]
  have unchanged : (op.takeReconnectWhenSettled nowUs).2 = op := by
    unfold takeReconnectWhenSettled at settled ⊢
    split
    · rename_i due
      rw [if_pos due] at settled
      exact absurd rfl settled
    · rfl
  rw [unchanged]
  have still : (⟨s, past ++ [⟨(.nowUs, s), nowUs⟩]⟩ : Moment).put op = ⟨s, _⟩ :=
    Moment.put_of_active asked.active
  refine ⟨fair, op, rfl, held.same, held.ready, ?_⟩
  have reached := asked.moves
  rw [← still] at reached
  exact reached

theorem countReconnects_spec {firstEapol externalAuth : Bool} :
    (countReconnects firstEapol externalAuth).Ensures
      (fun _ => Held first origin op) (Left first origin) s past := by
  have counted := fun reply => held.ask .countFirstEapolReconnect reply rfl
  cases firstEapol with
  | false =>
    cases externalAuth with
    | false => exact held
    | true => exact fun reply => held.ask .countExternalAuthReconnect reply rfl
  | true =>
    cases externalAuth with
    | false => exact counted
    | true => exact fun one two => (counted one).ask .countExternalAuthReconnect two rfl

section

variable (fair : first.Fair progress.outcome)
include fair

theorem submitRecoveryDisconnect_spec :
    Passes first origin (submitRecoveryDisconnect first.id progress) s past := by
  refine ensures_ask fun recovery => ?_
  refine ensures_ask fun stalled => ?_
  refine ensures_ask fun nowUs => ?_
  have asked := ((held.ask .recoveryDiagnosticWord recovery rfl).ask
    .externalAuthRetryStalled stalled rfl).ask .nowUs nowUs rfl
  apply asked.own
  apply ensures_put
  obtain ⟨sameRequest, samePhase⟩ := recovering_same op recovery stalled nowUs
  have same := held.same.trans sameRequest
  have ready := samePhase.trans held.ready
  by_cases due : ((op.recovering recovery stalled nowUs).1 ||
      (op.recovering recovery stalled nowUs).2.1) = true
  · rw [if_pos due]
    refine ensures_ask fun reply => ?_
    apply ensures_bind.mpr
    cases reply with
    | error error =>
      apply orClear_left
        (asked.moves.tail (.recover asked.active recovery stalled nowUs _ _ ⟨rfl, rfl, due⟩
          (Except.error error)))
      · intro _ failed
        cases failed
        exact .of_reply rfl
      · intro _ impossible
        cases impossible
    | ok =>
      apply ensures_bind.mpr
      apply ensures_activeMut rfl same.id
      apply ensures_put
      have requested : Held first origin
          (op.recovering recovery stalled nowUs).2.2.requestReconnectAfterDisconnect _ _ :=
        ⟨rfl, ⟨same.id, same.kind, same.cancellation⟩, ready,
          asked.moves.tail (.request asked.active recovery stalled nowUs _ _ ⟨rfl, rfl, due⟩)⟩
      apply (countReconnects_spec requested).bind
      intro _ _ _ counted
      exact ⟨fair, _, counted⟩
  · rw [if_neg due]
    have early := or_eq_false_iff.mp (eq_false_iff.mpr due)
    exact ⟨fair, _, rfl, same, ready,
      asked.moves.tail (.defer asked.active recovery stalled nowUs early)⟩

theorem pollRecovery_spec :
    Passes first origin (pollRecovery first.id progress) s past := by
  unfold pollRecovery
  split
  · apply (submitSettledReconnect_spec held fair).bind
    rintro settled later talk ⟨settledFair, settledOp, settledHeld⟩
    exact submitRecoveryDisconnect_spec settledHeld settledFair
  · exact ⟨fair, op, held⟩

end

theorem snapshotScanCompletion_spec (scans : isScan = true → first.kind = .scan)
    (fair : first.Fair progress.outcome) :
    (snapshotScanCompletion first.id isScan finishedUs progress).Ensures
      (fun seen => Through first origin seen.2) (Left first origin)
      s past := by
  apply held.own
  split
  · rename_i snapshot
    have scanning : first.kind = .scan := by
      simp only [and_eq_true] at snapshot
      exact scans snapshot.1.1.1
    refine ensures_ask fun reply => ?_
    have asked := held.ask .pollScan reply rfl
    refine ensures_orClear asked.moves (fun _ failed => .of_reply (by rw [failed]; rfl)) fun found _ => ?_
    cases found with
    | none => exact ⟨fair, op, asked⟩
    | some total =>
      apply asked.own
      apply ensures_put
      have noted := asked.scan scanning s.scanOutput (some total) op.scanSeen op.scanWritten
        op.scanTruncated
      refine ensures_ask fun later => ?_
      have timed := noted.ask .nowUs later rfl
      split
      · refine ensures_ask fun pending => ?_
        have checked := timed.ask .scanCachePending pending rfl
        split
        · exact ⟨⟨nofun, nofun⟩, _, checked⟩
        · exact ⟨fair, _, checked⟩
      · exact ⟨fair, _, timed⟩
  · exact ⟨fair, op, held⟩

theorem observeScanWork_spec :
    (observeScanWork first.id isScan).Ensures
      (fun _ => Held first origin op) (Left first origin) s past := by
  unfold observeScanWork
  split
  · refine ensures_ask fun pending => ?_
    refine ensures_ask fun observed => ?_
    have asked := (held.ask .scanCachePending pending rfl).ask .scanCacheCompletionObserved
      observed rfl
    apply ensures_bind.mpr
    exact ensures_activeMut asked.active asked.same.id asked
  · exact held

theorem claimScanTimeout_spec {completionObserved : Bool} :
    (claimScanTimeout first.id isScan finishedUs progress completionObserved).Ensures
      (fun claimed later talk => Held first origin op later talk ∧ (claimed = true → Claimed talk))
      (Left first origin) s past := by
  apply held.own
  split
  · rename_i expired
    have unseen : op.scanTotal = none := by
      simp only [and_eq_true] at expired
      exact Option.isNone_iff_eq_none.mp expired.1.2
    intro claimed
    have asked : Move ⟨s, past⟩ ⟨s, past ++ [⟨(.tryClaimScanTimeout, s), claimed⟩]⟩ :=
      .claim held.active held.ready claimed
    refine ⟨{ held with moves := held.moves.tail asked }, ?_⟩
    intro won
    refine ⟨s, op, held.active, unseen, ?_⟩
    rw [← won]
    exact mem_append_right _ (mem_singleton.mpr rfl)
  · exact ⟨held, nofun⟩

theorem pollTimeout_spec {claimed : Bool} {nextDeadlineMs : UInt64}
    (notScan : isScan = false → first.kind ≠ .scan) (won : claimed = true → Claimed past) :
    (pollTimeout first.id isScan claimed finishedUs nextDeadlineMs progress).Ensures
      (fun _ later talk => ∃ op, Held first origin op later talk) (Left first origin) s past := by
  apply held.own
  apply ensures_put
  have retimed : Held first origin
      { op with backendDeadlineUs := backendDeadline nextDeadlineMs } _ past :=
    ⟨rfl, ⟨held.same.id, held.same.kind, held.same.cancellation⟩, held.ready,
      held.moves.tail (.retime held.active (backendDeadline nextDeadlineMs))⟩
  split
  · rename_i expired
    have cause : ∀ error talk, TimeoutCause first error (past ++ talk) := by
      intro error talk
      cases isScan with
      | false => exact .of_request (.inl (notScan rfl))
      | true =>
        have claim : claimed = true := by
          by_contra lost
          exact expired.2.2 ⟨rfl, .inr (eq_false_iff.mpr lost)⟩
        exact TimeoutCause.extend (fun _ => .inr (.inr (won claim))) talk
    refine ensures_ask fun context => ?_
    refine ensures_ask fun driver => ?_
    refine ensures_ask fun matched => ?_
    have asked := ((retimed.ask .contextDiagnosticWord context rfl).ask
      .driverDiagnosticWord driver rfl).ask .matchDiagnosticWord matched rfl
    apply ensures_leave.mpr
    apply clearWithError_left asked.moves
    simp only [append_assoc]
    exact cause _ _
  · exact ⟨_, retimed⟩

theorem closePoll_left {terminal : Bool} (stops : terminal = !disposition.continues)
    (connected : ∀ info, disposition = .complete (.connected info) → first.kind = .connect info ∧
      first.cancellationRequested = false) :
    (closePoll platform first.id budget progress elapsed disposition terminal).Ensures
      (Left first origin) (Left first origin) s past := by
  unfold closePoll
  split
  · exact clearWithError_left held.moves (.of_class (by decide))
  rename_i report built
  have fields := WorkReport.tryNew_eq_some built
  have operation : report.operation = first.id := by rw [fields]
  have kept : report.disposition = disposition := by rw [fields]
  cases continues : disposition.continues with
  | true =>
    rw [stops, continues]
    refine held.moves.left (.going operation ?_ held.active held.same)
    rw [kept, continues]
  | false =>
    rw [stops, continues]
    refine (held.moves.tail .clear).left (.finished operation ?_ rfl ?_)
    · rw [kept, continues]
    · intro info done
      exact connected info (kept.symm.trans done)

theorem pollReport_left {outputPending : UInt32} {scanWorkPending : Bool}
    (fair : first.Fair progress.outcome) :
    (pollReport platform first.id budget progress elapsed outputPending scanWorkPending).Ensures
      (Left first origin) (Left first origin) s past := by
  refine ensures_ask fun inputPending => ?_
  have asked := held.ask .inputPending inputPending rfl
  cases outcome : progress.outcome with
  | complete =>
    apply closePoll_left asked rfl _
    intro info done
    cases done
    exact fair.connected info outcome
  | cancelled => exact closePoll_left asked rfl nofun
  | failed => exact clearWithError_left asked.moves (.of_class nofun)
  | «continue» =>
    dsimp only
    split <;> exact closePoll_left asked rfl nofun

theorem pollBody_left (named : first.id = id) :
    (pollBody platform id budget startedUs).Ensures (Left first origin) (Left first origin)
      s past := by
  subst named
  apply (pollSupplicant_spec held).bind
  intro result afterPoll afterPollTalk polled
  apply (pollEvents_spec polled result).bind
  rintro drained afterEvents afterEventsTalk ⟨drainedFair, drainedOp, drainedHeld⟩
  apply (deferFinishDisconnect_spec drainedHeld drainedFair).bind
  intro _ afterDefer afterDeferTalk kept
  apply kept.own
  have scans : (drainedOp.kind == .scan) = true → first.kind = .scan := by
    intro scan
    exact kept.same.kind.symm.trans (eq_of_beq scan)
  have notScan : (drainedOp.kind == .scan) = false → first.kind ≠ .scan := by
    intro other scan
    rw [kept.same.kind, scan] at other
    cases other
  have results : (pollScanStretch first.id budget (drainedOp.kind == .scan) drained).Ensures
      (Through first origin) (Left first origin) afterDefer afterDeferTalk := by
    unfold pollScanStretch
    split
    · rename_i scanning
      exact pollScanResults_spec kept (scans (and_eq_true_iff.mp scanning).1) drainedFair
    · exact ⟨drainedFair, drainedOp, kept⟩
  apply results.bind
  rintro scanned afterScan afterScanTalk ⟨scannedFair, scannedOp, scannedHeld⟩
  apply (pollRecovery_spec scannedHeld scannedFair).bind
  rintro recovered afterRecovery afterRecoveryTalk ⟨recoveredFair, recoveredOp, recoveredHeld⟩
  refine ensures_ask fun finishedUs => ?_
  apply (snapshotScanCompletion_spec (recoveredHeld.ask .nowUs finishedUs rfl) scans
    recoveredFair).bind
  rintro ⟨lastUs, last⟩ afterSnapshot afterSnapshotTalk ⟨lastFair, lastOp, lastHeld⟩
  dsimp only
  split
  · apply ensures_leave.mpr
    exact clearWithError_left lastHeld.moves (.of_class (by decide))
  · apply (observeScanWork_spec lastHeld).bind
    rintro ⟨completionObserved, scanWorkPending⟩ afterObserve afterObserveTalk observed
    apply (claimScanTimeout_spec observed).bind
    rintro claimed afterClaim afterClaimTalk ⟨claimHeld, won⟩
    apply (pollTimeout_spec claimHeld notScan won).bind
    rintro _ afterTimeout afterTimeoutTalk ⟨timedOp, timedHeld⟩
    exact pollReport_left timedHeld lastFair

end

def begun (s : PollState) (past : List PortCall) (startedUs : UInt64) : Moment :=
  ⟨s, past ++ [⟨(.nowUs, s), startedUs⟩]⟩

/-- Every poll of the active operation moves as listed and ends as listed. -/
theorem poll_left (active : s.active = some op) : (poll platform op.id reason budget).Ensures
      (fun result later talk => ∃ startedUs, Left op (begun s past startedUs) result later talk)
      (fun result later talk => ∃ startedUs, Left op (begun s past startedUs) result later talk)
      s past := by
  refine ensures_ask fun startedUs => ?_
  have whole : (do
      pollInit platform op.id budget
      pollCancellation platform op.id budget startedUs
      pollStart platform op.id budget startedUs
      pollBody platform op.id budget startedUs).Ensures (Left op (begun s past startedUs))
        (Left op (begun s past startedUs)) s (begun s past startedUs).talk := by
    apply (pollInit_spec active).bind
    rintro _ _ _ ⟨rfl, rfl, starts⟩
    apply (pollCancellation_spec active starts).bind
    rintro _ _ _ ⟨rfl, rfl, cancels⟩
    apply (pollStart_spec active starts cancels).bind
    rintro _ later talk ⟨rfl, held⟩
    exact pollBody_left held rfl
  apply whole.mono
  · intro _ _ _ left
    exact ⟨startedUs, left⟩
  · intro _ _ _ left
    exact ⟨startedUs, left⟩

/-- A poll for an operation that is not active only reads the clock. -/
def Stale (s : PollState) (past : List PortCall) (result : PollReturn) (later : PollState)
    (talk : List PortCall) : Prop :=
  result = .error (operationError errorStaleOperation) ∧ later = s ∧
    ∃ startedUs, talk = (begun s past startedUs).talk

theorem poll_stale (stale : ∀ op, s.active = some op → op.id ≠ id) :
    (poll platform id reason budget).Ensures (Stale s past) (Stale s past) s past := by
  refine ensures_ask fun startedUs => ?_
  apply ensures_bind.mpr
  unfold pollInit activeMut
  simp only [ensures_bind, ensures_read]
  cases slot : s.active with
  | none => exact ⟨rfl, rfl, startedUs, rfl⟩
  | some op =>
    simp only [if_neg (stale op slot)]
    exact ⟨rfl, rfl, startedUs, rfl⟩

theorem poll_runs {after : PollState} (past : List PortCall) (active : s.active = some op)
    (run : Program.Runs (pollProgram platform op.id reason budget s) talk (result, after)) :
    ∃ startedUs, Left op (begun s past startedUs) result after (past ++ talk) :=
  (poll_left active).program.sound run

/-- A start is refused as busy, or takes the free slot. -/
def Started (state : PollState) (id : OperationId) (request : IncrementalRequest)
    (result : Except BackendError Unit) (after : PollState) : Prop :=
  (state.active.isSome = true ∧ result = .error (stagedError .busy 1 .controlPlane) ∧
    after = state) ∨
  (state.active = none ∧ result = .ok () ∧ ∃ nowUs, after =
    { state with active := some (fromRequest id request nowUs) })

theorem startRequest_ensures (id : OperationId) (request : IncrementalRequest)
    (state : PollState) (past : List PortCall) :
    (startRequest id request).Ensures (fun result after _ => Started state id request result after)
      (fun result after _ => Started state id request result after) state past := by
  unfold startRequest
  simp only [ensures_bind, ensures_read]
  by_cases occupied : state.active.isSome = true
  · rw [if_pos occupied]
    exact .inl ⟨occupied, rfl, rfl⟩
  · rw [if_neg occupied]
    intro nowUs
    exact .inr ⟨Option.not_isSome_iff_eq_none.mp occupied, rfl, nowUs, rfl⟩

theorem startRequest_runs {request : IncrementalRequest} {state after : PollState}
    {result : Except BackendError Unit}
    (run : Program.Runs ((startRequest id request).program state) talk (result, after)) :
    Started state id request result after :=
  (startRequest_ensures id request state []).program.sound run

end HisiRf
