import HisiRf.Backend.Life

/-! A cancelled Connect and the native requests it may still make.

The recovery causes, the wait for a disconnect and the observed events all ask
whether the operation was cancelled. A settle deadline that was armed before
the cancel does not: its reconnect is submitted after the cancellation.
-/

namespace HisiRf

open Interaction Option List

namespace ActiveOperation

/-- A cancelled operation with no settled reconnect in store. -/
structure Stopped (op : ActiveOperation) : Prop where
  requested : op.cancellationRequested = true
  unarmed : op.reconnectSubmitDeadlineUs = none

variable {op : ActiveOperation}

section

variable (stopped : op.Stopped)
include stopped

theorem Stopped.submission {call : PortOp} (due : op.submission = some call) :
    call = .disconnect .cancellation := by
  unfold ActiveOperation.submission at due
  rw [stopped.requested] at due
  split at due
  · cases due
  · simp only [if_true] at due
    split at due
    · exact (some.inj due).symm
    · cases due

theorem Stopped.recovering (recovery : UInt32) (stalled : Bool) (nowUs : UInt64) :
    op.recovering recovery stalled nowUs = (false, false, op) := by
  simp [ActiveOperation.recovering, shouldSubmitFirstEapolReconnect,
    shouldSubmitExternalAuthReconnect, stopped.requested]

theorem Stopped.observed (event : Event) (nowUs : UInt64) : (op.observed event nowUs).Stopped := by
  obtain ⟨status, same⟩ := observed_eq op event nowUs
  have unarming : op.arms event = false := by
    simp [ActiveOperation.arms, stopped.requested]
  rw [same]
  refine ⟨stopped.requested, ?_⟩
  simp [unarming, stopped.unarmed]

theorem Stopped.unsettled (nowUs : UInt64) : (op.takeReconnectWhenSettled nowUs).1 = false := by
  simp [takeReconnectWhenSettled, stopped.unarmed]

end

end ActiveOperation

def Requested (active : Option ActiveOperation) : Prop :=
  ∀ op, active = some op → op.cancellationRequested = true

def Stopped (active : Option ActiveOperation) : Prop := ∀ op, active = some op → op.Stopped

/-- From `past` on, a stopped operation stays stopped and calls no connect. -/
structure StoppedSince (past : List PortCall) (active : Option ActiveOperation)
    (talk : List PortCall) : Prop where
  stopped : Stopped active
  silent : ∃ more, talk = past ++ more ∧ ∀ call ∈ more, call.op.1.isConnect = false

variable {past talk : List PortCall} {active : Option ActiveOperation}

theorem StoppedSince.say {call : PortCall} (since : StoppedSince past active talk)
    (quiet : call.op.1.isConnect = false) : StoppedSince past active (talk ++ [call]) := by
  obtain ⟨more, extended, silent⟩ := since.silent
  refine ⟨since.stopped, more ++ [call], ?_, ?_⟩
  · rw [extended, append_assoc]
  · intro other member
    rcases mem_append.mp member with old | new
    · exact silent other old
    · exact mem_singleton.mp new ▸ quiet

theorem StoppedSince.put {op : ActiveOperation} (since : StoppedSince past active talk)
    (stopped : op.Stopped) : StoppedSince past (some op) talk := by
  refine ⟨?_, since.silent⟩
  intro other same
  exact some.inj same ▸ stopped

/-- What leaves the request and the settle deadline alone keeps the operation stopped. -/
theorem StoppedSince.stays {op later : ActiveOperation} (since : StoppedSince past active talk)
    (found : active = some op) (requested : later.cancellationRequested = op.cancellationRequested)
    (unarmed : later.reconnectSubmitDeadlineUs = op.reconnectSubmitDeadlineUs) :
    StoppedSince past (some later) talk := by
  have stopped := since.stopped op found
  exact since.put ⟨requested.trans stopped.requested, unarmed.trans stopped.unarmed⟩

theorem Move.keeps_stopped {before after : Moment} (move : Move before after)
    (since : StoppedSince past before.state.active before.talk) :
    StoppedSince past after.state.active after.talk := by
  cases move with
  | ask op reply quiet => exact since.say (PortOp.not_connect_of_quiet quiet)
  | claim => exact since.say rfl
  | clear =>
    refine ⟨?_, since.silent⟩
    intro op impossible
    cases impossible
  | @submit op active call due =>
    cases (since.stopped op active).submission due
    exact .say (since.stays active rfl rfl) rfl
  | @accept op active call due =>
    cases (since.stopped op active).submission due
    have submitting : StoppedSince past (some op.submitting) before.talk :=
      since.stays active rfl rfl
    exact .stays (submitting.say rfl) rfl rfl rfl
  | @observe op active ready event nowUs =>
    have stopped := since.stopped op active
    exact ((since.say rfl).say rfl).put (stopped.observed event nowUs)
  | @settle op active ready nowUs settled =>
    have unsettled := (since.stopped op active).unsettled nowUs
    cases settled.symm.trans unsettled
  | @defer op active =>
    have stopped := since.stopped op active
    rw [stopped.recovering]
    exact since.put stopped
  | @recover op active recovery stalled nowUs firstEapol externalAuth due
  | @request op active recovery stalled nowUs firstEapol externalAuth due =>
    have stopped := since.stopped op active
    rw [stopped.recovering] at due
    obtain ⟨rfl, rfl, submits⟩ := due
    cases submits
  | scan active | retime active | terminate active | finish active =>
    exact since.stays active rfl rfl

/-- The step did not complete the operation as connected. -/
def LifeLabel.NotConnected : LifeLabel → Prop
  | .poll _ (.ok report) => ∀ info, report.disposition ≠ .complete (.connected info)
  | _ => True

def LifeLabel.CallsNoConnect (label : LifeLabel) : Prop :=
  ∀ call ∈ label.talk, call.op.1.isConnect = false

variable {platform : Platform} {before after : Option ActiveOperation} {label : LifeLabel}

theorem poll_keeps_requested {first : ActiveOperation} {result : PollReturn} {begun : List PortCall}
    {state : PollState} (cancelled : first.cancellationRequested = true)
    (ends : Ends first begun result state talk) :
    Requested state.active ∧ (LifeLabel.poll talk result).NotConnected := by
  have keeps : ∀ {later : ActiveOperation}, state.active = some later → first.SameRequest later →
      Requested state.active := by
    intro later active request op found
    rw [active] at found
    exact some.inj found ▸ request.cancellation.trans cancelled
  have idles : state.active = none → Requested state.active := by
    intro idle op found
    rw [idle] at found
    cases found
  cases ends with
  | failed idle => exact ⟨idles idle, trivial⟩
  | refused active request => exact ⟨keeps active request, trivial⟩
  | going operation continues active request =>
    refine ⟨keeps active request, ?_⟩
    intro info done
    rw [done] at continues
    cases continues
  | finished operation stops idle connected =>
    refine ⟨idles idle, ?_⟩
    intro info done
    have uncancelled := (connected info done).2
    rw [cancelled] at uncancelled
    cases uncancelled

theorem LifeStep.keeps_requested
    (requested : Requested before) (step : LifeStep platform before label after) :
    Requested after ∧ label.NotConnected := by
  cases step with
  | cancel id =>
    refine ⟨?_, trivial⟩
    rcases cancel_eq before id with same | ⟨op, _, cancelled⟩
    · rwa [same]
    · intro later found
      rw [cancelled] at found
      exact some.inj found ▸ rfl
  | poll run =>
    rcases poll_owned_or_stale [] run with ⟨first, active, _, startedUs, left⟩ | ⟨failed, same, _⟩
    · exact poll_keeps_requested (requested first active) left.ends
    · rw [same, failed]
      exact ⟨requested, trivial⟩

theorem LifeStep.keeps_stopped (stopped : Stopped before)
    (step : LifeStep platform before label after) : Stopped after ∧ label.CallsNoConnect := by
  cases step with
  | cancel id =>
    refine ⟨?_, forall_mem_nil _⟩
    rcases cancel_eq before id with same | ⟨op, found, cancelled⟩
    · rwa [same]
    · intro later kept
      rw [cancelled] at kept
      exact some.inj kept ▸ ⟨rfl, (stopped op found).unarmed⟩
  | poll run =>
    have since : StoppedSince [] before [] := ⟨stopped, [], rfl, forall_mem_nil _⟩
    have after := moves_invariant (fun _ _ move => move.keeps_stopped) (poll_moves [] run) since
    obtain ⟨more, same, silent⟩ := after.silent
    refine ⟨after.stopped, ?_⟩
    intro call member
    simp only [nil_append] at same
    exact silent call (same ▸ member)

/-- After an accepted cancel the operation never completes as connected, and it never calls
connect again unless a settle deadline was armed when the cancel came. -/
theorem cancelled_connect_stays_down {platform : Platform} {op : ActiveOperation}
    {id : OperationId} {labels : List LifeLabel} {active : Option ActiveOperation}
    (accepted : (HisiRf.cancel (some op) id).1 = .ok ())
    (run : Run (life platform) (HisiRf.cancel (some op) id).2 labels active) :
    (∀ label ∈ labels, label.NotConnected) ∧
      (op.reconnectSubmitDeadlineUs = none → ∀ label ∈ labels, label.CallsNoConnect) := by
  rw [(cancel_accepted accepted).2] at run
  constructor
  · have requested : Requested (some { op with cancellationRequested := true }) := by
      intro later found
      exact some.inj found ▸ rfl
    have keeps : ∀ before label after, Requested before →
        (life platform).step before label after → Requested after ∧ label.NotConnected :=
      fun _ _ _ holds step => LifeStep.keeps_requested holds step
    exact run.labels keeps requested
  intro unarmed
  have stopped : Stopped (some { op with cancellationRequested := true }) := by
    intro later found
    exact some.inj found ▸ ⟨rfl, unarmed⟩
  have keeps : ∀ before label after, Stopped before →
      (life platform).step before label after → Stopped after ∧ label.CallsNoConnect :=
    fun _ _ _ holds step => LifeStep.keeps_stopped holds step
  exact run.labels keeps stopped

/-! A stalled authentication asks for a disconnect, which arrives and arms the settle
deadline; then the operation is cancelled. -/

def beforeCancel : List Deed :=
  [.poll {}, .poll {}, .poll { stalled := true }, .poll { stalled := true, nowUs := 1000000 },
    .poll (reporting nativeEventDisconnected 1000000)]

def afterCancel : List Deed := [.poll { nowUs := 1000000 }, .poll { nowUs := 1005000 }]

def armedConnect : ActiveOperation :=
  { queuedConnect with
    startPhase := .ready
    externalAuthReconnectSubmitted := true
    reconnectSubmitDeadlineUs := some 1005000
    lastEventKind := nativeEventDisconnected }

theorem settled_reconnect_after_cancel :
    ∃ before after active, Run (life anyReport) (some queuedConnect) before (some armedConnect) ∧
      (HisiRf.cancel (some armedConnect) ⟨1⟩).1 = .ok () ∧
      Run (life anyReport) (HisiRf.cancel (some armedConnect) ⟨1⟩).2 after active ∧
      ∃ label ∈ after, ¬label.CallsNoConnect := by
  have arms : (steadyLife beforeCancel (some queuedConnect)).2 = some armedConnect := by
    decide +kernel
  have connects : ((steadyLife afterCancel (HisiRf.cancel (some armedConnect) ⟨1⟩).2).1.any
      fun label => label.talk.any fun call => call.op.1.isConnect) = true := by
    decide +kernel
  refine ⟨_, _, _, arms ▸ steadyLife_runs beforeCancel _, rfl, steadyLife_runs afterCancel _, ?_⟩
  obtain ⟨label, member, found⟩ := any_eq_true.mp connects
  obtain ⟨call, called, connect⟩ := any_eq_true.mp found
  refine ⟨label, member, ?_⟩
  intro silent
  rw [silent call called] at connect
  cases connect

theorem queued_connect_cancelled : (HisiRf.cancel (some queuedConnect) ⟨1⟩).1 = .ok () ∧
      ∀ label ∈ (steadyLife afterCancel (HisiRf.cancel (some queuedConnect) ⟨1⟩).2).1,
        label.CallsNoConnect :=
  ⟨rfl, (cancelled_connect_stays_down rfl (steadyLife_runs afterCancel _)).2 rfl⟩

end HisiRf
