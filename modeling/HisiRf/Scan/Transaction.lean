import HisiRf.Backend.Moves
import HisiRf.Scan.World

/-! One scan transaction has one winner.

The flag opens a transaction when a capture sets it. Whoever switches it off
wins: the runner's timeout claim or a callback's swap. Nobody wins again before
another capture. The port's programs are checked once here, for what they
capture and for the class of error they answer with.
-/

namespace HisiRf

open Interaction ScanGlobals Nat Bool

def capturing : Exchange scanAtoms → Bool
  | ⟨.captureScan, captured⟩ => captured
  | _ => false

def opensScan : ScanLabel → Bool
  | .mine exchange => capturing exchange
  | .other _ => false

/-- The label switched the flag off on behalf of a side. -/
def winsScan : ScanLabel → Bool
  | .mine ⟨.claimScanTimeout, claimed⟩ => claimed
  | .other (.swapActive _ won) => won
  | _ => false

variable {w after : ScanGlobals} {label : ScanLabel} {labels : List ScanLabel}

theorem wins_switches (step : scanWorld.system.step w label after) (wins : winsScan label = true) :
    w.nativeScanActive = true ∧ after.nativeScanActive = false := by
  cases step with
  | @mine _ atom reply acts =>
    cases atom with
    | claimScanTimeout =>
      obtain ⟨replied, rfl⟩ := acts
      exact ⟨replied.symm.trans wins, rfl⟩
    | _ => cases wins
  | other act =>
    cases act with
    | swapActive => exact ⟨wins, rfl⟩
    | _ => cases wins

/-- Only a capture sets the flag, so a closed transaction stays closed and has no winner. -/
theorem stays_closed (step : scanWorld.system.step w label after)
    (closed : w.nativeScanActive = false) (opens : opensScan label = false) :
    after.nativeScanActive = false ∧ winsScan label = false := by
  have unwon : winsScan label = false := by
    by_contra wins
    rw [not_eq_false] at wins
    rw [(wins_switches step wins).1] at closed
    cases closed
  refine ⟨?_, unwon⟩
  cases step with
  | @mine _ atom reply acts =>
    cases atom with
    | captureScan =>
      obtain ⟨captured, _⟩ := acts
      rw [closed, Bool.not_false] at captured
      exact absurd (captured.symm.trans opens) (by decide)
    | releaseScan => exact acts ▸ rfl
    | claimScanTimeout => exact acts.2 ▸ rfl
    | openScan =>
      obtain ⟨_, rfl⟩ := acts
      split <;> exact closed
    | pollNative =>
      obtain ⟨drained, rfl⟩ := acts
      exact closed
    | loadPortReady | loadScanActive | queuePending | readScan | claimRelease => exact acts.2 ▸ closed
    | _ => exact acts ▸ closed
  | other act =>
    cases act with
    | swapActive => rfl
    | queueDone =>
      unfold enqueue
      split <;> exact closed
    | publishDone =>
      unfold publishDone
      split <;> exact closed
    | queueResult =>
      unfold enqueueResult enqueue
      split
      · split <;> exact closed
      · exact closed
    | reserveResult =>
      unfold reserveResult
      split <;> exact closed
    | _ => exact closed

theorem run_stays_closed (run : Run scanWorld.system w labels after)
    (closed : w.nativeScanActive = false) (opens : ∀ label ∈ labels, opensScan label = false) :
    after.nativeScanActive = false ∧ ∀ label ∈ labels, winsScan label = false := by
  have keeps (s : ScanGlobals) (label : ScanLabel) (t : ScanGlobals)
      (closed : s.nativeScanActive = false) (step : scanWorld.system.step s label t)
      (opens : opensScan label = false) := stays_closed step closed opens
  exact run.assuming keeps closed opens

theorem one_winner {first second : List ScanLabel}
    (run : Run scanWorld.system w (first ++ label :: second) after) (wins : winsScan label = true)
    (opens : ∀ later ∈ second, opensScan later = false) :
    ∀ later ∈ second, winsScan later = false := by
  obtain ⟨before, middle, _, step, later⟩ := run.step_at
  exact (run_stays_closed later (wins_switches step wins).2 opens).2

variable {callback : Nat}

def CallbackPhase.queuesDone : CallbackPhase → Bool
  | .queueDone _ => true
  | _ => false

theorem acts_callbacks {atom : ScanAtom} {reply : atom.Reply} (acts : atom.acts w reply after) :
    after.callbacks = w.callbacks := by
  cases atom with
  | openScan =>
    obtain ⟨_, rfl⟩ := acts
    split <;> rfl
  | pollNative =>
    obtain ⟨drained, rfl⟩ := acts
    rfl
  | loadPortReady | captureScan | loadScanActive | queuePending | claimScanTimeout | readScan
  | claimRelease => exact acts.2 ▸ rfl
  | _ => exact acts ▸ rfl

theorem phase_queuesDone (w : ScanGlobals) (other : Nat) (next : CallbackPhase)
    (before : (w.callbacks callback).queuesDone = false)
    (enters : callback = other → next.queuesDone = false) :
    ((w.phase other next).callbacks callback).queuesDone = false := by
  by_cases same : callback = other
  · subst same
    simpa [phase] using enters rfl
  · simpa [phase, same] using before

@[simp] theorem enqueue_callbacks (event : ScanEvent) :
    (w.enqueue event).callbacks = w.callbacks := by
  unfold enqueue
  split <;> rfl

@[simp] theorem enqueueResult_callbacks : w.enqueueResult.callbacks = w.callbacks := by
  unfold enqueueResult
  split <;> simp

@[simp] theorem publishDone_callbacks (status : UInt32) :
    (w.publishDone status).callbacks = w.callbacks := by
  unfold publishDone
  split <;> rfl

@[simp] theorem reserveResult_callbacks : w.reserveResult.callbacks = w.callbacks := by
  unfold reserveResult
  split <;> rfl

theorem queues_nothing (step : scanWorld.system.step w label after)
    (before : (w.callbacks callback).queuesDone = false)
    (loses : label ≠ .other (.swapActive callback true)) :
    (after.callbacks callback).queuesDone = false ∧
      ∀ queued, label ≠ .other (.queueDone callback queued) := by
  cases step with
  | mine acts =>
    rw [acts_callbacks acts]
    exact ⟨before, by simp⟩
  | other act =>
    cases act with
    | portState => exact ⟨before, by simp⟩
    | swapActive =>
      refine ⟨phase_queuesDone _ _ _ before fun same => ?_, by simp⟩
      cases flag : w.nativeScanActive with
      | true => exact absurd (by rw [flag, same]) loses
      | false => rfl
    | queueDone due =>
      refine ⟨phase_queuesDone _ _ _ (by simpa using before) fun _ => rfl, ?_⟩
      intro queued same
      simp only [SharedLabel.other.injEq, CallbackAct.queueDone.injEq] at same
      rw [← same.1, due] at before
      cases before
    | publishDone | queueResult | reserveResult =>
      exact ⟨phase_queuesDone _ _ _ (by simpa using before) fun _ => rfl, by simp⟩
    | _ =>
      refine ⟨phase_queuesDone w _ _ before fun _ => ?_, by simp⟩
      split <;> rfl

theorem run_queues_nothing (run : Run scanWorld.system w labels after)
    (before : (w.callbacks callback).queuesDone = false)
    (loses : .other (.swapActive callback true) ∉ labels) :
    (after.callbacks callback).queuesDone = false ∧
      ∀ queued, .other (.queueDone callback queued) ∉ labels := by
  have keeps (s : ScanGlobals) (label : ScanLabel) (t : ScanGlobals)
      (before : (s.callbacks callback).queuesDone = false) (step : scanWorld.system.step s label t)
      (loses : label ≠ .other (.swapActive callback true)) :=
    queues_nothing step before loses
  have ⟨after, silent⟩ := run.assuming keeps before fun _ member same => loses (same ▸ member)
  exact ⟨after, fun queued member => silent _ member queued rfl⟩

/-- Every callback that reaches the flag in these labels finds it off and queues no done. -/
def Silenced (labels : List ScanLabel) : Prop :=
  ∀ first callback won second, labels = first ++ .other (.swapActive callback won) :: second →
    won = false ∧ ∀ queued, .other (.queueDone callback queued) ∉ second

theorem silenced_of_closed (run : Run scanWorld.system w labels after)
    (closed : w.nativeScanActive = false) (opens : ∀ label ∈ labels, opensScan label = false) :
    Silenced labels := by
  have unwon := (run_stays_closed run closed opens).2
  intro first callback won second whole
  have lost : won = false := unwon (.other (.swapActive callback won)) (by simp [whole])
  refine ⟨lost, ?_⟩
  subst whole lost
  obtain ⟨before, middle, _, step, later⟩ := run.step_at
  have phase : (middle.callbacks callback).queuesDone = false := by
    generalize off : false = flag at step
    cases step with
    | other act =>
      cases act with
      | swapActive => simp [phase, ← off, CallbackPhase.queuesDone]
  refine (run_queues_nothing later phase ?_).2
  intro won
  have wins := unwon (.other (.swapActive callback true)) (by simp [won])
  cases wins

variable {standardL2 : Bool} {op : PortOp} {reply : op.Reply} {actions : List (Exchange scanAtoms)}

def PortOp.isStartScan : PortOp → Bool
  | .startScan => true
  | _ => false

/-- What is checked of each method: it captures only to start a scan, and then once, and it
answers with no error of the timeout class. -/
def Audited (op : PortOp) (reply : op.Reply) (actions : List (Exchange scanAtoms)) : Prop :=
  actions.countP capturing ≤ op.isStartScan.toNat ∧
    ∀ error, op.error? reply = some error → error.errorClass ≠ .operationTimeout

variable {A B : Type} {past : List (Exchange scanAtoms)}

variable {post : A → List (Exchange scanAtoms) → Prop} {atom : ScanAtom}

theorem ensures_after {next : atom.Reply → ScanProgram A}
    (later : ∀ reply, (next reply).Ensures post (past ++ [⟨atom, reply⟩])) :
    (perform atom >>= next).Ensures post past := later

theorem ensures_then {program : ScanProgram B} {next : B → ScanProgram A}
    {between : B → List (Exchange scanAtoms) → Prop} (first : program.Ensures between past)
    (later : ∀ b talk, between b talk → (next b).Ensures post talk) :
    (program >>= next).Ensures post past :=
  (Program.ensures_bind post program next past).mpr (first.mono later)

def captures (actions : List (Exchange scanAtoms)) : Nat := actions.countP capturing

@[simp] theorem captures_snoc (exchange : Exchange scanAtoms) :
    captures (past ++ [exchange]) = captures past + (capturing exchange).toNat := by
  unfold captures
  rw [List.countP_append, List.countP_singleton]
  cases capturing exchange <;> rfl

theorem audited_of_fine (bounded : captures actions ≤ op.isStartScan.toNat)
    (fine : op.error? reply = none) : Audited op reply actions := by
  refine ⟨bounded, ?_⟩
  intro error refused
  rw [fine] at refused
  cases refused

theorem captureWhenReady_spec (unopened : captures past = 0) :
    captureWhenReady.Ensures (fun _ talk => captures talk ≤ 1) past := by
  apply ensures_after
  intro ready
  split
  · show captures _ ≤ 1
    simp only [captures_snoc, capturing, toNat_false]
    omega
  apply ensures_after
  intro captured
  have bounded := toNat_le captured
  split
  · show captures _ ≤ 1
    simp only [captures_snoc, capturing, toNat_false]
    omega
  apply ensures_after
  intro status
  split
  · apply ensures_after
    intro _
    show captures _ ≤ 1
    simp only [captures_snoc, capturing, toNat_false]
    omega
  · apply ensures_after
    intro _
    show captures _ ≤ 1
    simp only [captures_snoc, capturing, toNat_false]
    omega

theorem beginScanCacheCapture_spec (standardL2 : Bool) :
    (beginScanCacheCapture standardL2).Ensures (fun _ talk => captures talk ≤ 1) [] := by
  have waits : (requireDisconnectReturned standardL2).Ensures
      (fun _ talk => captures talk = 0) [] := by
    cases standardL2 with
    | true =>
      intro reply
      rfl
    | false => exact (rfl : captures [] = 0)
  apply ensures_then waits
  intro returned talk unopened
  cases returned with
  | error => exact le_trans (le_of_eq unopened) (zero_le 1)
  | ok => exact captureWhenReady_spec unopened

def Untimed {A : Type} (reply : Except Ws63Error A) : Prop :=
  ∀ error, reply = .error error → error ≠ .timeout

theorem beginScan_spec (past : List (Exchange scanAtoms)) :
    beginScan.Ensures (fun reply talk => captures talk = captures past ∧ Untimed reply) past := by
  apply ensures_after
  intro started
  split
  · exact ⟨by simp only [captures_snoc]; rfl, by simp [Untimed]⟩
  · apply ensures_after
    intro result
    split
    · apply ensures_after
      intro _
      exact ⟨by simp only [captures_snoc]; rfl, by simp [Untimed]⟩
    · exact ⟨by simp only [captures_snoc]; rfl, by simp [Untimed]⟩

theorem startScan_spec (standardL2 : Bool) :
    (startScan standardL2).Ensures (Audited .startScan) [] := by
  apply ensures_then (beginScanCacheCapture_spec standardL2)
  intro capture talk once
  cases capture with
  | error error =>
    refine ⟨once, ?_⟩
    intro mapped same
    exact Option.some.inj same ▸ mapNativeError_not_timeout error
  | ok =>
    apply ensures_then (beginScan_spec talk)
    rintro begun later ⟨kept, untimed⟩
    cases begun with
    | error error =>
      apply ensures_after
      intro _
      apply ensures_after
      intro _
      refine ⟨?_, ?_⟩
      · show captures _ ≤ 1
        simp only [captures_snoc, kept, capturing, toNat_false]
        exact once
      · intro mapped same
        rw [← Option.some.inj same, Ne, mapError_timeout_iff]
        exact untimed error rfl
    | ok => exact audited_of_fine (le_trans (le_of_eq kept) once) rfl

theorem pollScan_spec : pollScan.Ensures (Audited .pollScan) [] := by
  apply ensures_after
  intro seen
  split
  · exact audited_of_fine (le_refl 0) rfl
  have releases : releaseScanResultsOnce.Ensures
      (fun reply talk => captures talk = 0 ∧ Untimed reply) ([] ++ [⟨.readScan, seen⟩]) := by
    apply ensures_after
    intro claimed
    split
    · exact ⟨rfl, by simp [Untimed]⟩
    · apply ensures_after
      intro status
      split
      · exact ⟨rfl, by simp [Untimed]⟩
      · apply ensures_after
        intro _
        exact ⟨rfl, by simp [Untimed]⟩
  apply ensures_then releases
  rintro release talk ⟨unopened, untimed⟩
  apply ensures_after
  intro _
  have still : captures (talk ++ [⟨.finishScan, ()⟩]) ≤ 0 := by
    simp only [captures_snoc, unopened, capturing, toNat_false]
    exact le_refl 0
  cases release with
  | error error =>
    refine ⟨still, ?_⟩
    intro mapped same
    rw [← Option.some.inj same, Ne, mapError_timeout_iff]
    exact untimed error rfl
  | ok =>
    dsimp only
    split
    · refine ⟨still, ?_⟩
      intro mapped same
      rw [← Option.some.inj same, Ne, mapError_timeout_iff]
      simp
    · exact audited_of_fine still rfl

theorem native_audited (silent : ∀ reply, capturing ⟨atom, reply⟩ = false)
    {answer : atom.Reply → op.Reply}
    (native : ∀ reply error, op.error? (answer reply) = some error →
      ∃ raw, error = mapNativeError raw) :
    (perform atom >>= fun reply => pure (answer reply)).Ensures (Audited op) [] := by
  apply ensures_after
  intro reply
  refine ⟨?_, ?_⟩
  · simp [silent]
  · intro error same
    obtain ⟨raw, rfl⟩ := native reply error same
    exact mapNativeError_not_timeout raw

theorem port_audited (standardL2 : Bool) (op : PortOp) :
    (portProgram standardL2 op).Ensures (Audited op) [] := by
  cases op with
  | startScan => exact startScan_spec standardL2
  | pollScan => exact pollScan_spec
  | configure config | connect site | disconnect site | finishDisconnect | poll budget | nextEvent =>
    apply native_audited fun _ => rfl
    rintro (raw | value) error same
    · exact ⟨raw, (Option.some.inj same).symm⟩
    · cases same
  | scanResult =>
    apply ensures_after
    intro seen
    split
    · exact audited_of_fine (le_refl 0) rfl
    · intro result
      exact audited_of_fine (le_refl 0) rfl
  | scanCachePending =>
    apply ensures_after
    intro active
    split
    · exact audited_of_fine (le_refl 0) rfl
    · intro pending
      exact audited_of_fine (le_refl 0) rfl
  | cancelScan =>
    intro _ _ _ _
    exact audited_of_fine (le_refl 0) rfl
  | _ =>
    intro reply
    exact audited_of_fine (le_refl 0) rfl

theorem claim_actions {claimed : Bool}
    (served : Program.Runs (portProgram standardL2 .tryClaimScanTimeout) actions claimed) :
    actions = [⟨.claimScanTimeout, claimed⟩] := by
  have single : (portProgram standardL2 .tryClaimScanTimeout).Ensures
      (fun reply (talk : List (Exchange scanAtoms)) => talk = [⟨.claimScanTimeout, reply⟩]) [] :=
    fun _ => rfl
  exact single.sound served

end HisiRf
