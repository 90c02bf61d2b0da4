import HisiRf.Backend.Life
import HisiRf.Scan.Transaction

/-! A scan operation times out only by winning its transaction.

The polls of the operation and the vendor callbacks interleave at every atomic
action. The operation starts its scan before it ever claims a timeout, and it
starts it once, so the transaction that a claim closes is the operation's own.
-/

namespace HisiRf

open Interaction ActiveOperation PortOp List Option

def PortOp.isClaim : PortOp → Bool
  | .tryClaimScanTimeout => true
  | _ => false

def StartsFirst (talk : List PortCall) : Prop :=
  ∀ first call second, talk = first ++ call :: second → call.op.1.isClaim = true →
    calls isStartScan second = 0

variable {talk : List PortCall}

variable {call : PortCall}

theorem calls_eq_zero {test : PortOp → Bool} :
    calls test talk = 0 ↔ ∀ call ∈ talk, test call.op.1 = false := by
  simp [calls, countP_eq_zero]

theorem StartsFirst.say (starts : StartsFirst talk)
    (fresh : call.op.1.isStartScan = false ∨ calls isClaim talk = 0) :
    StartsFirst (talk ++ [call]) := by
  intro first claim second whole claims
  rcases eq_nil_or_concat second with rfl | ⟨rest, last, rfl⟩
  · rfl
  rw [concat_eq_append] at whole ⊢
  have shifted : talk ++ [call] = (first ++ claim :: rest) ++ [last] := by simp [whole]
  obtain ⟨same, sameLast⟩ := append_inj' shifted rfl
  cases sameLast
  rw [calls_snoc, starts first claim rest same claims]
  rcases fresh with other | unclaimed
  · rw [other]
    rfl
  · have silent := calls_eq_zero.mp unclaimed claim (by simp [same])
    rw [claims] at silent
    cases silent

structure ScanCalls (active : Option ActiveOperation) (talk : List PortCall) : Prop where
  kind : ∀ op, active = some op → op.kind = .scan
  phase : ∀ op, active = some op → op.startPhase = .ready ∨
    op.startPhase = .scan ∧ calls isStartScan talk = 0 ∧ calls isClaim talk = 0
  once : calls isStartScan talk ≤ 1
  order : StartsFirst talk

namespace ScanCalls

variable {active : Option ActiveOperation} {op later : ActiveOperation}

section

variable (scan : ScanCalls active talk)
include scan

theorem say (start : call.op.1.isStartScan = false)
    (claim : call.op.1.isClaim = false) : ScanCalls active (talk ++ [call]) := by
  refine ⟨scan.kind, ?_, ?_, scan.order.say (.inl start)⟩
  · intro op found
    rw [calls_plain start, calls_plain claim]
    exact scan.phase op found
  · rw [calls_plain start]
    exact scan.once

theorem clear : ScanCalls none talk := by
  refine ⟨?_, ?_, scan.once, scan.order⟩
  · intro op found
    cases found
  · intro op found
    cases found

variable (found : active = some op)
include found

theorem put
    (kind : later.kind = op.kind) (phase : later.startPhase = op.startPhase) :
    ScanCalls (some later) talk := by
  refine ⟨?_, ?_, scan.once, scan.order⟩
  · intro other same
    rw [← some.inj same, kind]
    exact scan.kind op found
  · intro other same
    rw [← some.inj same, phase]
    exact scan.phase op found

theorem start {seen : PollState} {reply : PortOp.startScan.Reply}
    (due : op.startPhase = .scan) :
    ScanCalls (some op.submitting) (talk ++ [⟨(.startScan, seen), reply⟩]) := by
  have fresh : calls isStartScan talk = 0 ∧ calls isClaim talk = 0 := by
    rcases scan.phase op found with ready | ⟨_, none, unclaimed⟩
    · rw [ready] at due
      cases due
    · exact ⟨none, unclaimed⟩
  refine ⟨?_, ?_, ?_, scan.order.say (.inr fresh.2)⟩
  · intro other same
    rw [← some.inj same]
    exact scan.kind op found
  · intro other same
    rw [← some.inj same]
    exact .inl rfl
  · rw [calls_snoc, fresh.1]
    exact Nat.le_refl 1

theorem claim {seen : PollState} {reply : Bool}
    (ready : op.startPhase = .ready) :
    ScanCalls active (talk ++ [⟨(.tryClaimScanTimeout, seen), reply⟩]) := by
  refine ⟨scan.kind, ?_, ?_, scan.order.say (.inl rfl)⟩
  · intro other same
    rw [found] at same
    exact .inl (some.inj same ▸ ready)
  · rw [calls_plain rfl]
    exact scan.once

theorem submission {due : PortOp}
    (submits : op.submission = some due) : due = .startScan ∧ op.startPhase = .scan := by
  have kind := scan.kind op found
  unfold ActiveOperation.submission at submits
  rcases scan.phase op found with ready | ⟨unstarted, _⟩
  · simp [kind, ready, OperationKind.isConnect] at submits
  · simp [kind, unstarted, OperationKind.isConnect] at submits
    exact ⟨submits.2.symm, unstarted⟩

end

end ScanCalls

theorem Move.keeps_scanCalls {before after : Moment} (move : Move before after)
    (scan : ScanCalls before.state.active before.talk) :
    ScanCalls after.state.active after.talk := by
  cases move with
  | ask op reply quiet =>
    have plain : op.isStartScan = false ∧ op.isClaim = false := by
      cases op <;> first | exact ⟨rfl, rfl⟩ | cases quiet
    exact scan.say plain.1 plain.2
  | claim active ready => exact scan.claim active ready
  | clear => exact scan.clear
  | @submit op active call due | @accept op active call due =>
    obtain ⟨rfl, unstarted⟩ := scan.submission active due
    exact scan.start active unstarted
  | @observe op active ready event nowUs =>
    obtain ⟨same, phase⟩ := observed_same op event nowUs
    exact ((scan.say rfl rfl).say rfl rfl).put active same.kind phase
  | @settle op active ready nowUs =>
    obtain ⟨same, phase⟩ := takeReconnectWhenSettled_same op nowUs
    exact ((scan.say rfl rfl).put active same.kind phase).say rfl rfl
  | @defer op active recovery stalled nowUs =>
    obtain ⟨same, phase⟩ := recovering_same op recovery stalled nowUs
    exact scan.put active same.kind phase
  | @recover op active recovery stalled nowUs =>
    obtain ⟨same, phase⟩ := recovering_same op recovery stalled nowUs
    exact (scan.put active same.kind phase).say rfl rfl
  | @request op active recovery stalled nowUs =>
    obtain ⟨same, phase⟩ := recovering_same op recovery stalled nowUs
    exact ((scan.put active same.kind phase).say rfl rfl).put rfl rfl rfl
  | scan active | retime active => exact scan.put active rfl rfl
  | @terminate op active finishing =>
    rcases scan.phase op active with ready | ⟨unstarted, _⟩
    · rw [ready] at finishing
      cases finishing
    · rw [unstarted] at finishing
      cases finishing
  | @finish op active disconnects =>
    rw [scan.kind op active] at disconnects
    cases disconnects

variable {platform : Platform} {id : OperationId} {config : ScanConfig} {nowUs : UInt64}
  {labels : List LifeLabel} {active : Option ActiveOperation}

theorem scanCalls_of_life
    (run : Run (life platform) (some (.fromRequest id (.scan config) nowUs)) labels active) :
    ScanCalls active (conversation labels) := by
  apply life_invariant (fun _ _ move => move.keeps_scanCalls) ?_ run
  · refine ⟨?_, ?_, Nat.zero_le 1, ?_⟩
    · intro op found
      exact some.inj found ▸ rfl
    · intro op found
      exact .inr ⟨some.inj found ▸ rfl, rfl, rfl⟩
    · intro first call second whole
      simp at whole
  · intro op talk scan
    exact scan.put rfl rfl rfl

/-- A poll of a scan fails with a timeout only after a won claim: no method of the port
answers with an error of that class. -/
theorem claimed_of_timeout {earlier : List LifeLabel} {error : BackendError}
    (run : Run (life platform) (some (.fromRequest id (.scan config) nowUs))
      (earlier ++ [.poll talk (.error error)]) active)
    (audited : ∀ call ∈ talk, ∀ refusal, callError? call = some refusal →
      refusal.errorClass ≠ .operationTimeout) (timeout : error.errorClass = .operationTimeout) :
    Claimed talk := by
  obtain ⟨slot, before, step⟩ := run.last
  have scan := scanCalls_of_life before
  cases step with
  | poll polled =>
    rcases poll_owned_or_stale [] polled with ⟨first, found, _, startedUs, left⟩ | ⟨failed, _, _⟩
    · simp only [nil_append] at left
      have ends := left.ends
      generalize failure : (Except.error error : PollReturn) = result at ends
      cases ends with
      | failed idle cause =>
        cases failure
        rcases cause timeout with ⟨call, member, refusal⟩ | (other | finishing) | claimed
        · exact absurd timeout (audited call member error refusal)
        · exact absurd (scan.kind first found) other
        · rcases scan.phase first found with ready | ⟨unstarted, _⟩
          · rw [ready] at finishing
            cases finishing
          · rw [unstarted] at finishing
            cases finishing
        · exact claimed
      | @refused _ op call reply state seen activeLater same due refusal =>
        cases failure
        exact absurd timeout (audited ⟨(call, seen), reply⟩ (by simp) error refusal)
      | going | finished => cases failure
    · cases failed
      exact absurd timeout (by decide)

variable {standardL2 : Bool} {w after : ScanGlobals} {labels first second : List ScanLabel}

abbrev wonClaim : ScanLabel := .mine ⟨.claimScanTimeout, true⟩

theorem opens_captures {label : ScanLabel} (member : label ∈ labels)
    (opens : opensScan label = true) : 0 < captures (mine labels) := by
  cases label with
  | other => cases opens
  | mine exchange => exact countP_pos_iff.mpr ⟨exchange, mem_mine.mpr member, opens⟩

theorem captures_le_starts (realized : ScanRealizes standardL2 w talk labels after) :
    captures (mine labels) ≤ calls isStartScan talk := by
  apply realized.count_mine_le
  intro call actions served
  have audited := (port_audited standardL2 call.op.1).sound served
  simpa using audited.1

/-- A won claim of the conversation is a label of the world's run, and no capture follows it. -/
theorem claim_located (realized : ScanRealizes standardL2 w talk labels after)
    (claimed : Claimed talk) (starts : StartsFirst talk) :
    ∃ first second, labels = first ++ wonClaim :: second ∧
      ∀ label ∈ second, opensScan label = false := by
  obtain ⟨seen, op, _, _, member⟩ := claimed
  obtain ⟨leading, trailing, rfl⟩ := append_of_mem member
  have unstarted := starts leading _ trailing rfl rfl
  obtain ⟨early, late, middle, rfl, _, behind⟩ := realized.split
  cases behind with
  | @call _ between _ _ _ head tail run served later =>
    obtain ⟨first, second, rfl, _, silent⟩ := mine_eq_cons (claim_actions served)
    refine ⟨early ++ first, second ++ tail, by simp, ?_⟩
    intro label member
    by_contra opens
    rw [Bool.not_eq_false] at opens
    rcases mem_append.mp member with here | there
    · have captured := opens_captures here opens
      rw [silent] at captured
      cases captured
    · have captured := opens_captures there opens
      have bounded := captures_le_starts later
      omega

/-- The poll's own claim switched the flag off while no total had been seen. From then on, until
another scan is captured, a callback finds the flag off and queues no done event. -/
def ClaimWon (talk : List PortCall) (w : ScanGlobals) (labels : List ScanLabel)
    (after : ScanGlobals) : Prop :=
  Claimed talk ∧ ∃ first second before behind, labels = first ++ wonClaim :: second ∧
    Run scanWorld.system w first before ∧ before.nativeScanActive = true ∧
    behind.nativeScanActive = false ∧ Run scanWorld.system behind second after ∧
    ∀ more final, Run scanWorld.system after more final →
      (∀ label ∈ more, opensScan label = false) → Silenced (second ++ more)

/-- A callback switched the flag off, and the operation did not open its transaction after. -/
def CallbackFirst (labels : List ScanLabel) : Prop :=
  ∃ first callback second, labels = first ++ .other (.swapActive callback true) :: second ∧
    ((∃ label ∈ first, opensScan label = true) ∨ ∀ label ∈ second, opensScan label = false)

section

variable (run : Run scanWorld.system w (first ++ wonClaim :: second) after)
include run

theorem claimWon_of_located (claimed : Claimed talk)
    (opens : ∀ label ∈ second, opensScan label = false) :
    ClaimWon talk w (first ++ wonClaim :: second) after := by
  obtain ⟨before, behind, earlier, step, later⟩ := run.step_at
  obtain ⟨set, reset⟩ := wins_switches step rfl
  refine ⟨claimed, first, second, before, behind, rfl, earlier, set, reset, later, ?_⟩
  intro more final extended unopened
  apply silenced_of_closed (later.trans extended) reset
  exact forall_mem_append.mpr ⟨opens, unopened⟩

/-- With at most one capture in the run, a winning claim leaves no room for a callback. -/
theorem not_callbackFirst (opens : ∀ label ∈ second, opensScan label = false)
    (once : captures (mine (first ++ wonClaim :: second)) ≤ 1) :
    ¬CallbackFirst (first ++ wonClaim :: second) := by
  rintro ⟨leading, callback, trailing, whole, order⟩
  rcases append_eq_append_iff.mp whole with ⟨gap, split, rest⟩ | ⟨gap, split, rest⟩
  · -- the swap comes after the claim
    cases gap with
    | nil => cases rest
    | cons =>
      obtain ⟨_, tail⟩ := cons.inj rest
      have lost := one_winner run rfl opens (.other (.swapActive callback true)) (by simp [tail])
      cases lost
  -- the swap comes first, so a capture lies between it and the claim
  cases gap with
  | nil => cases rest
  | cons =>
    obtain ⟨_, tail⟩ := cons.inj rest
    have reopened : ¬∀ label ∈ trailing, opensScan label = false := by
      intro unopened
      rw [whole] at run
      have lost := one_winner run rfl unopened wonClaim (by simp [tail])
      cases lost
    rcases order with ⟨label, member, opened⟩ | unopened
    · have early := opens_captures member opened
      simp only [not_forall, Bool.not_eq_false] at reopened
      obtain ⟨later, found, reopens⟩ := reopened
      have late := opens_captures found reopens
      rw [whole, mine_append, mine_other] at once
      simp only [captures, countP_append] at early late once
      omega
    · exact reopened unopened

end

/-- Of a scan operation and the vendor's callbacks one side claims the transaction: a poll that
fails with a timeout has won the claim, and none does once a callback has cleared the flag. -/
theorem scan_timeout_claims_transaction {platform : Platform} {standardL2 : Bool}
    {id : OperationId} {config : ScanConfig} {nowUs : UInt64} {earlier : List LifeLabel}
    {talk : List PortCall} {result : PollReturn} {active : Option ActiveOperation}
    {w middle after : ScanGlobals} {past now : List ScanLabel}
    (run : Run (life platform) (some (.fromRequest id (.scan config) nowUs))
      (earlier ++ [.poll talk result]) active)
    (before : ScanRealizes standardL2 w (conversation earlier) past middle)
    (during : ScanRealizes standardL2 middle talk now after) :
    (∀ error, result = .error error → error.errorClass = .operationTimeout →
      ClaimWon talk middle now after) ∧ (CallbackFirst (past ++ now) →
      ∀ error, result = .error error → error.errorClass ≠ .operationTimeout) := by
  have scan := scanCalls_of_life run
  rw [conversation_append, conversation_single] at scan
  have audited : ∀ call ∈ talk, ∀ refusal, callError? call = some refusal →
      refusal.errorClass ≠ .operationTimeout := by
    intro call member refusal same
    obtain ⟨actions, served⟩ := during.served call member
    exact ((port_audited standardL2 call.op.1).sound served).2 refusal same
  have located : ∀ error, result = .error error → error.errorClass = .operationTimeout →
      Claimed talk ∧ ∃ first second, now = first ++ wonClaim :: second ∧
        ∀ label ∈ second, opensScan label = false := by
    intro error failed timeout
    subst failed
    have claimed := claimed_of_timeout run audited timeout
    have starts : StartsFirst talk := by
      intro first call second whole claims
      refine scan.order (conversation earlier ++ first) call second ?_ claims
      simp [whole, LifeLabel.talk]
    exact ⟨claimed, claim_located during claimed starts⟩
  constructor
  · intro error failed timeout
    obtain ⟨claimed, first, second, rfl, opens⟩ := located error failed timeout
    exact claimWon_of_located during.run claimed opens
  intro callbackFirst error failed timeout
  obtain ⟨_, first, second, rfl, opens⟩ := located error failed timeout
  have once : captures (mine (past ++ (first ++ wonClaim :: second))) ≤ 1 := by
    have early := captures_le_starts before
    have late := captures_le_starts during
    have bound := scan.once
    simp only [captures, calls, LifeLabel.talk, mine_append, countP_append] at early late bound ⊢
    omega
  have whole := before.run.trans during.run
  rw [← append_assoc] at whole callbackFirst once
  exact not_callbackFirst whole opens once callbackFirst

/-! A scan whose vendor never reports: the runner is alone with the globals. -/

def idleGlobals : ScanGlobals :=
  ⟨true, false, [], 0, ⟨false, false, 0, .success, true⟩, fun _ => .idle⟩

/-- Native calls succeed at once, and the clock stands still during a poll. -/
def steadyAtom (nowUs : UInt64) (w : ScanGlobals) : (atom : ScanAtom) → atom.Reply × ScanGlobals
  | .requireDisconnectReturned | .submitNative _ => (.ok (), w)
  | .loadPortReady => (w.portReady, w)
  | .captureScan => (!w.nativeScanActive, { w with nativeScanActive := true })
  | .beginScanCapture | .scanIoctl => (0, w)
  | .releaseScan => ((), { w with nativeScanActive := false })
  | .beginTransaction => ((), { w with acceptedResults := 0 })
  | .loadScanActive => (w.nativeScanActive, w)
  | .queuePending => (!w.queue.isEmpty, w)
  | .claimScanTimeout => (w.nativeScanActive, { w with nativeScanActive := false })
  | .discardPending => ((), { w with queue := [] })
  | .openScan =>
    (!w.scan.active,
      if w.scan.active then w else { w with scan := ⟨true, false, 0, .success, false⟩ })
  | .finishScan => ((), { w with scan := { w.scan with active := false } })
  | .readScan => (w.scan, w)
  | .claimRelease =>
    (!w.scan.resultsReleased, { w with scan := { w.scan with resultsReleased := true } })
  | .clearResults => (0, w)
  | .unclaimRelease => ((), { w with scan := { w.scan with resultsReleased := false } })
  | .loadResult _ => (none, w)
  | .forceScanComplete => ((), w)
  | .pollNative _ => (.ok ⟨0, 0, Machine.wordMax⟩, { w with queue := w.queue.drop 0 })
  | .nextNative => (.ok none, w)
  | .observe op => (SteadyPort.reply { nowUs := nowUs } op, w)

theorem steadyAtom_acts (nowUs : UInt64) (w : ScanGlobals) (atom : ScanAtom) :
    atom.acts w (steadyAtom nowUs w atom).1 (steadyAtom nowUs w atom).2 := by
  cases atom with
  | loadPortReady | captureScan | loadScanActive | queuePending | claimScanTimeout | openScan
  | readScan | claimRelease => exact ⟨rfl, rfl⟩
  | pollNative => exact ⟨0, rfl⟩
  | _ => rfl

def servedPoll (nowUs : UInt64) (active : Option ActiveOperation) (w : ScanGlobals) :
    List PortCall × (PollReturn × PollState) × ScanGlobals :=
  (pollProgram anyReport ⟨1⟩ .command oneEvent ⟨active, []⟩).serve
    (serveCall (fun call => portProgram false call.1) (steadyAtom nowUs)) w

theorem servedPoll_step (nowUs : UInt64) (active : Option ActiveOperation) (w : ScanGlobals) :
    LifeStep anyReport active
      (.poll (servedPoll nowUs active w).1 (servedPoll nowUs active w).2.1.1)
      (servedPoll nowUs active w).2.1.2.active :=
  .poll ((pollProgram anyReport ⟨1⟩ .command oneEvent ⟨active, []⟩).serve_runs _ w)

theorem servedPoll_realizes (nowUs : UInt64) (active : Option ActiveOperation) (w : ScanGlobals) :
    ∃ labels, ScanRealizes false w (servedPoll nowUs active w).1 labels
      (servedPoll nowUs active w).2.2 :=
  serve_realizes (steadyAtom_acts nowUs) _ w

def startedScan := servedPoll 0 (some queuedScan) idleGlobals
def expiredScan := servedPoll 1000000 startedScan.2.1.2.active startedScan.2.2

def isTimeout : PollReturn → Bool
  | .error error => error.errorClass == .operationTimeout
  | .ok _ => false

theorem expired_scan_claims_transaction : isTimeout expiredScan.2.1.1 = true ∧
      ∃ now, ClaimWon expiredScan.1 startedScan.2.2 now expiredScan.2.2 := by
  have timeout : isTimeout expiredScan.2.1.1 = true := by decide +kernel
  have first : (life anyReport).step (some queuedScan) (.poll startedScan.1 startedScan.2.1.1)
      startedScan.2.1.2.active := servedPoll_step 0 _ _
  have second : (life anyReport).step startedScan.2.1.2.active
      (.poll expiredScan.1 expiredScan.2.1.1) expiredScan.2.1.2.active := servedPoll_step 1000000 _ _
  obtain ⟨past, before⟩ := servedPoll_realizes 0 (some queuedScan) idleGlobals
  obtain ⟨now, during⟩ := servedPoll_realizes 1000000 startedScan.2.1.2.active startedScan.2.2
  have alone : ScanRealizes false idleGlobals
      (conversation [.poll startedScan.1 startedScan.2.1.1]) past startedScan.2.2 := by
    exact before
  have claims :=
    scan_timeout_claims_transaction ((Run.start.next first).next second) alone during
  refine ⟨timeout, now, ?_⟩
  cases ended : expiredScan.2.1.1 with
  | error error =>
    rw [ended] at timeout
    exact claims.1 error ended (by simpa [isTimeout] using timeout)
  | ok =>
    rw [ended] at timeout
    cases timeout

end HisiRf
