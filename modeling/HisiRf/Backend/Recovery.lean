import HisiRf.Backend.Life

/-! How often a Connect recovers, and what its reconnects wait for.

Two causes ask for a recovery disconnect. Both share one flag that waits for
the Disconnected event and one settle deadline. The counts hold whatever the
order; that a reconnect follows a Disconnected event of the latest recovery
needs that no recovery starts while the deadline of an earlier one is armed.
-/

namespace HisiRf

open Interaction PortOp ActiveOperation Nat Bool

namespace PortOp

def isStartConnect : PortOp → Bool
  | .connect .start => true
  | _ => false

def isSettledConnect : PortOp → Bool
  | .connect .settled => true
  | _ => false

def isRecovery : PortOp → Bool
  | .disconnect (.recovery _ _) => true
  | _ => false

def isFirstEapolRecovery : PortOp → Bool
  | .disconnect (.recovery firstEapol _) => firstEapol
  | _ => false

def isExternalAuthRecovery : PortOp → Bool
  | .disconnect (.recovery _ externalAuth) => externalAuth
  | _ => false

/-- The request is no connect and no recovery disconnect. -/
def plain : PortOp → Bool
  | .connect _ | .disconnect (.recovery _ _) => false
  | _ => true

variable {op : PortOp}

theorem plain_of_quiet (quiet : op.quiet = true) : op.plain = true := by
  cases op <;> first | rfl | cases quiet

structure Uncounted (op : PortOp) : Prop where
  connect : op.isConnect = false
  start : op.isStartConnect = false
  settled : op.isSettledConnect = false
  recovery : op.isRecovery = false
  first : op.isFirstEapolRecovery = false
  external : op.isExternalAuthRecovery = false

theorem uncounted_of_plain (plain : op.plain = true) : op.Uncounted := by
  cases op with
  | connect => cases plain
  | disconnect site =>
    cases site with
    | recovery => cases plain
    | _ => exact ⟨rfl, rfl, rfl, rfl, rfl, rfl⟩
  | _ => exact ⟨rfl, rfl, rfl, rfl, rfl, rfl⟩

end PortOp

namespace ActiveOperation

def unsubmitted (op : ActiveOperation) : Bool :=
  match op.startPhase with
  | .connectConfigure _ | .connectSubmit => true
  | _ => false

/-- Reconnects in store: one that waits for its event, one that waits for its deadline. -/
def pendingReconnects (op : ActiveOperation) : Nat :=
  op.reconnectAfterDisconnect.toNat + op.reconnectSubmitDeadlineUs.isSome.toNat

/-- The later record has the same marks and no new reconnect in store. -/
structure SameMarks (op later : ActiveOperation) : Prop where
  first : later.firstEapolReconnectSubmitted = op.firstEapolReconnectSubmitted
  external : later.externalAuthReconnectSubmitted = op.externalAuthReconnectSubmitted
  pending : later.pendingReconnects ≤ op.pendingReconnects
  unsubmitted : later.unsubmitted = true → op.unsubmitted = true

end ActiveOperation

structure Counts (talk : List PortCall) : Prop where
  first : calls isFirstEapolRecovery talk ≤ 1
  external : calls isExternalAuthRecovery talk ≤ 1
  starts : calls isStartConnect talk ≤ 1
  sum : calls isConnect talk =
    calls isStartConnect talk + calls isSettledConnect talk
  settled : calls isSettledConnect talk ≤
    calls isFirstEapolRecovery talk + calls isExternalAuthRecovery talk

/-- The flags of the operation against its conversation so far. -/
structure Flags (op : ActiveOperation) (talk : List PortCall) : Prop where
  first : op.firstEapolReconnectSubmitted = false → calls isFirstEapolRecovery talk = 0
  external : op.externalAuthReconnectSubmitted = false →
    calls isExternalAuthRecovery talk = 0
  silent : op.unsubmitted = true → calls isConnect talk = 0
  pending : calls isSettledConnect talk + op.pendingReconnects ≤
    calls isFirstEapolRecovery talk + calls isExternalAuthRecovery talk

structure Accounts (active : Option ActiveOperation) (talk : List PortCall) : Prop where
  counts : Counts talk
  flags : ∀ op, active = some op → Flags op talk

variable {active : Option ActiveOperation} {op later : ActiveOperation} {talk : List PortCall}
  {call : PortCall}

theorem Counts.say (counts : Counts talk) (plain : call.op.1.plain = true) :
    Counts (talk ++ [call]) := by
  obtain ⟨connect, start, settled, recovery, first, external⟩ := uncounted_of_plain plain
  constructor
  · rw [calls_plain first]
    exact counts.first
  · rw [calls_plain external]
    exact counts.external
  · rw [calls_plain start]
    exact counts.starts
  · rw [calls_plain connect, calls_plain start, calls_plain settled]
    exact counts.sum
  · rw [calls_plain settled, calls_plain first, calls_plain external]
    exact counts.settled

theorem Flags.say (flags : Flags op talk) (plain : call.op.1.plain = true) :
    Flags op (talk ++ [call]) := by
  obtain ⟨connect, start, settled, recovery, first, external⟩ := uncounted_of_plain plain
  constructor
  · rw [calls_plain first]
    exact flags.first
  · rw [calls_plain external]
    exact flags.external
  · rw [calls_plain connect]
    exact flags.silent
  · rw [calls_plain settled, calls_plain first, calls_plain external]
    exact flags.pending

theorem Flags.put (flags : Flags op talk) (same : op.SameMarks later) : Flags later talk := by
  constructor
  · rw [same.first]
    exact flags.first
  · rw [same.external]
    exact flags.external
  · intro unsubmitted
    exact flags.silent (same.unsubmitted unsubmitted)
  · have pending := flags.pending
    have kept := same.pending
    omega

namespace Accounts

section

variable (accounts : Accounts active talk)
include accounts

theorem say (plain : call.op.1.plain = true) : Accounts active (talk ++ [call]) :=
  ⟨accounts.counts.say plain, fun op found => (accounts.flags op found).say plain⟩

theorem clear : Accounts none talk := by
  refine ⟨accounts.counts, ?_⟩
  intro op impossible
  cases impossible

theorem replace (flags : Flags later talk) : Accounts (some later) talk := by
  refine ⟨accounts.counts, ?_⟩
  intro op found
  exact Option.some.inj found ▸ flags

theorem put (found : active = some op) (same : op.SameMarks later) : Accounts (some later) talk :=
  accounts.replace ((accounts.flags op found).put same)

variable {seen : PollState} (found : active = some op)
include found

theorem connect {site : ConnectSite} {reply : (connect site).Reply}
    (same : op.SameMarks later)
    (submitted : later.unsubmitted = false)
    (once : calls isStartConnect talk + (connect site).isStartConnect.toNat ≤ 1)
    (either : 1 = (connect site).isStartConnect.toNat + (connect site).isSettledConnect.toNat)
    (room : calls isSettledConnect talk + (connect site).isSettledConnect.toNat +
      later.pendingReconnects ≤
      calls isFirstEapolRecovery talk + calls isExternalAuthRecovery talk) :
    Accounts (some later) (talk ++ [⟨(.connect site, seen), reply⟩]) := by
  have counts := accounts.counts
  have flags := (accounts.flags op found).put same
  have sum := counts.sum
  constructor
  · constructor <;> simp only [calls_snoc]
    · exact counts.first
    · exact counts.external
    · exact once
    · simp only [isConnect, toNat_true]
      omega
    · exact (le_add_right _ _).trans room
  intro last same
  cases same
  constructor <;> simp only [calls_snoc]
  · exact flags.first
  · exact flags.external
  · intro still
    cases submitted.symm.trans still
  · exact room

theorem start {reply : (PortOp.connect .start).Reply}
    (unsubmitted : op.unsubmitted = true) (same : op.SameMarks later)
    (submitted : later.unsubmitted = false) :
    Accounts (some later) (talk ++ [⟨(.connect .start, seen), reply⟩]) := by
  have flags := accounts.flags op found
  have sum := accounts.counts.sum
  have silent := flags.silent unsubmitted
  refine accounts.connect found same submitted ?_ rfl (flags.put same).pending
  simp only [isStartConnect, toNat_true]
  omega

theorem settle {reply : (PortOp.connect .settled).Reply}
    (same : op.SameMarks later) (submitted : op.unsubmitted = false)
    (used : later.pendingReconnects + 1 = op.pendingReconnects) :
    Accounts (some later) (talk ++ [⟨(.connect .settled, seen), reply⟩]) := by
  have pending := (accounts.flags op found).pending
  refine accounts.connect found same ?_ accounts.counts.starts rfl ?_
  · apply eq_false_iff.mpr
    intro still
    cases submitted.symm.trans (same.unsubmitted still)
  · simp only [isSettledConnect, toNat_true]
    omega

/-- A recovery disconnect marks its causes and stores at most one reconnect. -/
theorem recover {firstEapol externalAuth : Bool} {recovering : ActiveOperation}
    {reply : (disconnect (.recovery firstEapol externalAuth)).Reply}
    {recovery : UInt32} {stalled : Bool} {nowUs : UInt64}
    (causes : op.recovering recovery stalled nowUs = (firstEapol, externalAuth, recovering))
    (due : (firstEapol || externalAuth) = true)
    (first : later.firstEapolReconnectSubmitted = recovering.firstEapolReconnectSubmitted)
    (external : later.externalAuthReconnectSubmitted = recovering.externalAuthReconnectSubmitted)
    (stored : later.pendingReconnects ≤ recovering.pendingReconnects + 1)
    (unsubmitted : later.unsubmitted = recovering.unsubmitted) : Accounts (some later)
      (talk ++ [⟨(.disconnect (.recovery firstEapol externalAuth), seen), reply⟩]) := by
  obtain ⟨⟨_, _, same⟩, freshFirst, freshExternal⟩ :=
    recovering_eq op recovery stalled nowUs
  rw [causes] at same freshFirst freshExternal
  dsimp only at same
  subst same
  change _ ≤ op.pendingReconnects + 1 at stored
  have counts := accounts.counts
  have flags := accounts.flags op found
  have room : op.pendingReconnects + 1 + calls isSettledConnect talk ≤
      calls isFirstEapolRecovery talk + firstEapol.toNat +
        (calls isExternalAuthRecovery talk + externalAuth.toNat) := by
    have pending := flags.pending
    have one : 1 ≤ firstEapol.toNat + externalAuth.toNat := by
      cases firstEapol <;> cases externalAuth <;> first | decide | cases due
    omega
  constructor
  · constructor <;> simp only [calls_snoc, isConnect, isStartConnect,
      isSettledConnect, isFirstEapolRecovery, isExternalAuthRecovery,
      toNat_false, add_zero]
    · cases firstEapol with
      | true => rw [flags.first (freshFirst rfl)]; decide
      | false => exact counts.first
    · cases externalAuth with
      | true => rw [flags.external (freshExternal rfl)]; decide
      | false => exact counts.external
    · exact counts.starts
    · exact counts.sum
    · omega
  intro last same
  cases same
  constructor <;> simp only [calls_snoc, isConnect, isSettledConnect,
    isFirstEapolRecovery, isExternalAuthRecovery, toNat_false, add_zero]
  · intro unmarked
    rw [first, or_eq_false_iff] at unmarked
    rw [flags.first unmarked.1, unmarked.2]
    rfl
  · intro unmarked
    rw [external, or_eq_false_iff] at unmarked
    rw [flags.external unmarked.1, unmarked.2]
    rfl
  · intro still
    exact flags.silent (unsubmitted.symm.trans still)
  · omega

end

end Accounts

theorem observed_marks (op : ActiveOperation) (event : Event) (nowUs : UInt64) :
    op.SameMarks (op.observed event nowUs) := by
  obtain ⟨status, same⟩ := observed_eq op event nowUs
  rw [same]
  refine ⟨rfl, rfl, ?_, id⟩
  unfold pendingReconnects
  by_cases arming : op.arms event = true
  · have waiting : op.reconnectAfterDisconnect = true := by
      simp only [arms, and_eq_true] at arming
      exact arming.1.1
    rw [if_pos arming, if_pos arming, waiting]
    simp
  · exact le_of_eq (by rw [if_neg arming, if_neg arming])

variable {call : PortOp} {nowUs : UInt64}

theorem submission_of_connect (due : op.submission = some (.connect .start)) :
    op.unsubmitted = true := by
  unfold submission at due
  split at due
  · cases due
  · split at due
    · split at due <;> cases due
    · unfold unsubmitted
      cases phase : op.startPhase <;> rw [phase] at due <;> first | rfl | cases due

theorem submission_plain (due : op.submission = some call) :
    call = .connect .start ∨ call.plain = true := by
  unfold submission at due
  split at due
  · cases due
  split at due
  · split at due
    · cases due
      exact .inr rfl
    · cases due
  · split at due <;> cases due
    · exact .inr rfl
    · exact .inr rfl
    · exact .inl rfl
    · exact .inr rfl

theorem submitting_marks (op : ActiveOperation) : op.SameMarks op.submitting := by
  refine ⟨rfl, rfl, le_refl _, ?_⟩
  intro impossible
  cases impossible

theorem submitted_marks (due : op.submission = some call) :
    op.SameMarks (op.submitting.submitted call) := by
  have marks := submitting_marks op
  unfold submitted
  split
  · refine ⟨rfl, rfl, le_refl _, ?_⟩
    intro _
    -- Only a queued configuration is answered by the second start phase.
    unfold submission at due
    split at due
    · cases due
    · split at due
      · split at due <;> cases due
      · unfold unsubmitted
        cases phase : op.startPhase <;> rw [phase] at due <;> first | rfl | cases due
  · exact ⟨rfl, rfl, le_refl _, marks.unsubmitted⟩
  · exact marks

theorem recovering_marks {recovery : UInt32} {stalled : Bool}
    (early : (op.recovering recovery stalled nowUs).1 = false ∧
      (op.recovering recovery stalled nowUs).2.1 = false) :
    op.SameMarks (op.recovering recovery stalled nowUs).2.2 := by
  obtain ⟨⟨first, second, same⟩, _⟩ := recovering_eq op recovery stalled nowUs
  rw [early.1, early.2, Bool.or_false, Bool.or_false] at same
  rw [same]
  exact ⟨rfl, rfl, le_refl _, fun still => still⟩

theorem settled_marks (settled : (op.takeReconnectWhenSettled nowUs).1 = true) :
    ∃ deadline, op.reconnectSubmitDeadlineUs = some deadline ∧ deadline ≤ nowUs ∧
      (op.takeReconnectWhenSettled nowUs).2 = { op with reconnectSubmitDeadlineUs := none } := by
  unfold takeReconnectWhenSettled at settled ⊢
  split at settled
  · rename_i due
    rw [if_pos due]
    cases armed : op.reconnectSubmitDeadlineUs with
    | none =>
      rw [armed] at due
      cases due
    | some deadline =>
      rw [armed] at due
      exact ⟨deadline, rfl, of_decide_eq_true due, rfl⟩
  · cases settled

theorem request_stores (op : ActiveOperation) :
    op.requestReconnectAfterDisconnect.pendingReconnects ≤ op.pendingReconnects + 1 := by
  simp only [pendingReconnects,
    requestReconnectAfterDisconnect, toNat_true]
  omega

theorem Move.keeps_accounts {before after : Moment} (move : Move before after)
    (accounts : Accounts before.state.active before.talk) :
    Accounts after.state.active after.talk := by
  cases move with
  | ask op reply quiet => exact accounts.say (plain_of_quiet quiet)
  | claim => exact accounts.say rfl
  | clear => exact accounts.clear
  | @submit op active call due =>
    rcases submission_plain due with rfl | plain
    · exact accounts.start active (submission_of_connect due) (submitting_marks op) rfl
    · exact (accounts.put active (submitting_marks op)).say plain
  | @accept op active call due =>
    rcases submission_plain due with rfl | plain
    · exact accounts.start active (submission_of_connect due) (submitting_marks op) rfl
    · exact (accounts.say plain).put active (submitted_marks due)
  | @observe op active ready event nowUs =>
    have said : Accounts before.state.active
        (before.talk ++ [⟨(.nextEvent, before.state), .ok (some event)⟩] ++
          [⟨(.nowUs, before.state), nowUs⟩]) := (accounts.say rfl).say rfl
    exact said.put active (observed_marks op event nowUs)
  | @settle op active ready nowUs settled =>
    obtain ⟨deadline, armed, _, same⟩ := settled_marks settled
    have asked : Accounts before.state.active
        (before.talk ++ [⟨(.nowUs, before.state), nowUs⟩]) := accounts.say rfl
    have marks : op.SameMarks (op.takeReconnectWhenSettled nowUs).2 := by
      rw [same]
      refine ⟨rfl, rfl, ?_, fun still => still⟩
      simp only [pendingReconnects, Option.isSome_none, toNat_false]
      omega
    have submitted : op.unsubmitted = false := by
      unfold unsubmitted
      rw [ready]
    have used : (op.takeReconnectWhenSettled nowUs).2.pendingReconnects + 1 =
        op.pendingReconnects := by
      rw [same]
      simp [pendingReconnects, armed]
    exact asked.settle active marks submitted used
  | defer active recovery stalled nowUs early =>
    exact accounts.put active (recovering_marks early)
  | recover active recovery stalled nowUs firstEapol externalAuth due =>
    obtain ⟨rfl, rfl, submits⟩ := due
    exact accounts.recover active rfl submits rfl rfl (le_succ _) rfl
  | request active recovery stalled nowUs firstEapol externalAuth due =>
    obtain ⟨rfl, rfl, submits⟩ := due
    exact accounts.recover active rfl submits rfl rfl (request_stores _) rfl
  | scan active | retime active =>
    exact accounts.put active ⟨rfl, rfl, le_refl _, fun still => still⟩
  | @terminate op active => exact accounts.put active (submitting_marks op)
  | finish active =>
    apply accounts.put active
    refine ⟨rfl, rfl, le_refl _, ?_⟩
    intro impossible
    cases impossible

end HisiRf
