import HisiRf.Backend.Recovery

/-! What a reconnect has waited for when it is called. -/

namespace HisiRf

open Interaction List ActiveOperation

def PortOp.event? : (op : PortOp) → op.Reply → Option Event
  | .nextEvent, .ok event => event
  | _, _ => none

def PortOp.reading? : (op : PortOp) → op.Reply → Option UInt64
  | .nowUs, time => some time
  | _, _ => none

def callEvent? (call : PortCall) : Option Event := call.op.1.event? call.reply

def callReading? (call : PortCall) : Option UInt64 := call.op.1.reading? call.reply

/-- A Disconnected event, read at `eventUs`, that no recovery disconnect has followed. -/
def DisconnectObserved (talk : List PortCall) (eventUs : UInt64) : Prop :=
  ∃ before seen event read after,
    talk = before ++ ⟨(.nextEvent, seen), .ok (some event)⟩ :: ⟨(.nowUs, read), eventUs⟩ :: after ∧
    classifyNativeConnectEvent event.kind = .disconnected ∧
    ∀ call ∈ after, call.op.1.isRecovery = false

/-- The last clock reading is at least the settle delay after such an event. -/
def Waited (before : List PortCall) : Prop :=
  ∃ talk read nowUs eventUs, before = talk ++ [⟨(.nowUs, read), nowUs⟩] ∧
    DisconnectObserved talk eventUs ∧ eventUs.toNat + reconnectSettleUs.toNat ≤ nowUs.toNat

def ReconnectsWait (talk : List PortCall) : Prop :=
  ∀ before call after, talk = before ++ call :: after → call.op.1.isConnect = true →
    0 < calls PortOp.isConnect before → Waited before

/-- No recovery disconnect is submitted while a settle deadline is armed, and none is armed so
late that the delay does not fit the clock. -/
structure Orderly (talk : List PortCall) : Prop where
  unarmed : ∀ call ∈ talk, call.op.1.isRecovery = true →
    ∀ op, call.op.2.active = some op → op.reconnectSubmitDeadlineUs = none
  fits : ∀ before fetch clock after event nowUs op, talk = before ++ fetch :: clock :: after →
    callEvent? fetch = some event → callReading? clock = some nowUs →
    clock.op.2.active = some op → op.arms event = true →
    nowUs.toNat + reconnectSettleUs.toNat < 2 ^ 64

variable {talk more : List PortCall} {call : PortCall} {eventUs : UInt64}

theorem Orderly.start (orderly : Orderly (talk ++ more)) : Orderly talk := by
  constructor
  · intro call member
    exact orderly.unarmed call (mem_append_left _ member)
  · intro before fetch clock after event nowUs op split
    apply orderly.fits before fetch clock (after ++ more) event nowUs op
    rw [split, append_assoc]
    rfl

theorem DisconnectObserved.say (observed : DisconnectObserved talk eventUs)
    (other : call.op.1.isRecovery = false) : DisconnectObserved (talk ++ [call]) eventUs := by
  obtain ⟨before, seen, event, read, after, split, disconnected, quiet⟩ := observed
  refine ⟨before, seen, event, read, after ++ [call], ?_, disconnected, ?_⟩
  · rw [split, append_assoc]
    rfl
  · intro later member
    rcases mem_append.mp member with old | new
    · exact quiet later old
    · exact mem_singleton.mp new ▸ other

theorem ReconnectsWait.say (wait : ReconnectsWait talk)
    (new : call.op.1.isConnect = true → 0 < calls PortOp.isConnect talk → Waited talk) :
    ReconnectsWait (talk ++ [call]) := by
  intro before other after split connect earlier
  rcases eq_nil_or_concat after with rfl | ⟨rest, last, rfl⟩
  · obtain ⟨same, sameCall⟩ := append_inj' split rfl
    cases sameCall
    rw [← same] at earlier ⊢
    exact new connect earlier
  · rw [concat_eq_append, ← cons_append, ← append_assoc] at split
    obtain ⟨same, _⟩ := append_inj' split rfl
    exact wait before other rest same connect earlier

/-- The waits so far, and the event behind an armed deadline. -/
structure Reconnects (active : Option ActiveOperation) (talk : List PortCall) : Prop where
  wait : ReconnectsWait talk
  armed : ∀ op deadline, active = some op → op.reconnectSubmitDeadlineUs = some deadline →
    ∃ eventUs, DisconnectObserved talk eventUs ∧
      eventUs.toNat + reconnectSettleUs.toNat = deadline.toNat

namespace Reconnects

variable {active : Option ActiveOperation} {op later : ActiveOperation}

section

variable (reconnects : Reconnects active talk)
include reconnects

theorem say (plain : call.op.1.plain = true) : Reconnects active (talk ++ [call]) := by
  have uncounted := PortOp.uncounted_of_plain plain
  constructor
  · apply reconnects.wait.say
    intro connect
    rw [uncounted.connect] at connect
    cases connect
  · intro op deadline found deadlineArmed
    obtain ⟨eventUs, observed, same⟩ := reconnects.armed op deadline found deadlineArmed
    exact ⟨eventUs, observed.say uncounted.recovery, same⟩

theorem clear : Reconnects none talk := by
  refine ⟨reconnects.wait, ?_⟩
  intro op deadline impossible
  cases impossible

theorem put (found : active = some op)
    (same : later.reconnectSubmitDeadlineUs = op.reconnectSubmitDeadlineUs) :
    Reconnects (some later) talk := by
  refine ⟨reconnects.wait, ?_⟩
  intro last deadline kept deadlineArmed
  cases kept
  exact reconnects.armed op deadline found (same ▸ deadlineArmed)

end

theorem disarm (wait : ReconnectsWait talk) (unarmed : later.reconnectSubmitDeadlineUs = none) :
    Reconnects (some later) talk := by
  refine ⟨wait, ?_⟩
  intro last deadline kept deadlineArmed
  cases kept
  rw [unarmed] at deadlineArmed
  cases deadlineArmed

end Reconnects

variable {before after : Moment}

/-- An orderly move keeps the waits. The counts are needed at the first connect only: no
other one came before it. -/
theorem Move.keeps_reconnects (move : Move before after) (orderly : Orderly after.talk)
    (accounts : Accounts before.state.active before.talk)
    (reconnects : Reconnects before.state.active before.talk) :
    Reconnects after.state.active after.talk := by
  have firstConnect : ∀ {op : ActiveOperation} {seen : PollState}
      {reply : (PortOp.connect .start).Reply}, before.state.active = some op →
      op.submission = some (.connect .start) →
      Reconnects before.state.active (before.talk ++ [⟨(.connect .start, seen), reply⟩]) := by
    intro op seen reply active due
    have silent := (accounts.flags op active).silent (submission_of_connect due)
    constructor
    · apply reconnects.wait.say
      intro _ earlier
      rw [silent] at earlier
      cases earlier
    · intro last deadline found armed
      obtain ⟨eventUs, observed, same⟩ := reconnects.armed last deadline found armed
      exact ⟨eventUs, observed.say rfl, same⟩
  have recoveryWait : ∀ {call : PortCall}, call.op.1.isConnect = false →
      ReconnectsWait (before.talk ++ [call]) := by
    intro call other
    apply reconnects.wait.say
    intro connect
    rw [other] at connect
    cases connect
  cases move with
  | ask op reply quiet => exact reconnects.say (PortOp.plain_of_quiet quiet)
  | claim => exact reconnects.say rfl
  | clear => exact reconnects.clear
  | @submit op active call due =>
    rcases submission_plain due with rfl | plain
    · exact (firstConnect active due).put active rfl
    · exact (reconnects.say plain).put active rfl
  | @accept op active call due =>
    have kept : (op.submitting.submitted call).reconnectSubmitDeadlineUs =
        op.reconnectSubmitDeadlineUs := by
      unfold submitted
      split <;> rfl
    rcases submission_plain due with rfl | plain
    · exact (firstConnect active due).put active kept
    · exact (reconnects.say plain).put active kept
  | @observe op active ready event nowUs =>
    have said : Reconnects before.state.active
        (before.talk ++ [⟨(.nextEvent, before.state), .ok (some event)⟩] ++
          [⟨(.nowUs, before.state), nowUs⟩]) := (reconnects.say rfl).say rfl
    obtain ⟨status, same⟩ := observed_eq op event nowUs
    by_cases arming : op.arms event = true
    · refine ⟨said.wait, ?_⟩
      intro last deadline found armed
      cases found
      rw [same] at armed
      simp only [if_pos arming, Option.some_inj] at armed
      have shape : before.talk ++ [⟨(.nextEvent, before.state), .ok (some event)⟩] ++
          [⟨(.nowUs, before.state), nowUs⟩] = before.talk ++
            ⟨(.nextEvent, before.state), .ok (some event)⟩ ::
              ⟨(.nowUs, before.state), nowUs⟩ :: ([] : List PortCall) := by
        rw [append_assoc]
        rfl
      have fits := orderly.fits before.talk _ _ [] event nowUs op shape rfl rfl active arming
      refine ⟨nowUs, ⟨before.talk, before.state, event, before.state, [], shape, ?_, ?_⟩, ?_⟩
      · simp only [arms, Bool.and_eq_true] at arming
        exact eq_of_beq arming.2
      · exact forall_mem_nil _
      · rw [← armed, Machine.toNat_saturatingAdd_of_fits fits]
    · apply said.put active
      rw [same]
      exact if_neg arming
  | @settle op active ready nowUs settled =>
    obtain ⟨deadline, armed, reached, same⟩ := settled_marks settled
    obtain ⟨eventUs, observed, sum⟩ := reconnects.armed op deadline active armed
    have asked : Reconnects before.state.active
        (before.talk ++ [⟨(.nowUs, before.state), nowUs⟩]) := reconnects.say rfl
    apply Reconnects.disarm
    · apply asked.wait.say
      intro _ _
      refine ⟨before.talk, before.state, nowUs, eventUs, rfl, observed, ?_⟩
      rw [sum]
      exact UInt64.le_iff_toNat_le.mp reached
    · exact congrArg reconnectSubmitDeadlineUs same
  | @defer op active recovery stalled nowUs =>
    obtain ⟨⟨first, second, same⟩, _⟩ := recovering_eq op recovery stalled nowUs
    apply reconnects.put active
    rw [same]
  | recover =>
    apply Reconnects.disarm (recoveryWait rfl)
    exact orderly.unarmed _ (mem_append_right _ (mem_singleton.mpr rfl)) rfl _ rfl
  | @request op active recovery stalled nowUs =>
    apply Reconnects.disarm (recoveryWait rfl)
    have unarmed := orderly.unarmed _ (mem_append_right _ (mem_singleton.mpr rfl)) rfl
      (op.recovering recovery stalled nowUs).2.2 rfl
    exact unarmed
  | scan active | retime active | terminate active | finish active => exact reconnects.put active rfl

structure Recovered (active : Option ActiveOperation) (talk : List PortCall) : Prop where
  accounts : Accounts active talk
  reconnects : Orderly talk → Reconnects active talk

theorem Move.keeps_recovered (move : Move before after)
    (recovered : Recovered before.state.active before.talk) :
    Recovered after.state.active after.talk := by
  refine ⟨move.keeps_accounts recovered.accounts, ?_⟩
  intro orderly
  obtain ⟨more, extended⟩ := move.extends
  have earlier : Orderly before.talk := Orderly.start (extended ▸ orderly)
  exact move.keeps_reconnects orderly recovered.accounts (recovered.reconnects earlier)

theorem Recovered.cancel {op : ActiveOperation} (recovered : Recovered (some op) talk) :
    Recovered (some { op with cancellationRequested := true }) talk := by
  constructor
  · exact recovered.accounts.put rfl ⟨rfl, rfl, Nat.le_refl _, fun still => still⟩
  · intro orderly
    exact (recovered.reconnects orderly).put rfl rfl

theorem recovered_start (id : OperationId) (config : StationConfig) (nowUs : UInt64) :
    Recovered (some (.fromRequest id (.connect config) nowUs)) [] := by
  constructor
  · constructor
    · constructor <;> decide
    · intro op found
      cases found
      exact ⟨fun _ => rfl, fun _ => rfl, fun _ => rfl, Nat.le_refl _⟩
  · intro _
    apply Reconnects.disarm
    · intro before call after split
      cases before <;> cases split
    · rfl

/-- The counts of a Connect hold over its whole life; that each reconnect waited for an event
of the latest recovery holds over every orderly one. -/
theorem connect_recovery_bounded {platform : Platform} {id : OperationId}
    {config : StationConfig} {nowUs : UInt64} {labels : List LifeLabel}
    {active : Option ActiveOperation}
    (run : Run (life platform) (some (.fromRequest id (.connect config) nowUs)) labels active) :
    calls PortOp.isFirstEapolRecovery (conversation labels) ≤ 1 ∧
    calls PortOp.isExternalAuthRecovery (conversation labels) ≤ 1 ∧
    calls PortOp.isConnect (conversation labels) ≤ 3 ∧
    (Orderly (conversation labels) → ReconnectsWait (conversation labels)) := by
  have whole : Recovered active (conversation labels) :=
    life_invariant (fun _ _ move => move.keeps_recovered) (fun _ _ => Recovered.cancel) run
      (recovered_start id config nowUs)
  have counts := whole.accounts.counts
  refine ⟨counts.first, counts.external, ?_, fun orderly => (whole.reconnects orderly).wait⟩
  have sum := counts.sum
  have starts := counts.starts
  have settled := counts.settled
  have first := counts.first
  have external := counts.external
  omega

/-! The two causes overlap: the second disconnect is submitted after the first one's event
armed the settle deadline. -/

def finishedRetry : UInt32 := 0x00010001

def overlappingRecoveries : List Deed :=
  [.poll {}, .poll {}, .poll { stalled := true },
    .poll { stalled := true, recovery := finishedRetry, nowUs := 1000 },
    .poll { stalled := true, recovery := finishedRetry, nowUs := 1000000 },
    .poll (reporting nativeEventDisconnected 1000500),
    .poll { recovery := finishedRetry, nowUs := 1001000 },
    .poll { nowUs := 1005500 }]

/-- Some event was fetched since the last recovery disconnect. -/
def eventSinceRecovery (talk : List PortCall) : Bool :=
  (talk.reverse.takeWhile fun call => !call.op.1.isRecovery).any fun call =>
    (callEvent? call).isSome

theorem eventSinceRecovery_of_observed (observed : DisconnectObserved talk eventUs) :
    eventSinceRecovery talk = true := by
  obtain ⟨before, seen, event, read, after, split, _, quiet⟩ := observed
  have kept : ∀ call ∈ after.reverse ++ [⟨(.nowUs, read), eventUs⟩,
      ⟨(.nextEvent, seen), .ok (some event)⟩], (!call.op.1.isRecovery) = true := by
    intro call member
    rcases mem_append.mp member with old | new
    · rw [quiet call (mem_reverse.mp old)]
      rfl
    · rcases mem_cons.mp new with rfl | last
      · rfl
      · exact mem_singleton.mp last ▸ rfl
  have reversed : talk.reverse = (after.reverse ++ [⟨(.nowUs, read), eventUs⟩,
      ⟨(.nextEvent, seen), .ok (some event)⟩]) ++ before.reverse := by
    rw [split]
    simp
  unfold eventSinceRecovery
  rw [reversed, takeWhile_append_of_pos kept, any_append, any_append]
  simp [callEvent?, PortOp.event?]

/-- The call at `index` is a later connect, with no event since the last recovery. -/
def earlyReconnect (talk : List PortCall) (index : Nat) : Bool :=
  talk[index]?.any (fun call => call.op.1.isConnect)
    && decide (0 < calls PortOp.isConnect (talk.take index))
    && !eventSinceRecovery (talk.take index)

theorem not_wait_of_early {index : Nat} (early : earlyReconnect talk index = true) :
    ¬ReconnectsWait talk := by
  intro wait
  simp only [earlyReconnect, Bool.and_eq_true, decide_eq_true_eq, Bool.not_eq_true'] at early
  obtain ⟨⟨found, later⟩, uneventful⟩ := early
  cases taken : talk[index]? with
  | none =>
    rw [taken] at found
    cases found
  | some call =>
    rw [taken] at found
    obtain ⟨inside, same⟩ := List.getElem?_eq_some_iff.mp taken
    have split : talk = talk.take index ++ call :: talk.drop (index + 1) := by
      rw [← same, getElem_cons_drop, take_append_drop]
    obtain ⟨earlier, read, nowUs, eventUs, last, observed, _⟩ :=
      wait _ call _ split found later
    rw [last, eventSinceRecovery_of_observed (observed.say rfl)] at uneventful
    cases uneventful

def readings (talk : List PortCall) : List UInt64 := talk.filterMap callReading?

theorem overlapping_recoveries_reconnect_early :
    ∃ labels active, Run (life anyReport) (some queuedConnect) labels active ∧
      (readings (conversation labels)).Pairwise (· ≤ ·) ∧
      ¬ReconnectsWait (conversation labels) := by
  refine ⟨_, _, steadyLife_runs overlappingRecoveries _, by decide +kernel, ?_⟩
  have early : earlyReconnect
      (conversation (steadyLife overlappingRecoveries (some queuedConnect)).1) 55 = true := by
    decide +kernel
  exact not_wait_of_early early

/-- One recovery that runs its course: disconnect, event, settle delay, reconnect. -/
def singleRecovery : List Deed :=
  [.poll {}, .poll {}, .poll { stalled := true }, .poll { stalled := true, nowUs := 1000000 },
    .poll (reporting nativeEventDisconnected 1000500), .poll { nowUs := 1005500 }]

/-- A check that implies `Orderly`. -/
def orderly (talk : List PortCall) : Bool :=
  talk.all (fun call => !call.op.1.isRecovery ||
      call.op.2.active.all fun op => op.reconnectSubmitDeadlineUs.isNone)
    && (readings talk).all fun nowUs => decide (nowUs.toNat + reconnectSettleUs.toNat < 2 ^ 64)

theorem orderly_sound (checked : orderly talk = true) : Orderly talk := by
  simp only [orderly, Bool.and_eq_true, all_eq_true, decide_eq_true_eq] at checked
  constructor
  · intro call member recovery op active
    have unarmed := checked.1 call member
    rw [recovery, active] at unarmed
    exact Option.isNone_iff_eq_none.mp unarmed
  · intro before fetch clock after event nowUs op split _ reading _ _
    apply checked.2 nowUs
    apply mem_filterMap.mpr
    refine ⟨clock, ?_, reading⟩
    rw [split]
    simp

theorem single_recovery_bounded :
    calls PortOp.isConnect (conversation (steadyLife singleRecovery (some queuedConnect)).1) = 2 ∧
      ReconnectsWait (conversation (steadyLife singleRecovery (some queuedConnect)).1) := by
  have checked : orderly
      (conversation (steadyLife singleRecovery (some queuedConnect)).1) = true := by
    decide +kernel
  have bounded := connect_recovery_bounded (steadyLife_runs singleRecovery (some queuedConnect))
  exact ⟨by decide +kernel, bounded.2.2.2 (orderly_sound checked)⟩

end HisiRf
