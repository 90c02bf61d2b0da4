import HisiRf.Interaction.Record
import HisiRf.Supplicant.Owner
import HisiRf.Supplicant.Receipts

/-! What has to be seen before the station associates, and before it is stopped for good.

The order in which one thread acts is read off its record; what is true while
the others act comes from the standing of the owner. Together they say what
holds when an association or the stop is asked for.
-/

namespace HisiRf.Teardown

open Interaction Function Deauth Standing List Program HostTx

variable {labels : List (PoolLabel ops)} {label : PoolLabel ops} {pool : Pool ops World}

variable {w w' : World} {phases : Nat → Custody × Standing} {i : Nat} {o : Op} {reply : o.Reply}

def stationing : Protocol ops (Custody × Standing) := custody.both ownership

structure Steady (w : World) (phases : Nat → Custody × Standing) : Prop where
  kept : Kept w (Prod.fst ∘ phases)
  guarded : Guarded w.hostTx
  users : UserCleanup.Accounted w.cleanup
  owner : (phases 0).2 ≠ .visitor
  visitors : ∀ i, i ≠ 0 → (phases i).2 = .visitor
  stands : Stands w (phases 0).2

def stationed (i : Nat) : Custody × Standing := (.idle, if i = 0 then .idle else .visitor)

theorem steady_boot : Steady .boot stationed where
  kept := kept_boot
  guarded := guarded_new
  users := UserCleanup.accounted_new
  owner := nofun
  visitors := by
    intro i other
    simp only [stationed, if_neg other]
  stands := stands_idle

theorem Standing.after_owner {standing : Standing} (owner : standing ≠ .visitor)
    (exchange : Exchange ops) : standing.after exchange ≠ .visitor := by
  have drains : standing.drain ≠ .visitor := by
    cases standing <;> simp_all [drain]
  have checks (status checked : Int32) : standing.check status checked ≠ .visitor := by
    cases standing <;> simp_all [check]
    split_ifs <;> decide
  have requests : standing.request ≠ .visitor := by
    cases standing <;> simp_all [request]
  unfold after
  split <;> first | decide | assumption | exact checks _ _

/-- The step lemma: the owner acts by its standing, and nobody else takes anything from it. -/
theorem Steady.act (steady : Steady w phases) (allowed : stationing.allows (phases i) o)
    (taken : Atom w o reply w') :
    Steady w' (update phases i (stationing.after (phases i) ⟨o, reply⟩)) := by
  have kept : Kept w' (Prod.fst ∘
      update phases i (stationing.after (phases i) ⟨o, reply⟩)) := by
    rw [comp_update]
    exact steady.kept.act allowed.1 taken
  have guarded : Guarded w'.hostTx := by
    rcases taken.hostTx_step with same | ⟨label, step, _⟩
    · rw [same]
      exact steady.guarded
    · exact steady.guarded.step step
  have users : UserCleanup.Accounted w'.cleanup := by
    rcases taken.cleanup_step with same | ⟨label, step⟩
    · rw [same]
      exact steady.users
    · exact steady.users.step step
  by_cases own : i = 0
  · subst own
    have permitted := permits_of_allows steady.owner allowed.2
    refine ⟨kept, guarded, users, ?_, ?_, ?_⟩
    · rw [update_self]
      exact after_owner steady.owner _
    · intro j other
      rw [update_of_ne other]
      exact steady.visitors j other
    · rw [update_self]
      exact steady.stands.own steady.guarded steady.kept.accounted steady.users permitted taken
  have visits := steady.visitors i own
  have foreign : o.foreign := by
    have allowed : (phases i).2.allows o := allowed.2
    rw [visits] at allowed
    exact allowed
  have others : ∀ j, (update phases i (stationing.after (phases i) ⟨o, reply⟩) j).2 =
      (phases j).2 := by
    intro j
    by_cases same : j = i
    · subst same
      rw [update_self]
      change (phases j).2.after ⟨o, reply⟩ = _
      rw [visits]
      exact visitor_stays foreign reply
    · rw [update_of_ne same]
  refine ⟨kept, guarded, users, ?_, ?_, ?_⟩
  · rw [others]
    exact steady.owner
  · intro j other
    rw [others]
    exact steady.visitors j other
  · rw [others]
    exact steady.stands.visit steady.guarded steady.kept foreign allowed.1 taken

/-! The crew of the station. -/

def Rests (i : Nat) (phases : Custody × Standing) : Prop :=
  phases.1 = .idle ∧ if i = 0 then phases.2.atEase = true else phases.2 = .visitor

theorem ownedJobs_obey (i : Nat) (task : Task Unit) (phases : Custody × Standing)
    (given : ownedJobs i task) (rests : Rests i phases) :
    task.Obeys stationing (fun _ => Rests i) phases := by
  obtain ⟨job, rfl, owned⟩ := given
  obtain ⟨phase, standing⟩ := phases
  obtain ⟨rfl, rests⟩ := rests
  by_cases own : i = 0
  · rw [if_pos own] at rests
    refine (Obeys.both job.returns (job.eases standing rests)).mono ?_
    rintro _ last ⟨idle, atEase⟩
    exact ⟨idle, by rw [if_pos own]; exact atEase⟩
  · rw [if_neg own] at rests
    obtain rfl : standing = .visitor := rests
    have foreign := job.foreign (Bool.eq_false_iff.mpr fun ofOwner => own (owned ofOwner))
    refine (Obeys.both job.returns (visits foreign)).mono ?_
    rintro _ last ⟨idle, visitor⟩
    exact ⟨idle, by rw [if_neg own]; exact visitor⟩

theorem rests_stationed (i : Nat) : Rests i (stationed i) := by
  refine ⟨rfl, ?_⟩
  unfold stationed
  split_ifs <;> rfl

theorem steady_of_run (run : Run station (.new .boot) labels pool) :
    ∃ crew, Steady pool.world crew.phases ∧ Manned stationing Rests pool crew := by
  obtain ⟨crew, reached, manned⟩ :=
    (manned_new (w := World.boot) rests_stationed).run ownedJobs_obey run
  refine ⟨crew, ?_, manned⟩
  rw [← manned.world]
  clear manned run
  induction reached with
  | start => exact steady_boot
  | next _ step ih =>
    cases step with
    | start => exact ih
    | act allowed taken => exact ih.act allowed taken

abbrev sawPrepared : Exchange ops := ⟨.prepareAssociation, .ok ()⟩
abbrev saidStarted : Exchange ops := ⟨.associationStarted, ()⟩
abbrev sawReturned (receipt : Option Receipt) : Exchange ops :=
  ⟨.ioctlsReturned receipt, .ok true⟩
abbrev didSeal : Exchange ops := ⟨.hostTx .sealAdmission, ()⟩
abbrev sawClean : Exchange ops := ⟨.cleanup (.checkedStatus 0), 0⟩

/-- All requests were seen returned, and after that transmission was sealed. -/
def SealedIn (past : List (Exchange ops)) : Prop :=
  ∃ receipt, [sawReturned receipt, didSeal].Sublist past

/-- After the seal transmission was seen drained, and users were seen clean at once. -/
def ClearedIn (past : List (Exchange ops)) : Prop :=
  ∃ earlier later, past = earlier ++ sawDrained :: sawClean :: later ∧ SealedIn earlier

/-- What a thread must have done before it asks for an association or for the stop. -/
def gate (past : List (Exchange ops)) : Op → Prop
  | .enterAssociate => ∃ earlier, past = earlier ++ [sawPrepared, saidStarted]
  | .sendStop => ClearedIn past
  | _ => True

theorem Op.mundane.passes (mundane : o.mundane) (past : List (Exchange ops)) : gate past o := by
  cases o with
  | enterAssociate | sendStop => exact mundane.elim
  | _ => trivial

variable {A B : Type} {past : List (Exchange ops)}

theorem SealedIn.more (sealedIn : SealedIn past) (exchange : Exchange ops) :
    SealedIn (past ++ [exchange]) := by
  obtain ⟨receipt, inside⟩ := sealedIn
  exact ⟨receipt, inside.trans (sublist_append_left past [exchange])⟩

theorem ClearedIn.more (clearedIn : ClearedIn past) (exchange : Exchange ops) :
    ClearedIn (past ++ [exchange]) := by
  obtain ⟨earlier, later, rfl, sealedIn⟩ := clearedIn
  exact ⟨earlier, later ++ [exchange], by simp, sealedIn⟩

/-- The program passes its gates whatever the thread has done before. -/
def Gated (p : Task A) : Prop := ∀ past, p.Obeys (recorded gate) (fun _ _ => True) past

theorem Gated.bind {p : Task A} {k : A → Task B} (first : Gated p) (rest : ∀ a, Gated (k a)) :
    Gated (p.bind k) := by
  intro past
  exact (first past).next fun a later _ => rest a later

theorem gated_done (a : A) : Gated (.done a) := fun _ => trivial

theorem gated_mundane {p : Task A} (only : p.Only Op.mundane) : Gated p := by
  intro past
  exact Obeys.of_only only (fun _ past mundane _ => mundane.passes past)
    (fun _ _ _ _ _ => trivial) trivial

/-! Association. -/

theorem associationIoctl_gated :
    associationIoctl.Obeys (recorded gate) (fun _ _ => True) (past ++ [sawPrepared]) := by
  refine obeys_atom.mpr ⟨trivial, fun _ => obeys_atom.mpr ⟨?_, fun _ => ⟨trivial, fun _ => trivial⟩⟩⟩
  exact ⟨past, append_assoc past [sawPrepared] [saidStarted]⟩

variable (rounds : Nat)

theorem associate_gated (acceptable : Bool) : Gated (associate rounds acceptable) := by
  have again (first : Int32) : Gated (associateAgain rounds first) := by
    refine (gated_mundane (disconnectInline_mundane rounds prevAuthNotValid)).bind fun cleared => ?_
    split
    · exact gated_done _
    · intro past
      refine obeys_atom.mpr ⟨trivial, ?_⟩
      rintro (_ | _)
      · trivial
      · exact associationIoctl_gated
  intro past
  unfold associate
  split
  · trivial
  · refine obeys_atom.mpr ⟨trivial, ?_⟩
    rintro (_ | _)
    · trivial
    · refine associationIoctl_gated.next fun first later _ => ?_
      split
      · trivial
      · exact again first later

/-! The terminal stop. -/

theorem disconnectIoctlsReturned_records : disconnectIoctlsReturned.Obeys (recorded gate)
      (fun result later => result = .ok true → ∃ receipt, sawReturned receipt ∈ later) past := by
  refine obeys_atom.mpr ⟨trivial, ?_⟩
  rintro (_ | receipt)
  · exact nofun
  · refine obeys_atom.mpr ⟨trivial, ?_⟩
    rintro (_ | _ | _)
    · exact ⟨trivial, fun _ => nofun⟩
    · exact nofun
    · refine ⟨trivial, fun _ _ => ⟨receipt, ?_⟩⟩
      simp [recorded]

theorem requireDisconnectReturned_records : requireDisconnectReturned.Obeys (recorded gate)
      (fun result later => result = .ok () → ∃ receipt, sawReturned receipt ∈ later) past := by
  refine disconnectIoctlsReturned_records.next ?_
  rintro (_ | _ | _) later known
  · exact nofun
  · exact nofun
  · exact fun _ => known rfl

theorem sealedIn_drains :
    Drains (recorded gate) SealedIn fun past => ∃ earlier, past = earlier ++ [sawDrained] ∧
      SealedIn earlier where
  allowed past _ _ shared := shared.foreign.mundane.passes past
  stays _ exchange sealedIn _ _ := sealedIn.more exchange
  sees past sealedIn := ⟨past, rfl, sealedIn⟩

theorem stopAndWait_gated (clearedIn : ClearedIn past) :
    (stopAndWait rounds).Obeys (recorded gate) (fun _ _ => True) past := by
  have awaits : Gated (awaitStop rounds) :=
    gated_mundane ((awaitStop_shared rounds).mono fun _ shared => shared.foreign.mundane)
  have looks : receivesQueued.Obeys (recorded gate) (fun _ => ClearedIn) past := by
    refine Obeys.of_only receivesQueued_shared ?_ ?_ clearedIn
    · exact fun _ past shared _ => shared.foreign.mundane.passes past
    · exact fun o past reply _ clearedIn => clearedIn.more ⟨o, reply⟩
  refine looks.next fun queued later clearedIn => ?_
  split
  · trivial
  refine obeys_atom.mpr ⟨trivial, ?_⟩
  rintro (_ | started)
  · trivial
  · refine obeys_atom.mpr ⟨trivial, ?_⟩
    rintro (_ | _)
    · trivial
    · refine obeys_atom.mpr ⟨(clearedIn.more _).more _, fun _ => ?_⟩
      exact obeys_atom.mpr ⟨trivial, fun _ => obeys_atom.mpr ⟨trivial, fun _ => awaits _⟩⟩

theorem stopOnce_gated (clearedIn : ClearedIn past) :
    (stopOnce rounds).Obeys (recorded gate) (fun _ _ => True) past := by
  refine (stopAndWait_gated rounds clearedIn).next ?_
  rintro (_ | _) later _
  · exact ⟨trivial, fun _ => trivial⟩
  · trivial

theorem finishDisconnect_gated : Gated (finishDisconnect rounds) := by
  intro past
  refine requireDisconnectReturned_records.next ?_
  rintro (_ | _) later known
  · trivial
  obtain ⟨receipt, returned⟩ := known rfl
  have sealedIn : SealedIn (later ++ [didSeal]) :=
    ⟨receipt, (singleton_sublist.mpr returned).append (Sublist.refl [didSeal])⟩
  refine obeys_atom.mpr ⟨trivial, fun _ => ?_⟩
  refine (sealedIn_drains.closeAndDrain rounds sealedIn).next ?_
  rintro (_ | _) last drained
  · trivial
  · obtain ⟨earlier, rfl, sealedIn⟩ := drained
    refine obeys_atom.mpr ⟨trivial, fun status => ?_⟩
    split_ifs with clean
    · subst clean
      exact stopOnce_gated rounds ⟨earlier, [], append_assoc earlier [_] [_], sealedIn⟩
    · trivial

theorem gated_covers : Covers fun _ => Gated where
  done := gated_done
  bind := Gated.bind
  plain only := gated_mundane (only.mono fun _ plain => plain.2)
  worker rounds := gated_mundane ((deauthWorker_foreign rounds).mono fun _ foreign => foreign.mundane)
  inline rounds reason := gated_mundane (disconnectInline_mundane rounds reason)
  associate := associate_gated
  returned _ := disconnectIoctlsReturned_records.mono fun _ _ _ => trivial
  finish := finishDisconnect_gated

theorem ownedJobs_gated (i : Nat) (task : Task Unit) (given : ownedJobs i task) :
    task.Obeys (recorded gate) (fun _ _ => True) [] := by
  obtain ⟨job, rfl, _⟩ := given
  exact gated_covers.job job []

variable {exchange : Exchange ops} {after : Pool ops World}

/-- In its present job the thread has taken the action, at such a moment, and since then `later`. -/
def Saw (labels : List (PoolLabel ops)) (i : Nat) (exchange : Exchange ops)
    (later : List (Exchange ops)) (holds : List (PoolLabel ops) → World → Prop) : Prop :=
  ∃ earlier between seen, labels = earlier ++ .act i exchange :: between ∧
    between.filterMap (PoolLabel.own i) = later ∧ .start i ∉ between ∧
    Run station (.new .boot) earlier seen ∧ holds earlier seen.world

theorem saw_of_acts (run : Run station (.new .boot) labels pool)
    {before later : List (Exchange ops)} (known : acts i labels = before ++ exchange :: later)
    {holds : List (PoolLabel ops) → World → Prop}
    (means : ∀ {earlier : List (PoolLabel ops)} {seen : Pool ops World} {w' : World},
      Run station (.new .boot) earlier seen → Atom seen.world exchange.op exchange.reply w' →
        holds earlier seen.world) : Saw labels i exchange later holds := by
  obtain ⟨earlier, between, rfl, _, last, same⟩ := last_acts known
  obtain ⟨seen, next, reached, step, _⟩ := run.step_at
  refine ⟨earlier, between, seen, rfl, last, same, reached, ?_⟩
  cases step with
  | act _ taken => exact means reached taken

/-- Every request accepted so far has returned zero, and none was refused. -/
structure Settled (labels : List (PoolLabel ops)) (w : World) : Prop where
  idle : w.queue.running = none ∧ w.queue.requests.len = 0
  returned : ∀ ticket ∈ (labels.filterMap onQueue).filterMap Label.issues,
    (ticket, 0) ∈ completions (labels.filterMap onQueue)
  zero : ∀ entry ∈ completions (labels.filterMap onQueue), entry.2 = 0
  accepted : ∀ label ∈ labels.filterMap onQueue, label.isRejection = false

section

variable (run : Run station (.new .boot) labels pool)
include run

theorem station_queue_run :
    Run queueSystem .new (labels.filterMap onQueue) pool.world.queue := by
  refine run.project (fun pool => pool.world.queue) onQueue ?_
  intro before label after step
  cases step with
  | start => exact .inl ⟨rfl, rfl⟩
  | act _ taken => exact taken.queue_step

theorem settled_of_ready (ready : pool.world.queue.pollIdle = .ok (.ready ())) :
    Settled labels pool.world := by
  have queueRun := station_queue_run run
  obtain ⟨waiting, ledger⟩ := ledger_of_run queueRun
  obtain ⟨_, zero, accepted, running, empty⟩ := (pollIdle_ready_iff ledger).mp ready
  refine ⟨⟨running, empty⟩, ?_, zero, accepted⟩
  -- Nothing runs or waits, so the tickets given out are those that were completed.
  have all : (completions (labels.filterMap onQueue)).map Prod.fst =
      (labels.filterMap onQueue).filterMap Label.issues := by
    have none_waiting : waiting = [] := by
      have length := ledger.ring.len
      rw [empty] at length
      exact length_eq_zero_iff.mp length.symm
    rw [issues_of_run queueRun, ← ledger.numbered, running, none_waiting]
    simp
  intro ticket issued
  rw [← all] at issued
  obtain ⟨entry, member, rfl⟩ := mem_map.mp issued
  rw [← zero entry member]
  exact member

theorem sealed_of_run {j : Nat} (isSealed : .act j didSeal ∈ labels) :
    pool.world.hostTx.terminal = true := by
  induction run with
  | start => cases isSealed
  | next _ step ih =>
    rcases mem_append.mp isSealed with old | new
    · cases step with
      | start => exact ih old
      | act _ taken =>
        rcases taken.hostTx_step with same | ⟨label, step, _⟩
        · rw [same]
          exact ih old
        · exact step_terminal step (ih old)
    · rw [← mem_singleton.mp new] at step
      cases step with
      | act _ taken =>
        cases taken
        rfl

end

/-- What is not open to everybody is done by the owner, with the standing for it. -/
theorem owner_acts (run : Run station (.new .boot) labels pool)
    (step : station.step pool (.act i ⟨o, reply⟩) after) (domestic : ¬ o.foreign) :
    Guarded pool.world.hostTx ∧
      ∃ standing, Stands pool.world standing ∧ standing.permits o := by
  obtain ⟨crew, steady, manned⟩ := steady_of_run run
  have allowed : (crew.phases i).2.allows o := by
    have turn := manned.threads i
    cases step with
    | act waiting =>
      rw [waiting] at turn
      exact turn.1.2
  by_cases own : i = 0
  · subst own
    exact ⟨steady.guarded, _, steady.stands, permits_of_allows steady.owner allowed⟩
  · rw [steady.visitors i own] at allowed
    exact absurd allowed domestic

/-! What the three checks have seen. -/

theorem Atom.prepare_reply {reply : Except Int32 Unit} (taken : Atom w .prepareAssociation reply w') :
    w.prepareAssociation.1 = reply := by
  cases taken
  rfl

theorem Atom.hostTx_reply {call : HostTxCall} {reply : call.Reply}
    (taken : Atom w (.hostTx call) reply w') : (call.answer w.hostTx).1 = reply := by
  cases taken
  rfl

theorem Atom.cleanup_reply {call : CleanupCall} {reply : call.Reply}
    (taken : Atom w (.cleanup call) reply w') : (call.answer w.cleanup).1 = reply := by
  cases taken
  rfl

section

variable {seen : Pool ops World} (reached : Run station (.new .boot) labels seen)
include reached

theorem clear_when_prepared (taken : Atom seen.world sawPrepared.op sawPrepared.reply w') :
    Settled labels seen.world ∧ Clear seen.world := by
  obtain ⟨crew, steady, _⟩ := steady_of_run reached
  have clear := (clear_of_prepared steady.kept.accounted steady.users taken.prepare_reply).1
  refine ⟨settled_of_ready reached (pollIdle_ready.mpr ?_), clear⟩
  exact ⟨clear.unfailed.2.2, clear.unfailed.1, clear.unfailed.2.1, clear.idle⟩

theorem quiet_when_drained (taken : Atom seen.world sawDrained.op sawDrained.reply w') :
    seen.world.hostTx.fault = 0 ∧ seen.world.hostTx.closed = true ∧ seen.world.hostTx.live = [] := by
  obtain ⟨crew, steady, _⟩ := steady_of_run reached
  have quiet := quiet_of_drained steady.kept.accounted taken.hostTx_reply
  exact ⟨(drained_eq_true taken.hostTx_reply).1, quiet.closed, quiet.empty⟩

end

theorem clean_when_checked (taken : Atom w sawClean.op sawClean.reply w') : w.cleanup.fault = 0 :=
  toInt32_eq_zero taken.cleanup_reply

def entersAssociate : Exchange ops → Bool
  | ⟨.enterAssociate, _⟩ => true
  | _ => false

/-- Station state was cleared with success, and after that an association was prepared anew. -/
def RenewedIn (rounds : Nat) (past : List (Exchange ops)) : Prop :=
  ∃ start cleared, past = start ++ cleared ++ [sawPrepared, saidStarted] ∧
    (disconnectInline rounds prevAuthNotValid).Runs cleared 0

/-- There is a first attempt, and a second one after a renewal. -/
def attempt (rounds : Nat) (past : List (Exchange ops)) : Op → Prop
  | .enterAssociate => past.countP entersAssociate = 0 ∨
      past.countP entersAssociate = 1 ∧ RenewedIn rounds past
  | _ => True

variable {rounds}

theorem Op.mundane.attempts (mundane : o.mundane) (past : List (Exchange ops)) :
    attempt rounds past o := by
  cases o with
  | enterAssociate => exact mundane.elim
  | _ => trivial

theorem Op.mundane.enters (mundane : exchange.op.mundane) : entersAssociate exchange = false := by
  obtain ⟨o, reply⟩ := exchange
  cases o with
  | enterAssociate => exact mundane.elim
  | _ => rfl

theorem associationIoctl_attempts
    (allowed : attempt rounds (past ++ [sawPrepared, saidStarted]) .enterAssociate) :
    associationIoctl.Obeys (recorded (attempt rounds))
      (fun _ later => later.countP entersAssociate = past.countP entersAssociate + 1)
      (past ++ [sawPrepared]) := by
  have now : attempt rounds (past ++ [sawPrepared] ++ [saidStarted]) .enterAssociate := by
    rw [append_assoc]
    exact allowed
  refine obeys_atom.mpr ⟨trivial, fun _ => obeys_atom.mpr ⟨now, fun _ => ?_⟩⟩
  refine ⟨trivial, fun status => ?_⟩
  simp [Obeys, recorded, entersAssociate, countP_cons]

theorem associateAgain_attempts (first : Int32) (once : past.countP entersAssociate = 1) :
    (associateAgain rounds first).Obeys (recorded (attempt rounds)) (fun _ _ => True) past := by
  have clears := disconnectInline_mundane rounds prevAuthNotValid
  refine (Obeys.record clears fun o past mundane =>
    mundane.attempts past).next ?_
  rintro status _ ⟨cleared, rfl, runs⟩
  split_ifs with failed
  · trivial
  -- Clearing asks for no association, so there was still one attempt only.
  have none_inside : cleared.countP entersAssociate = 0 := by
    rw [countP_eq_zero]
    intro exchange member
    rw [(clears.runs runs exchange member).enters]
    exact Bool.false_ne_true
  have renewed : attempt rounds (past ++ cleared ++ [sawPrepared, saidStarted]) .enterAssociate := by
    refine .inr ⟨?_, past, cleared, rfl, not_not.mp failed ▸ runs⟩
    simp [entersAssociate, once, none_inside]
  refine obeys_atom.mpr ⟨trivial, ?_⟩
  rintro (_ | _)
  · trivial
  · exact (associationIoctl_attempts renewed).mono fun _ _ _ => trivial

theorem associate_attempts (acceptable : Bool) :
    (associate rounds acceptable).Obeys (recorded (attempt rounds)) (fun _ _ => True) [] := by
  unfold associate
  split
  · trivial
  refine obeys_atom.mpr ⟨trivial, ?_⟩
  rintro (_ | _)
  · trivial
  · have none_yet : attempt rounds ([] ++ [sawPrepared, saidStarted]) .enterAssociate := .inl rfl
    refine (associationIoctl_attempts none_yet).next ?_
    intro first later once
    split
    · trivial
    · exact associateAgain_attempts first once

/-- An association is asked for only after a preparation that has seen everything clear at one
moment. One call asks at most twice, and again only after a renewal. The stop is posted only when
all requests have returned zero and transmission is sealed and was seen drained without a fault;
user cleanup had no fault when it was checked after that. Nothing associates after a seal. -/
theorem association_and_stop_are_gated (run : Run station (.new .boot) labels pool) (i : Nat)
    (after : Pool ops World) : (station.step pool (.act i ⟨.enterAssociate, ()⟩) after →
      Saw labels i sawPrepared [saidStarted] fun earlier w => Settled earlier w ∧ Clear w) ∧
    (∀ rounds acceptable talk rest, (associate rounds acceptable).Reaches talk rest →
      talk.countP entersAssociate ≤ 2 ∧
      ∀ first second, talk = first ++ ⟨.enterAssociate, ()⟩ :: second →
        0 < first.countP entersAssociate → RenewedIn rounds first) ∧
    (∀ status, station.step pool (.act i ⟨.sendStop, status⟩) after →
      Settled labels pool.world ∧ pool.world.hostTx.terminal = true ∧
      pool.world.hostTx.closed = true ∧ pool.world.hostTx.live = [] ∧
      ∃ earlier later, acts i labels = earlier ++ sawDrained :: sawClean :: later ∧
        SealedIn earlier ∧ Saw labels i sawDrained (sawClean :: later) (fun _ w =>
          w.hostTx.fault = 0 ∧ w.hostTx.closed = true ∧ w.hostTx.live = []) ∧
        Saw labels i sawClean later fun _ w => w.cleanup.fault = 0) ∧
    (∀ j, .act j didSeal ∈ labels → ¬ station.step pool (.act i ⟨.enterAssociate, ()⟩) after) := by
  refine ⟨?_, ?_, ?_, ?_⟩
  · intro step
    obtain ⟨before, known⟩ : gate (acts i labels) .enterAssociate :=
      guard_of_step ownedJobs_gated run step
    exact saw_of_acts run known clear_when_prepared
  · intro rounds acceptable talk rest reaches
    have attempts {first second : List (Exchange ops)} {exchange : Exchange ops}
        (split : talk = first ++ exchange :: second) : attempt rounds first exchange.op :=
      (associate_attempts acceptable).guards reaches split
    constructor
    · refine countP_le_of_splits entersAssociate fun first exchange second split enters => ?_
      obtain ⟨o, reply⟩ := exchange
      cases o with
      | enterAssociate =>
        rcases attempts split with none_yet | ⟨once, _⟩ <;> omega
      | _ => cases enters
    · intro first second split again
      rcases attempts split with none_yet | ⟨_, renewed⟩
      · omega
      · exact renewed
  · intro status step
    obtain ⟨guarded, standing, stands, permitted⟩ := owner_acts run step id
    obtain rfl : standing = .cleared := permitted
    obtain ⟨earlier, later, known, sealedIn⟩ : gate (acts i labels) .sendStop :=
      guard_of_step ownedJobs_gated run step
    have terminal := stands.sealed rfl
    refine ⟨settled_of_ready run (stands.ready rfl), terminal, guarded.terminal terminal,
      stands.empty rfl, earlier, later, known, sealedIn, ?_, ?_⟩
    · exact saw_of_acts run known quiet_when_drained
    · rw [append_cons] at known
      exact saw_of_acts run known fun _ taken => clean_when_checked taken
  · intro j isSealed step
    obtain ⟨_, standing, stands, permitted⟩ := owner_acts run step id
    have unsealed := stands.unsealed permitted
    rw [sealed_of_run run isSealed] at unsealed
    cases unsealed

def Op.sendsStop : Op → Bool
  | .sendStop => true
  | _ => false

/-- The stop may be asked for, and the owner finishes up to its check of user cleanup. -/
def checkedStop : List (Exchange ops) × Task Unit × World :=
  drive smooth 8 (Job.finishDisconnect 1).task (drive smooth 1 Job.installStop.task .boot).2.2

theorem checkedStop_runs : Run station (.new .boot)
    (.start 1 :: (drive smooth 1 Job.installStop.task .boot).1.map (.act 1) ++
      .start 0 :: checkedStop.1.map (.act 0)) ⟨checkedStop.2.2, update (update (fun _ => .done ()) 1
      (drive smooth 1 Job.installStop.task .boot).2.1) 0 checkedStop.2.1⟩ := by
  have installs : Run station (.new .boot) _ _ :=
    run_job smooth_atom 1 (i := 1) ⟨.installStop, rfl, nofun⟩ rfl
  exact installs.trans (run_job smooth_atom 8 (i := 0) ⟨.finishDisconnect 1, rfl, fun _ => rfl⟩ rfl)

/-- From there the owner goes on to the stop. -/
theorem stop_posted_after_seal : let posting := drive smooth 4 checkedStop.2.1 checkedStop.2.2
    posting.2.1.asks Op.sendsStop = true ∧ posting.2.2.hostTx.terminal = true ∧
      posting.2.2.hostTx.live = [] := by
  intro posting
  have posts := checkedStop_runs.trans
    (run_drive smooth_atom 4 0 checkedStop.2.1 _ (update_self 0 _ _))
  have asks : posting.2.1.asks Op.sendsStop = true := by decide +kernel
  obtain ⟨o, next, calls, wanted⟩ := asks_eq asks
  refine ⟨asks, ?_⟩
  cases o with
  | sendStop =>
    have stops := (association_and_stop_are_gated posts 0 _).2.2.1 0
      (step_asked (update_self 0 _ _) calls (.sendStop 0))
    exact ⟨stops.2.1, stops.2.2.2.1⟩
  | _ => cases wanted

/-- A user deleted without a free between the check and the post: the stop is posted with a fault. -/
theorem user_fault_between_check_and_stop :
    ∃ labels pool after, Run station (.new .boot) labels pool ∧
      station.step pool (.act 0 ⟨.sendStop, 0⟩) after ∧ pool.world.cleanup.fault ≠ 0 := by
  let deleted := drive smooth 4 (Job.deleteUser 7).task checkedStop.2.2
  let posting := drive smooth 4 checkedStop.2.1 deleted.2.2
  have deletes := checkedStop_runs.trans (run_job smooth_atom 4 (i := 2) ⟨.deleteUser 7, rfl, nofun⟩ rfl)
  have posts := deletes.trans (run_drive smooth_atom 4 0 checkedStop.2.1 _ rfl)
  have asks : posting.2.1.asks Op.sendsStop = true := by decide +kernel
  have faulted : posting.2.2.cleanup.fault ≠ 0 := by decide +kernel
  obtain ⟨o, next, calls, wanted⟩ := asks_eq asks
  cases o with
  | sendStop =>
    exact ⟨_, _, _, posts, step_asked (update_self 0 _ _) calls (.sendStop 0), faulted⟩
  | _ => cases wanted

end HisiRf.Teardown
