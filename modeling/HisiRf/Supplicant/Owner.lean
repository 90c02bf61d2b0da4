import HisiRf.Supplicant.Disconnects

/-! What the owner of the native context knows while others act.

One thread makes all calls of the context. What it has seen in one critical
section stays true for it until it acts on it: nobody else adds a request or
seals transmission. Its standing says how far it has come on the way to an
association or to the terminal stop.
-/

namespace HisiRf.Teardown

open Interaction HostTx

inductive Standing where
  /-- Not the owner. -/
  | visitor
  | idle
  /-- All requests were seen returned, and none was made since. -/
  | settled
  /-- An association was prepared and is next. -/
  | prepared
  /-- Transmission was sealed while settled, then seen drained, then users were seen clean. -/
  | sealed | drained | cleared
  deriving DecidableEq

open Standing

namespace Standing

/-- A standing in which the owner may be between two routines. -/
def atEase : Standing → Bool
  | .visitor | .prepared => false
  | _ => true

def drain : Standing → Standing
  | .sealed => .drained
  | standing => standing

def check (status checked : Int32) : Standing → Standing
  | .drained => if status = 0 ∧ checked = 0 then .cleared else .drained
  | standing => standing

/-- A call that may change the queue takes back what was seen of it. -/
def request : Standing → Standing
  | .visitor => .visitor
  | _ => .idle

def permits (standing : Standing) : Op → Prop
  | .enterAssociate => standing = .prepared
  | .hostTx .sealAdmission => standing = .settled
  | .sendStop => standing = .cleared
  | .associationStarted => True
  | _ => standing ≠ .prepared

def allows : Standing → Op → Prop
  | .visitor, o => o.foreign
  | standing, o => standing.permits o

def after (standing : Standing) : Exchange ops → Standing
  | ⟨.ioctlsReturned _, .ok true⟩ => .settled
  | ⟨.prepareAssociation, .ok _⟩ => .prepared
  | ⟨.enterAssociate, _⟩ => .idle
  | ⟨.hostTx .sealAdmission, _⟩ => .sealed
  | ⟨.hostTx .drained, .ok true⟩ => standing.drain
  | ⟨.cleanup (.checkedStatus status), checked⟩ => standing.check status checked
  | ⟨.queue .pop, _⟩ | ⟨.queue (.complete _ _), _⟩ | ⟨.queue (.beginInline _), _⟩
  | ⟨.queue .wakeFailed, _⟩ | ⟨.queue .workerUnavailable, _⟩ | ⟨.closeAndPush _, _⟩ =>
    standing.request
  | _ => standing

end Standing

def ownership : Protocol ops Standing := ⟨allows, after⟩

variable {A B : Type}

theorem visitor_stays {o : Op} (foreign : o.foreign) (reply : o.Reply) :
    visitor.after ⟨o, reply⟩ = .visitor := by
  cases o with
  | hostTx call =>
    cases call with
    | drained => rcases reply with _ | _ | _ <;> rfl
    | sealAdmission => exact foreign.elim
    | _ => rfl
  | queue call | cleanup call => cases call <;> rfl
  | prepareAssociation | ioctlsReturned _ | enterAssociate | closeAndPush _ => exact foreign.elim
  | _ => rfl

variable {p : Task A} {standing : Standing}

theorem visits (only : p.Only Op.foreign) :
    p.Obeys ownership (fun _ standing => standing = .visitor) .visitor :=
  .still only (fun _ foreign => foreign) fun _ reply foreign => visitor_stays foreign reply

/-- The program may be run by the owner at ease, and leaves it at ease. -/
def Eases (p : Task A) : Prop :=
  ∀ standing, standing.atEase = true →
    p.Obeys ownership (fun _ last => last.atEase = true) standing

theorem Eases.bind {k : A → Task B} (first : Eases p) (rest : ∀ a, Eases (k a)) :
    Eases (p.bind k) := by
  intro standing atEase
  refine (first standing atEase).next ?_
  intro a last still
  exact rest a last still

theorem eases_done (a : A) : Eases (.done a) := fun _ atEase => atEase

namespace Standing

variable {o : Op}

theorem allows_of_permits (owner : standing ≠ .visitor) (permitted : standing.permits o) :
    standing.allows o := by
  cases standing with
  | visitor => exact absurd rfl owner
  | _ => exact permitted

theorem permits_of_allows (owner : standing ≠ .visitor) (allowed : standing.allows o) :
    standing.permits o := by
  cases standing with
  | visitor => exact absurd rfl owner
  | _ => exact allowed

theorem atEase_iff : standing.atEase = true ↔ standing ≠ .visitor ∧ standing ≠ .prepared := by
  cases standing <;> simp [atEase]

theorem drain_atEase : standing.drain.atEase = standing.atEase := by cases standing <;> rfl

theorem check_atEase (status checked : Int32) :
    (standing.check status checked).atEase = standing.atEase := by
  cases standing with
  | drained =>
    dsimp only [check]
    split_ifs <;> rfl
  | _ => rfl

theorem request_atEase (atEase : standing.atEase = true) : standing.request.atEase = true := by
  cases standing with
  | visitor => exact atEase
  | _ => rfl

end Standing

section

variable {o : Op} (mundane : o.mundane) (atEase : standing.atEase = true)
include mundane atEase

theorem Op.mundane.allowed : standing.allows o := by
  obtain ⟨owner, unprepared⟩ := atEase_iff.mp atEase
  refine allows_of_permits owner ?_
  cases o with
  | enterAssociate | sendStop => exact mundane.elim
  | hostTx call =>
    cases call with
    | sealAdmission => exact mundane.elim
    | _ => exact unprepared
  | associationStarted => trivial
  | _ => exact unprepared

theorem Op.mundane.eased (reply : o.Reply) : (standing.after ⟨o, reply⟩).atEase = true := by
  cases o with
  | queue call =>
    cases call with
    | health | checkpoint | receiptSince _ => exact atEase
    | _ => exact request_atEase atEase
  | hostTx call =>
    cases call with
    | sealAdmission => exact mundane.elim
    | drained =>
      rcases reply with _ | _ | _
      · exact atEase
      · exact atEase
      · exact drain_atEase.trans atEase
    | _ => exact atEase
  | cleanup call =>
    cases call with
    | checkedStatus status => exact (check_atEase status reply).trans atEase
    | _ => exact atEase
  | closeAndPush => exact request_atEase atEase
  | prepareAssociation | ioctlsReturned _ | enterAssociate => exact mundane.elim
  | _ => exact atEase

end

theorem eases_mundane (only : p.Only Op.mundane) : Eases p := by
  intro standing atEase
  refine Program.Obeys.of_only only ?_ ?_ atEase
  · exact fun o phase mundane atEase => mundane.allowed atEase
  · exact fun o phase reply mundane atEase => mundane.eased atEase reply

/-! Association. -/

theorem associationIoctl_eases :
    associationIoctl.Obeys ownership (fun _ last => last.atEase = true) .prepared :=
  ⟨trivial, fun _ => ⟨rfl, fun _ => ⟨nofun, fun _ => rfl⟩⟩⟩

theorem eases_prepare {k : Except Int32 Unit → Task A} (refused : ∀ status, Eases (k (.error status)))
    (prepared : (k (.ok ())).Obeys ownership (fun _ last => last.atEase = true) .prepared) :
    Eases ((atom .prepareAssociation).bind k) := by
  intro standing atEase
  obtain ⟨owner, unprepared⟩ := atEase_iff.mp atEase
  refine obeys_atom.mpr ⟨allows_of_permits owner unprepared, ?_⟩
  rintro (status | _)
  · exact refused status standing atEase
  · exact prepared

variable (rounds : Nat)

theorem associateAgain_eases (first : Int32) : Eases (associateAgain rounds first) := by
  refine (eases_mundane (disconnectInline_mundane rounds prevAuthNotValid)).bind fun cleared => ?_
  split
  · exact eases_done _
  · exact eases_prepare (fun _ => eases_done _) associationIoctl_eases

theorem associate_eases (acceptable : Bool) : Eases (associate rounds acceptable) := by
  unfold associate
  split
  · exact eases_done _
  · refine eases_prepare (fun _ => eases_done _) ?_
    refine associationIoctl_eases.next ?_
    intro first last atEase
    split
    · exact atEase
    · exact associateAgain_eases rounds first last atEase

theorem disconnectIoctlsReturned_settles (atEase : standing.atEase = true) :
    disconnectIoctlsReturned.Obeys ownership
      (fun result last => last.atEase = true ∧ (result = .ok true → last = .settled)) standing := by
  obtain ⟨owner, unprepared⟩ := atEase_iff.mp atEase
  refine obeys_atom.mpr ⟨allows_of_permits owner unprepared, ?_⟩
  rintro (_ | receipt)
  · exact ⟨atEase, nofun⟩
  · refine obeys_atom.mpr ⟨allows_of_permits owner unprepared, ?_⟩
    rintro (_ | _ | _)
    · exact ⟨allows_of_permits owner unprepared, fun _ => ⟨atEase, nofun⟩⟩
    · exact ⟨atEase, nofun⟩
    · exact ⟨nofun, fun _ => ⟨rfl, fun _ => rfl⟩⟩

theorem requireDisconnectReturned_settles (atEase : standing.atEase = true) :
    requireDisconnectReturned.Obeys ownership
      (fun result last => last.atEase = true ∧ (result = .ok () → last = .settled)) standing := by
  refine (disconnectIoctlsReturned_settles atEase).next ?_
  rintro (_ | _ | _) last ⟨still, settled⟩
  · exact ⟨still, nofun⟩
  · exact ⟨still, nofun⟩
  · exact ⟨still, fun _ => settled rfl⟩

/-! The terminal stop. -/

theorem sealed_drains : Drains ownership (· = .sealed) (· = .drained) where
  allowed := by
    rintro _ o rfl shared
    cases o with
    | hostTx call =>
      cases call with
      | sealAdmission => exact shared.elim
      | _ => exact nofun
    | enterAssociate | sendStop | associationStarted => exact shared.elim
    | _ => exact nofun
  stays := by
    rintro _ ⟨o, reply⟩ rfl shared unseen
    cases o with
    | queue _ | prepareAssociation | ioctlsReturned _ | enterAssociate | closeAndPush _ =>
      exact shared.elim
    | hostTx call =>
      cases call with
      | sealAdmission => exact shared.elim
      | drained =>
        rcases reply with _ | _ | _
        · rfl
        · rfl
        · exact absurd rfl unseen
      | _ => rfl
    | cleanup call => cases call <;> rfl
    | _ => rfl
  sees := by
    rintro _ rfl
    rfl

theorem receivesQueued_cleared :
    receivesQueued.Obeys ownership (fun _ last => last = .cleared) .cleared := by
  refine obeys_atom.mpr ⟨nofun, ?_⟩
  rintro (_ | _)
  · exact ⟨nofun, fun _ => rfl⟩
  · rfl

theorem stopAndWait_cleared :
    (stopAndWait rounds).Obeys ownership (fun _ last => last.atEase = true) .cleared := by
  refine receivesQueued_cleared.on fun queued => ?_
  split
  · rfl
  refine obeys_atom.mpr ⟨nofun, ?_⟩
  rintro (_ | started)
  · rfl
  · refine obeys_atom.mpr ⟨nofun, ?_⟩
    rintro (_ | _)
    · rfl
    · have awaits : Eases (awaitStop rounds) :=
        eases_mundane ((awaitStop_shared rounds).mono fun _ shared => shared.foreign.mundane)
      refine obeys_atom.mpr ⟨rfl, fun _ => obeys_atom.mpr ⟨nofun, fun _ => ?_⟩⟩
      exact obeys_atom.mpr ⟨nofun, fun _ => awaits .cleared rfl⟩

theorem stopOnce_cleared :
    (stopOnce rounds).Obeys ownership (fun _ last => last.atEase = true) .cleared := by
  refine (stopAndWait_cleared rounds).next ?_
  rintro (status | _) last atEase
  · have reports : Eases (atom (.rxStop (.fail status))) := eases_mundane ⟨trivial, fun _ => trivial⟩
    exact reports.bind (fun _ => eases_done _) last atEase
  · exact atEase

theorem finishDisconnect_eases : Eases (finishDisconnect rounds) := by
  intro standing atEase
  refine (requireDisconnectReturned_settles atEase).next ?_
  rintro (_ | _) last ⟨still, settled⟩
  · exact still
  obtain rfl := settled rfl
  refine obeys_atom.mpr ⟨rfl, fun _ => ?_⟩
  refine (sealed_drains.closeAndDrain rounds rfl).next ?_
  rintro (_ | _) last drained
  · obtain rfl : last = .sealed := drained
    rfl
  obtain rfl : last = .drained := drained
  refine obeys_atom.mpr ⟨nofun, fun status => ?_⟩
  split_ifs with clean
  · subst clean
    exact stopOnce_cleared rounds
  · have eased : (drained.check 0 status).atEase = true :=
      check_atEase 0 status
    exact eased

/-! All jobs. -/

theorem Job.foreign (job : Job) (foreign : job.ofOwner = false) : job.task.Only Op.foreign := by
  have silent {A : Type} {p : Task A} (only : p.Only Op.foreign) : (silently p).Only Op.foreign := by
    exact only.bind fun _ => trivial
  have shared {A : Type} {p : Task A} (only : p.Only Op.shared) : (silently p).Only Op.foreign :=
    silent (only.mono fun _ shared => shared.foreign)
  cases job with
  | startDeauthWorker => exact shared startDeauthWorker_shared
  | deauthWorker rounds => exact silent (deauthWorker_foreign rounds)
  | post kind netbuf => exact shared (post_shared kind netbuf)
  | dispatch kind pointer => exact shared (dispatch_shared kind pointer)
  | free netbuf => exact shared (free_shared netbuf)
  | deleteUser user => exact shared (deleteUser_shared user)
  | freeUser injected user => exact shared (freeUser_shared injected user)
  | postMessage message => exact shared (postMessage_shared message)
  | installStop => exact silent ⟨trivial, fun _ => trivial⟩
  | stopHandler matching sameWorker device report =>
    exact shared (stopHandler_shared matching sameWorker device report)
  | disconnectInline _ _ | queueDeauthentication _ | associate _ _ | contextCall _ _ | connect _ _
  | disconnect _ _ | poll _ _ | finishDisconnect _ => cases foreign

theorem eases_covers : Covers fun _ => Eases where
  done := eases_done
  bind := Eases.bind
  plain only := eases_mundane (only.mono fun _ plain => plain.2)
  worker rounds := eases_mundane ((deauthWorker_foreign rounds).mono fun _ foreign => foreign.mundane)
  inline rounds reason := eases_mundane (disconnectInline_mundane rounds reason)
  associate := associate_eases
  returned _ atEase := (disconnectIoctlsReturned_settles atEase).mono fun _ _ known => known.1
  finish := finishDisconnect_eases

theorem Job.eases (job : Job) : Eases job.task := eases_covers.job job

variable {w w' : World} {o : Op} {reply : o.Reply}

namespace Standing

def ready : Standing → Bool
  | .settled | .sealed | .drained | .cleared => true
  | _ => false

def isSealed : Standing → Bool
  | .sealed | .drained | .cleared => true
  | _ => false

def isDrained : Standing → Bool
  | .drained | .cleared => true
  | _ => false

end Standing

structure Stands (w : World) (standing : Standing) : Prop where
  ready : standing.ready = true → w.queue.pollIdle = .ok (.ready ())
  sealed : standing.isSealed = true → w.hostTx.terminal = true
  empty : standing.isDrained = true → w.hostTx.live = []
  unsealed : standing = .prepared → w.hostTx.terminal = false

theorem stands_idle : Stands w .idle := ⟨nofun, nofun, nofun, nofun⟩

theorem stands_visitor : Stands w .visitor := ⟨nofun, nofun, nofun, nofun⟩

theorem Standing.closed_of_isDrained (drained : standing.isDrained = true) :
    standing.isSealed = true := by
  cases standing <;> first | rfl | cases drained

/-- An action by which nobody seals and the queue does not change takes nothing back. -/
theorem Stands.same (stands : Stands w standing) (guarded : Guarded w.hostTx)
    (taken : Atom w o reply w') (queue : standing.ready = true → w'.queue = w.queue)
    (other : o ≠ .hostTx .sealAdmission) : Stands w' standing := by
  have terminal : w'.hostTx.terminal = w.hostTx.terminal := by
    rcases taken.hostTx_step with same | ⟨label, step, _, seals⟩
    · rw [same]
    · exact step_unsealed step fun sealing => other (seals sealing)
  constructor
  · intro ready
    rw [queue ready]
    exact stands.ready ready
  · rw [terminal]
    exact stands.sealed
  · intro drained
    have closed := guarded.terminal (stands.sealed (closed_of_isDrained drained))
    rcases taken.hostTx_step with same | ⟨label, step, _⟩
    · rw [same]
      exact stands.empty drained
    · exact step_empty step closed (stands.empty drained)
  · rw [terminal]
    exact stands.unsealed

theorem ioctlsReturned_ready {receipt : Option Deauth.Receipt}
    (returned : w.ioctlsReturned receipt = .ok true) : w.queue.pollIdle = .ok (.ready ()) := by
  unfold World.ioctlsReturned at returned
  cases polled : w.queue.pollIdle with
  | error =>
    rw [polled] at returned
    cases returned
  | ok idle =>
    rw [polled] at returned
    cases idle with
    | ready => rfl
    | pending =>
      cases receipt with
      | none => simp at returned
      | some =>
        dsimp only at returned
        split at returned
        · cases returned
        · simp at returned

/-- What one critical section has seen when a preparation succeeds. -/
structure Clear (w : World) : Prop where
  direct : w.rxRejected = false
  idle : w.queue.running = none ∧ w.queue.requests.len = 0
  unfailed : w.queue.nativeFailure = none ∧ w.queue.rejected = 0 ∧ w.queue.fault = none
  users : w.cleanup.live = [] ∧ w.cleanup.fault = 0
  host : w.hostTx.live = [] ∧ w.hostTx.fault = 0

theorem toInt32_eq_zero {status : UInt32} (zero : status.toInt32 = 0) : status = 0 := by
  have same : status.toInt32.toUInt32 = status := by simp
  rw [← same, zero]
  rfl

theorem clear_of_prepared (accounted : Accounted w.hostTx)
    (users : UserCleanup.Accounted w.cleanup) (prepared : w.prepareAssociation.1 = .ok ()) :
    Clear w ∧ w.prepareAssociation.2.hostTx.terminal = false := by
  rcases prepareAssociation_cases w with ⟨status, refused⟩ | ⟨direct, idle, resumed⟩
  · rw [refused] at prepared
    cases prepared
  rw [resumed] at prepared ⊢
  unfold Tracker.resumeHandshake at prepared ⊢
  split_ifs at prepared ⊢ with native faulted busy
  simp only [not_or, not_not, Bool.not_eq_true] at native faulted busy
  have empty : w.hostTx.live = [] := by
    rw [← List.length_eq_zero_iff, ← accounted.pending, busy.2]
    rfl
  obtain ⟨fault, failure, rejected, running, waiting⟩ := Deauth.pollIdle_ready.mp idle
  obtain ⟨clean, gone⟩ := (UserCleanup.handshakeStatus_eq_zero users).mp (toInt32_eq_zero native)
  exact ⟨⟨direct, ⟨running, waiting⟩, ⟨failure, rejected, fault⟩, ⟨gone, clean⟩, empty, faulted⟩,
    busy.1⟩

theorem quiet_queue (taken : Atom w o reply w') (silent : queueLabel o reply = none) :
    w'.queue = w.queue := by
  rcases taken.queue_step with ⟨_, same⟩ | ⟨label, told, _⟩
  · exact same
  · rw [silent] at told
    cases told

section

variable (stands : Stands w standing)
include stands

theorem Stands.drain (quiet : w.hostTx.live = []) : Stands w standing.drain := by
  cases standing with
  | sealed => exact ⟨fun _ => stands.ready rfl, fun _ => stands.sealed rfl, fun _ => quiet, nofun⟩
  | _ => exact stands

theorem Stands.check (status checked : Int32) : Stands w (standing.check status checked) := by
  cases standing with
  | drained =>
    dsimp only [check]
    split_ifs
    · exact ⟨fun _ => stands.ready rfl, fun _ => stands.sealed rfl, fun _ => stands.empty rfl, nofun⟩
    · exact stands
  | _ => exact stands

omit stands in
theorem stands_request : Stands w standing.request := by
  cases standing <;> first | exact stands_idle | exact stands_visitor

theorem Stands.own (guarded : Guarded w.hostTx) (accounted : Accounted w.hostTx)
    (users : UserCleanup.Accounted w.cleanup) (permitted : standing.permits o)
    (taken : Atom w o reply w') : Stands w' (standing.after ⟨o, reply⟩) := by
  have same (silent : queueLabel o reply = none) (other : o ≠ .hostTx .sealAdmission) :
      Stands w' standing := stands.same guarded taken (fun _ => quiet_queue taken silent) other
  cases taken with
  | queue call =>
    cases call with
    | health | checkpoint | receiptSince _ => exact same rfl nofun
    | _ => exact stands_request
  | hostTx call =>
    cases call with
    | sealAdmission =>
      obtain rfl : standing = .settled := permitted
      exact ⟨fun _ => stands.ready rfl, fun _ => rfl, nofun, nofun⟩
    | drained =>
      dsimp only [HostTxCall.answer]
      rcases seen : w.hostTx.drained with _ | _ | _
      · exact stands
      · exact stands
      · exact stands.drain (quiet_of_drained accounted seen).empty
    | _ => exact same rfl nofun
  | cleanup call =>
    cases call with
    | checkedStatus status => exact stands.check status _
    | _ => exact same rfl nofun
  | closeAndPush => exact stands_request
  | prepareAssociation =>
    cases result : w.prepareAssociation.1 with
    | error =>
      exact same rfl nofun
    | ok =>
      have unsealed := (clear_of_prepared accounted users result).2
      exact ⟨nofun, nofun, nofun, fun _ => unsealed⟩
  | ioctlsReturned receipt =>
    rcases returned : w.ioctlsReturned receipt with _ | _ | _
    · exact stands
    · exact stands
    · exact ⟨fun _ => ioctlsReturned_ready returned, nofun, nofun, nofun⟩
  | enterAssociate => exact stands_idle
  | _ => exact same rfl nofun

/-- The step lemma for everybody else: a custodian's report would need a running request. -/
theorem Stands.visit (guarded : Guarded w.hostTx) {phases : Nat → Custody}
    (kept : Kept w phases) {i : Nat} (foreign : o.foreign) (allowed : (phases i).allows o)
    (taken : Atom w o reply w') : Stands w' standing := by
  refine stands.same guarded taken ?_ ?_
  · intro ready
    obtain ⟨_, _, _, free, none_waiting⟩ := Deauth.pollIdle_ready.mp (stands.ready ready)
    cases taken with
    | queue call =>
      cases call with
      | pop =>
        obtain ⟨waiting, ring⟩ := kept.ring
        rcases Deauth.pop_cases ring with ⟨_, refused⟩ | ⟨_, _, rfl, _⟩
        · exact congrArg Prod.snd refused
        · rw [ring.len] at none_waiting
          cases none_waiting
      | complete ticket =>
        have own : (phases i).ticket = some ticket := by
          rcases allowed with held | held <;> rw [held] <;> rfl
        have running := kept.held i ticket own
        rw [free] at running
        cases running
      | _ => exact foreign.elim
    | closeAndPush _ | prepareAssociation => exact foreign.elim
    | _ => rfl
  · rintro rfl
    exact foreign

end

end HisiRf.Teardown
