import HisiRf.Netif.HostTxRuns
import HisiRf.Supplicant.Teardown

/-! What the atomic actions do to each tracker, and which routine takes which of them.

Every change of a tracker is a call of one of its methods, so that what is known
about all histories of the tracker alone holds in any interleaving. Most routines
take shared actions only: those that any thread may take at any time.
-/

namespace HisiRf.Teardown

open Interaction Teardown Op HostTx

variable {w w' : World} {o : Op} {reply : o.Reply}

def queueLabel : (o : Op) → o.Reply → Option Deauth.Label
  | .queue .pop, result => some (.pop result)
  | .queue (.complete ticket status), result => some (.complete ticket status result)
  | .queue (.beginInline reason), result => some (.beginInline reason result)
  | .queue .wakeFailed, _ => some .wakeFailed
  | .queue .workerUnavailable, _ => some .workerUnavailable
  | .closeAndPush reason, result => some (.push reason result)
  | _, _ => none

theorem prepareAssociation_cases (w : World) :
    (∃ status, w.prepareAssociation = (.error status, w)) ∨
      w.rxRejected = false ∧ w.queue.pollIdle = .ok (.ready ()) ∧ w.prepareAssociation =
          ((w.hostTx.resumeHandshake w.cleanup.handshakeStatus.toInt32).1,
            { w with hostTx := (w.hostTx.resumeHandshake w.cleanup.handshakeStatus.toInt32).2 }) := by
  unfold World.prepareAssociation
  cases rejected : w.rxRejected with
  | true => exact .inl ⟨_, rfl⟩
  | false =>
    cases idle : w.queue.pollIdle with
    | error => exact .inl ⟨_, rfl⟩
    | ok poll =>
      cases poll with
      | pending => exact .inl ⟨_, rfl⟩
      | ready => exact .inr ⟨rfl, rfl, rfl⟩

theorem Atom.queue_step (taken : Atom w o reply w') :
    (queueLabel o reply = none ∧ w'.queue = w.queue) ∨
      ∃ label, queueLabel o reply = some label ∧ Deauth.Step w.queue label w'.queue := by
  cases taken with
  | queue call =>
    cases call with
    | pop => exact .inr ⟨_, rfl, .pop⟩
    | complete ticket status => exact .inr ⟨_, rfl, .complete ticket status⟩
    | beginInline reason => exact .inr ⟨_, rfl, .beginInline reason⟩
    | wakeFailed => exact .inr ⟨_, rfl, .wakeFailed⟩
    | workerUnavailable => exact .inr ⟨_, rfl, .workerUnavailable⟩
    | health | checkpoint | receiptSince _ => exact .inl ⟨rfl, rfl⟩
  | closeAndPush reason => exact .inr ⟨_, rfl, .push reason⟩
  | prepareAssociation =>
    refine .inl ⟨rfl, ?_⟩
    rcases prepareAssociation_cases w with ⟨status, refused⟩ | ⟨_, _, prepared⟩
    · rw [refused]
    · rw [prepared]
  | _ => exact .inl ⟨rfl, rfl⟩

/-- Every change of host transmission is one of its calls; it resumes only over an idle queue. -/
theorem Atom.hostTx_step (taken : Atom w o reply w') :
    w'.hostTx = w.hostTx ∨ ∃ label, HostTx.Step w.hostTx label w'.hostTx ∧
      (∀ status result, label = .resumeHandshake status result →
        w.queue.pollIdle = .ok (.ready ())) ∧
      (label = .sealAdmission → o = .hostTx .sealAdmission) := by
  cases taken with
  | hostTx call =>
    cases call with
    | begin pointer => exact .inr ⟨_, .begin pointer, nofun, nofun⟩
    | postReturned ticket status => exact .inr ⟨_, .postReturned ticket status, nofun, nofun⟩
    | dispatch pointer => exact .inr ⟨_, .dispatch pointer, nofun, nofun⟩
    | beforeFree pointer => exact .inr ⟨_, .beforeFree pointer, nofun, nofun⟩
    | complete ticket freeing status =>
      exact .inr ⟨_, .complete ticket freeing status, nofun, nofun⟩
    | close => exact .inr ⟨_, .close, nofun, nofun⟩
    | sealAdmission => exact .inr ⟨_, .sealAdmission, nofun, fun _ => rfl⟩
    | fail status => exact .inr ⟨_, .fail status, nofun, nofun⟩
    | drained => exact .inl rfl
  | closeAndPush | closeAndBegin => exact .inr ⟨_, .close, nofun, nofun⟩
  | prepareAssociation =>
    rcases prepareAssociation_cases w with ⟨status, refused⟩ | ⟨_, idle, prepared⟩
    · rw [refused]
      exact .inl rfl
    · rw [prepared]
      exact .inr ⟨_, .resumeHandshake _, fun _ _ _ => idle, nofun⟩
  | _ => exact .inl rfl

theorem Atom.cleanup_step (taken : Atom w o reply w') :
    w'.cleanup = w.cleanup ∨ ∃ label, UserCleanup.Step w.cleanup label w'.cleanup := by
  cases taken with
  | cleanup call =>
    cases call with
    | checkedStatus => exact .inl rfl
    | beginFree user => exact .inr ⟨_, .beginFree user⟩
    | finishFree ticket status => exact .inr ⟨_, .finishFree ticket status⟩
    | finish ticket outer => exact .inr ⟨_, .finish ticket outer⟩
  | closeAndBegin user => exact .inr ⟨_, .begin user⟩
  | prepareAssociation =>
    left
    rcases prepareAssociation_cases w with ⟨status, refused⟩ | ⟨_, _, prepared⟩
    · rw [refused]
    · rw [prepared]
  | _ => exact .inl rfl

structure Quiet (t : Tracker) : Prop where
  closed : t.closed = true
  empty : t.live = []

/-- Transmission stays quiet under any action while the queue is not idle. -/
theorem Quiet.atom (quiet : Quiet w.hostTx) (taken : Atom w o reply w')
    (busy : w.queue.running ≠ none) : Quiet w'.hostTx := by
  rcases taken.hostTx_step with same | ⟨label, step, resumes, _⟩
  · rw [same]
    exact quiet
  · refine ⟨?_, step_empty step quiet.closed quiet.empty⟩
    by_contra opened
    have resumed := step_opens step quiet.closed (Bool.eq_false_iff.mpr opened)
    exact busy (Deauth.pollIdle_ready.mp (resumes _ _ resumed.named)).2.2.2.1

theorem Atom.begin_open {pointer : Nat} {ticket : Ticket}
    (taken : Atom w (.hostTx (.begin pointer)) (.ok ticket) w') : w.hostTx.closed = false := by
  generalize accepted : (Except.ok ticket : Reply (.hostTx (.begin pointer))) = result at taken
  cases taken
  exact (begin_accepts accepted.symm).isOpen

variable {A : Type} {allowed : Op → Prop} {k : o.Reply → Task A}

theorem only_atom :
    ((atom o).bind k).Only allowed ↔ allowed o ∧ ∀ reply, (k reply).Only allowed := Iff.rfl

def Op.shared : Op → Prop
  | .hostTx .sealAdmission => False
  | .hostTx _ | .cleanup _ | .rxStop _ | .closeAndBegin _ | .claimWorker | .storeWorkerState _
  | .rxModeRejected | .rejectRx | .clock | .sleep | .succeeds | .native | .notifyRunner
  | .closeRoute => True
  | _ => False

theorem startDeauthWorker_shared : startDeauthWorker.Only shared := by
  refine only_atom.mpr ⟨trivial, ?_⟩
  rintro (state | _)
  · cases state <;> trivial
  · refine only_atom.mpr ⟨trivial, ?_⟩
    rintro (_ | _)
    · exact ⟨trivial, fun _ => trivial⟩
    · refine only_atom.mpr ⟨trivial, ?_⟩
      rintro (_ | _) <;> exact ⟨trivial, fun _ => trivial⟩

theorem post_shared (kind : UInt16) (netbuf : Nat) : (post kind netbuf).Only shared := by
  unfold post
  split
  · exact ⟨trivial, fun _ => trivial⟩
  · refine only_atom.mpr ⟨trivial, ?_⟩
    rintro (rejection | ticket)
    · cases rejection
      · exact ⟨trivial, fun _ => trivial⟩
      · trivial
    · exact ⟨trivial, fun _ => ⟨trivial, fun _ => trivial⟩⟩

theorem dispatch_shared (kind : UInt16) (pointer : Nat) :
    (dispatch kind pointer).Only shared := by
  unfold dispatch
  split
  · refine only_atom.mpr ⟨trivial, fun ticket => only_atom.mpr ⟨trivial, fun status => ?_⟩⟩
    cases ticket with
    | none => trivial
    | some => exact ⟨trivial, fun _ => trivial⟩
  · exact ⟨trivial, fun _ => trivial⟩

theorem free_shared (netbuf : Nat) : (free netbuf).Only shared := by
  refine only_atom.mpr ⟨trivial, fun ticket => only_atom.mpr ⟨trivial, fun status => ?_⟩⟩
  cases ticket with
  | none => trivial
  | some => exact ⟨trivial, fun _ => trivial⟩

theorem deleteUser_shared (user : Nat) : (deleteUser user).Only shared :=
  ⟨trivial, fun _ => ⟨trivial, fun _ => ⟨trivial, fun _ => ⟨trivial, fun _ => trivial⟩⟩⟩⟩

theorem freeUser_shared (injected : Option UInt32) (user : Nat) :
    (freeUser injected user).Only shared := by
  refine only_atom.mpr ⟨trivial, fun ticket => only_atom.mpr ⟨trivial, fun returned => ?_⟩⟩
  cases ticket with
  | none => trivial
  | some => exact ⟨trivial, fun _ => trivial⟩

theorem postMessage_shared (message : UInt16) : (postMessage message).Only shared := by
  unfold postMessage
  split
  · exact ⟨trivial, fun _ => ⟨trivial, fun _ => trivial⟩⟩
  · exact ⟨trivial, fun _ => trivial⟩

theorem waitForDrain_shared (started : UInt64) (rounds : Nat) :
    (waitForDrain started rounds).Only shared := by
  induction rounds with
  | zero => trivial
  | succ rounds ih =>
    refine only_atom.mpr ⟨trivial, ?_⟩
    rintro (status | _ | _)
    · trivial
    · refine only_atom.mpr ⟨trivial, ?_⟩
      rintro (_ | now)
      · trivial
      · dsimp only
        split
        · trivial
        · refine only_atom.mpr ⟨trivial, ?_⟩
          rintro (_ | _)
          · trivial
          · exact ih
    · trivial

theorem noteDrain_shared (result : Except Int32 Unit) : (noteDrain result).Only shared := by
  cases result with
  | error => exact ⟨trivial, fun _ => trivial⟩
  | ok => trivial

variable (rounds : Nat)

theorem closeAndDrain_shared : (closeAndDrain rounds).Only shared := by
  refine only_atom.mpr ⟨trivial, fun _ => only_atom.mpr ⟨trivial, ?_⟩⟩
  rintro (_ | started)
  · exact noteDrain_shared _
  · exact (waitForDrain_shared started rounds).bind noteDrain_shared

/-! The device worker. -/

theorem receivesQueued_shared : receivesQueued.Only shared := by
  refine only_atom.mpr ⟨trivial, ?_⟩
  rintro (_ | _)
  · exact ⟨trivial, fun _ => trivial⟩
  · trivial

theorem observeStop_shared (checkpoint : RxStop.Checkpoint) :
    (observeStop checkpoint).Only shared := ⟨trivial, fun _ => ⟨trivial, fun _ => trivial⟩⟩

theorem finishStop_shared (report : Int32) (device : Bool) (before status : Int32) :
    (finishStop report device before status).Only shared := by
  refine (observeStop_shared .destroyed).bind fun _ => only_atom.mpr ⟨trivial, fun after => ?_⟩
  split
  · exact ⟨trivial, fun _ => trivial⟩
  · refine only_atom.mpr ⟨trivial, fun empty => only_atom.mpr ⟨trivial, fun now => ?_⟩⟩
    split
    · exact ⟨trivial, fun _ => ⟨trivial, fun _ => ⟨trivial, fun _ => trivial⟩⟩⟩
    · exact ⟨trivial, fun _ => ⟨trivial, fun _ => trivial⟩⟩

theorem stopNatively_shared (report : Int32) (device : Bool) :
    (stopNatively report device).Only shared := by
  refine only_atom.mpr ⟨trivial, fun before => (observeStop_shared .disabled).bind fun _ =>
    only_atom.mpr ⟨trivial, fun disabled => ?_⟩⟩
  split
  · exact only_atom.mpr ⟨trivial, finishStop_shared report device before⟩
  · exact finishStop_shared report device before _

theorem stopHandler_shared (matching sameWorker device : Bool) (report : Int32) :
    (stopHandler matching sameWorker device report).Only shared := by
  unfold stopHandler
  split
  · exact ⟨trivial, fun _ => trivial⟩
  refine only_atom.mpr ⟨trivial, fun now => only_atom.mpr ⟨trivial, ?_⟩⟩
  rintro (status | _)
  · trivial
  dsimp only
  split
  · exact ⟨trivial, fun _ => trivial⟩
  · refine receivesQueued_shared.bind fun queued => ?_
    split
    · exact ⟨trivial, fun _ => trivial⟩
    · refine only_atom.mpr ⟨trivial, fun now => only_atom.mpr ⟨trivial, ?_⟩⟩
      rintro (status | _)
      · trivial
      · exact stopNatively_shared report device

theorem awaitStop_shared : (awaitStop rounds).Only shared := by
  induction rounds with
  | zero => trivial
  | succ rounds ih =>
    refine only_atom.mpr ⟨trivial, fun now => only_atom.mpr ⟨trivial, ?_⟩⟩
    rintro (_ | _ | _)
    · trivial
    · refine only_atom.mpr ⟨trivial, ?_⟩
      rintro (_ | _)
      · trivial
      · exact ih
    · trivial

/-! ## Routines that take requests, and those of the owner -/

/-- The shared actions and those of the custodian of a request. -/
def Op.foreign : Op → Prop
  | .queue .pop | .queue (.complete _ _) | .enterDisconnect _ | .leaveDisconnect => True
  | o => o.shared

theorem Op.shared.foreign (shared : o.shared) : o.foreign := by
  cases o with
  | queue => exact shared.elim
  | enterDisconnect _ | leaveDisconnect => trivial
  | _ => exact shared

/-- Everything but associating, sealing, stopping and asking whether the requests have returned. -/
def Op.mundane : Op → Prop
  | .prepareAssociation | .ioctlsReturned _ | .enterAssociate | .sendStop
  | .hostTx .sealAdmission => False
  | _ => True

theorem Op.foreign.mundane (foreign : o.foreign) : o.mundane := by
  cases o with
  | hostTx call =>
    cases call with
    | sealAdmission => exact foreign
    | _ => trivial
  | prepareAssociation | ioctlsReturned _ | enterAssociate | sendStop => exact foreign
  | _ => trivial

/-- What a thread without a request may do at any time. -/
def Op.ordinary : Op → Prop
  | .queue .pop | .queue (.beginInline _) | .queue (.complete _ _) | .enterDisconnect _
  | .leaveDisconnect => False
  | _ => True

/-- What is neither for custodians nor for one of the owner's own decisions. -/
def Op.plain (o : Op) : Prop := o.ordinary ∧ o.mundane

theorem checkedDisconnect_foreign (request : Deauth.Request) :
    (checkedDisconnect rounds request).Only foreign := by
  have drains := (closeAndDrain_shared rounds).mono fun _ shared => shared.foreign
  refine Program.Only.bind (Program.Only.bind drains ?_) fun _ => ⟨trivial, fun _ => trivial⟩
  rintro (_ | _)
  · trivial
  · exact ⟨trivial, fun _ => ⟨trivial, fun _ => trivial⟩⟩

theorem deauthWorker_foreign : (deauthWorker rounds).Only foreign := by
  refine only_atom.mpr ⟨trivial, ?_⟩
  rintro (_ | request)
  · trivial
  · refine (checkedDisconnect_foreign rounds request).bind fun status =>
      only_atom.mpr ⟨trivial, ?_⟩
    rintro (_ | _)
    · exact ⟨trivial, fun _ => ⟨trivial, fun _ => trivial⟩⟩
    · exact ⟨trivial, fun _ => trivial⟩

theorem inlineResult_plain (status : Int32) (completed : Except Deauth.Error Unit) :
    (inlineResult status completed).Only plain := by
  cases completed with
  | error => trivial
  | ok =>
    refine only_atom.mpr ⟨⟨trivial, trivial⟩, ?_⟩
    rintro (_ | _) <;> trivial

theorem runInline_mundane (reason : UInt16) : (runInline rounds reason).Only mundane := by
  refine only_atom.mpr ⟨trivial, ?_⟩
  rintro (error | request)
  · trivial
  · refine ((checkedDisconnect_foreign rounds request).mono fun _ foreign => foreign.mundane).bind
      fun status => only_atom.mpr ⟨trivial, fun completed => only_atom.mpr ⟨trivial, ?_⟩⟩
    have report := (inlineResult_plain status completed).mono fun _ plain => plain.2
    rintro (_ | _)
    · exact ⟨trivial, fun _ => report⟩
    · exact report

theorem disconnectInline_mundane (reason : UInt16) :
    (disconnectInline rounds reason).Only mundane := by
  refine only_atom.mpr ⟨trivial, fun _ => only_atom.mpr ⟨trivial, fun state => ?_⟩⟩
  split
  · exact ⟨trivial, fun _ => trivial⟩
  · refine (runInline_mundane rounds reason).bind fun result =>
      only_atom.mpr ⟨trivial, fun _ => ?_⟩
    cases result <;> trivial

theorem queueDeauthentication_plain (reason : UInt16) :
    (queueDeauthentication reason).Only plain := by
  have plain : True ∧ True := ⟨trivial, trivial⟩
  refine only_atom.mpr ⟨plain, fun _ => only_atom.mpr ⟨plain, fun state => ?_⟩⟩
  split
  · exact ⟨plain, fun _ => ⟨plain, fun _ => trivial⟩⟩
  · refine only_atom.mpr ⟨plain, ?_⟩
    rintro (_ | _)
    · trivial
    · refine only_atom.mpr ⟨plain, ?_⟩
      rintro (_ | _)
      · exact ⟨plain, fun _ => ⟨plain, fun _ => ⟨plain, fun _ => trivial⟩⟩⟩
      · trivial

theorem Op.shared.plain (shared : o.shared) : o.plain := by
  refine ⟨?_, shared.foreign.mundane⟩
  cases o with
  | queue _ | enterDisconnect _ | leaveDisconnect => exact shared.elim
  | _ => trivial

/-- A property of programs that sequences keep, that plain programs have, and with them the
routines that are not put together from others. -/
structure Covers (fine : ∀ A : Type, Task A → Prop) : Prop where
  done : ∀ {A : Type} (a : A), fine A (.done a)
  bind : ∀ {A B : Type} {p : Task A} {k : A → Task B}, fine A p → (∀ a, fine B (k a)) →
    fine B (p.bind k)
  plain : ∀ {A : Type} {p : Task A}, p.Only plain → fine A p
  worker : ∀ rounds, fine Unit (deauthWorker rounds)
  inline : ∀ rounds reason, fine Int32 (disconnectInline rounds reason)
  associate : ∀ rounds acceptable, fine Int32 (associate rounds acceptable)
  returned : fine (Except Int32 Bool) disconnectIoctlsReturned
  finish : ∀ rounds, fine (Except Int32 Unit) (finishDisconnect rounds)

namespace Covers

variable {fine : ∀ A : Type, Task A → Prop}

section

variable (covers : Covers fine)
include covers

theorem shared {p : Task A} (only : p.Only shared) : fine A p :=
  covers.plain (only.mono fun _ shared => shared.plain)

theorem atom (plain : o.plain) (rest : ∀ reply, fine A (k reply)) :
    fine A ((Teardown.atom o).bind k) := by
  have only : (Teardown.atom o).Only Op.plain := ⟨plain, fun _ => trivial⟩
  exact covers.bind (covers.plain only) rest

theorem hook (asked : Hook) : fine Int32 (hook rounds asked) := by
  cases asked with
  | associate acceptable => exact covers.associate rounds acceptable
  | deauthenticate reason => exact covers.plain (queueDeauthentication_plain reason)

theorem callHooks (hooks : List Hook) : fine Int32 (callHooks rounds hooks) := by
  induction hooks with
  | nil => exact covers.plain ⟨⟨trivial, trivial⟩, fun _ => trivial⟩
  | cons first rest ih => exact covers.bind (covers.hook rounds first) fun _ => ih

theorem require : fine (Except Int32 Unit) requireDisconnectReturned := by
  refine covers.bind covers.returned ?_
  rintro (_ | _ | _) <;> exact covers.done _

theorem connect (hooks : List Hook) : fine (Except Int32 Unit) (connect rounds hooks) := by
  refine covers.bind covers.require ?_
  rintro (_ | _)
  · exact covers.done _
  · exact covers.bind (covers.callHooks rounds hooks) fun _ => covers.done _

theorem disconnect (hooks : List Hook) :
    fine (Except Int32 Unit) (disconnect rounds hooks) := by
  refine covers.bind covers.require ?_
  rintro (_ | _)
  · exact covers.done _
  · refine covers.atom ⟨trivial, trivial⟩ fun before =>
      covers.bind (covers.callHooks rounds hooks) fun status => covers.atom ⟨trivial, trivial⟩ ?_
    rintro (_ | _) <;> exact covers.atom ⟨trivial, trivial⟩ fun _ => covers.done _

theorem serveWork (work : List Work) :
    fine (Except Int32 Unit) (serveWork rounds work) := by
  induction work with
  | nil => exact covers.done _
  | cons first rest ih =>
    cases first with
    | call asked => exact covers.bind (covers.hook rounds asked) fun _ => ih
    | clear =>
      refine covers.bind (covers.inline rounds prevAuthNotValid) fun cleared => ?_
      split
      · exact covers.done _
      · exact ih

theorem poll (work : List Work) : fine (Except Int32 Unit) (poll rounds work) := by
  refine covers.bind covers.returned ?_
  rintro (_ | _ | _)
  · exact covers.done _
  · exact covers.done _
  · exact covers.serveWork rounds work

theorem job (job : Job) : fine Unit job.task := by
  have silent {A : Type} {p : Task A} (holds : fine A p) : fine Unit (silently p) :=
    covers.bind holds fun _ => covers.done _
  cases job with
  | startDeauthWorker => exact silent (covers.shared startDeauthWorker_shared)
  | deauthWorker rounds => exact silent (covers.worker rounds)
  | disconnectInline rounds reason => exact silent (covers.inline rounds reason)
  | queueDeauthentication reason => exact silent (covers.plain (queueDeauthentication_plain reason))
  | associate rounds acceptable => exact silent (covers.associate rounds acceptable)
  | post kind netbuf => exact silent (covers.shared (post_shared kind netbuf))
  | dispatch kind pointer => exact silent (covers.shared (dispatch_shared kind pointer))
  | free netbuf => exact silent (covers.shared (free_shared netbuf))
  | deleteUser user => exact silent (covers.shared (deleteUser_shared user))
  | freeUser injected user => exact silent (covers.shared (freeUser_shared injected user))
  | postMessage message => exact silent (covers.shared (postMessage_shared message))
  | installStop => exact silent (covers.plain ⟨⟨trivial, trivial⟩, fun _ => trivial⟩)
  | stopHandler matching sameWorker device report =>
    exact silent (covers.shared (stopHandler_shared matching sameWorker device report))
  | contextCall rounds hooks => exact silent (covers.callHooks rounds hooks)
  | connect rounds hooks => exact silent (covers.connect rounds hooks)
  | disconnect rounds hooks => exact silent (covers.disconnect rounds hooks)
  | poll rounds work => exact silent (covers.poll rounds work)
  | finishDisconnect rounds => exact silent (covers.finish rounds)

end

end Covers

variable {Phase : Type} {protocol : Protocol ops Phase} {phase : Phase}

/-- Success of a drain: the tracker was seen closed and empty. -/
abbrev sawDrained : Exchange ops := ⟨.hostTx .drained, .ok true⟩

/-- Phases of a thread that waits for transmission to drain, and those after it has. -/
structure Drains (protocol : Protocol ops Phase) (waiting done : Phase → Prop) : Prop where
  allowed : ∀ phase o, waiting phase → o.shared → protocol.allows phase o
  stays : ∀ phase exchange, waiting phase → exchange.op.shared → exchange ≠ sawDrained →
    waiting (protocol.after phase exchange)
  sees : ∀ phase, waiting phase → done (protocol.after phase sawDrained)

variable {waiting done : Phase → Prop}

/-- Draining succeeds only after the tracker was seen drained. -/
def Drained (waiting done : Phase → Prop) (result : Except Int32 Unit) (phase : Phase) : Prop :=
  match result with
  | .ok () => done phase
  | .error _ => waiting phase

section

variable (drains : Drains protocol waiting done)
include drains

theorem Drains.waitForDrain (started : UInt64) (rounds : Nat) (waits : waiting phase) :
    (waitForDrain started rounds).Obeys protocol (Drained waiting done) phase := by
  induction rounds generalizing phase with
  | zero => exact waits
  | succ rounds ih =>
    refine obeys_atom.mpr ⟨drains.allowed _ _ waits trivial, ?_⟩
    rintro (status | _ | _)
    · exact drains.stays _ _ waits trivial nofun
    · have seen := drains.stays _ ⟨.hostTx .drained, .ok false⟩ waits trivial nofun
      refine obeys_atom.mpr ⟨drains.allowed _ _ seen trivial, ?_⟩
      intro now
      have read := drains.stays _ ⟨.clock, now⟩ seen trivial nofun
      cases now with
      | none => exact read
      | some =>
        dsimp only
        split
        · exact read
        · refine obeys_atom.mpr ⟨drains.allowed _ _ read trivial, ?_⟩
          intro slept
          have rested := drains.stays _ ⟨.sleep, slept⟩ read trivial nofun
          cases slept with
          | false => exact rested
          | true => exact ih rested
    · exact drains.sees _ waits

theorem Drains.noteDrain (result : Except Int32 Unit) (phase : Phase)
    (drained : Drained waiting done result phase) :
    (noteDrain result).Obeys protocol (Drained waiting done) phase := by
  cases result with
  | error =>
    exact obeys_atom.mpr ⟨drains.allowed _ _ drained trivial, fun _ =>
      drains.stays _ _ drained trivial nofun⟩
  | ok => exact drained

theorem Drains.closeAndDrain (waits : waiting phase) :
    (closeAndDrain rounds).Obeys protocol (Drained waiting done) phase := by
  refine obeys_atom.mpr ⟨drains.allowed _ _ waits trivial, fun _ => ?_⟩
  have closed := drains.stays _ ⟨.hostTx .close, ()⟩ waits trivial nofun
  refine obeys_atom.mpr ⟨drains.allowed _ _ closed trivial, ?_⟩
  intro now
  have read := drains.stays _ ⟨.clock, now⟩ closed trivial nofun
  cases now with
  | none => exact drains.noteDrain _ _ read
  | some started =>
    exact (drains.waitForDrain started rounds read).next drains.noteDrain

end

def smooth (w : World) : (o : Op) → o.Reply × World
  | .queue call => ((call.answer w.queue).1, { w with queue := (call.answer w.queue).2 })
  | .hostTx call => ((call.answer w.hostTx).1, { w with hostTx := (call.answer w.hostTx).2 })
  | .cleanup call => ((call.answer w.cleanup).1, { w with cleanup := (call.answer w.cleanup).2 })
  | .rxStop call => ((call.answer w.rxStop).1, { w with rxStop := (call.answer w.rxStop).2 })
  | .closeAndPush reason =>
    ((w.queue.push reason).1,
      { w with hostTx := w.hostTx.close, queue := (w.queue.push reason).2 })
  | .closeAndBegin user =>
    ((w.cleanup.begin user).1,
      { w with hostTx := w.hostTx.close, cleanup := (w.cleanup.begin user).2 })
  | .prepareAssociation => w.prepareAssociation
  | .ioctlsReturned receipt => (w.ioctlsReturned receipt, w)
  | .claimWorker =>
    if w.workerState = .free then (.ok (), { w with workerState := .starting })
    else (.error w.workerState, w)
  | .loadWorkerState => (w.workerState, w)
  | .storeWorkerState state => ((), { w with workerState := state })
  | .rxModeRejected => (w.rxRejected, w)
  | .rejectRx => ((), { w with rxRejected := true })
  | .loadReceipt => (w.disconnectReceipt, w)
  | .storeReceipt receipt => ((), { w with disconnectReceipt := receipt })
  | .clock => (some 0, w)
  | .sleep | .wake | .succeeds => (true, w)
  | .native | .sendStop | .leaveAssociate | .leaveDisconnect => (0, w)
  | .notifyRunner | .closeRoute | .associationStarted | .enterAssociate | .enterDisconnect _ => ((), w)

theorem smooth_atom (w : World) (o : Op) : Atom w o (smooth w o).1 (smooth w o).2 := by
  cases o with
  | claimWorker =>
    unfold smooth
    split
    next free => exact .claimWorker free
    next taken => exact .claimRefused taken
  | _ => constructor

end HisiRf.Teardown
