import HisiRf.Supplicant.Actions

/-! Who holds a deauthentication request, and what that keeps others from doing.

A thread that has taken a request out of the queue is its custodian until it
reports the result. It drains host transmission, makes the native call and
reports, in this order. There is never more than one custodian, and as long as
there is one the queue is not idle, which is why nobody reopens transmission.
-/

namespace HisiRf.Teardown

open Interaction Function Deauth
open Deauth (Ticket Request)

inductive Custody where
  | idle
  | holding (ticket : Ticket)
  | drained (ticket : Ticket)
  | calling (ticket : Ticket)
  | returned (ticket : Ticket)

namespace Custody

def ticket : Custody → Option Ticket
  | .idle => none
  | .holding ticket | .drained ticket | .calling ticket | .returned ticket => some ticket

def settled : Custody → Bool
  | .idle | .holding _ => false
  | .drained _ | .calling _ | .returned _ => true

def allows (phase : Custody) : Op → Prop
  | .queue .pop | .queue (.beginInline _) => phase = .idle
  | .queue (.complete ticket _) => phase = .holding ticket ∨ phase = .returned ticket
  | .enterDisconnect request => phase = .drained request.ticket
  | .leaveDisconnect => ∃ ticket, phase = .calling ticket
  | _ => True

def drain : Custody → Custody
  | .holding ticket => .drained ticket
  | phase => phase

def enter : Custody → Custody
  | .drained ticket => .calling ticket
  | phase => phase

def leave : Custody → Custody
  | .calling ticket => .returned ticket
  | phase => phase

def after (phase : Custody) : Exchange ops → Custody
  | ⟨.queue .pop, some request⟩ => .holding request.ticket
  | ⟨.queue (.beginInline _), .ok request⟩ => .holding request.ticket
  | ⟨.queue (.complete _ _), _⟩ => .idle
  | ⟨.hostTx .drained, .ok true⟩ => phase.drain
  | ⟨.enterDisconnect _, _⟩ => phase.enter
  | ⟨.leaveDisconnect, _⟩ => phase.leave
  | _ => phase

end Custody

def custody : Protocol ops Custody := ⟨Custody.allows, Custody.after⟩

theorem Op.ordinary.allowed {o : Op} (ordinary : o.ordinary) : Custody.idle.allows o := by
  cases o with
  | queue call => cases call <;> first | exact trivial | exact ordinary.elim
  | enterDisconnect _ | leaveDisconnect => exact ordinary.elim
  | _ => trivial

theorem Op.ordinary.stays {o : Op} (ordinary : o.ordinary) (reply : o.Reply) :
    Custody.idle.after ⟨o, reply⟩ = .idle := by
  cases o with
  | queue call => cases call <;> first | rfl | exact ordinary.elim
  | hostTx call =>
    cases call with
    | drained => rcases reply with _ | _ | _ <;> rfl
    | _ => rfl
  | enterDisconnect _ | leaveDisconnect => exact ordinary.elim
  | _ => rfl

variable {A B : Type}

/-- The program takes and returns requests as it should and ends without one. -/
def Returns (p : Task A) : Prop := p.Obeys custody (fun _ phase => phase = .idle) .idle

variable {p : Task A}

theorem Returns.bind {k : A → Task B} (first : Returns p) (rest : ∀ a, Returns (k a)) :
    Returns (p.bind k) := first.on rest

theorem returns_ordinary (only : p.Only Op.ordinary) : Returns p :=
  .still only (fun _ ordinary => ordinary.allowed) fun _ reply ordinary => ordinary.stays reply

theorem returns_shared (only : p.Only Op.shared) : Returns p :=
  returns_ordinary (only.mono fun _ shared => shared.plain.1)

theorem returns_plain (only : p.Only Op.plain) : Returns p :=
  returns_ordinary (only.mono fun _ plain => plain.1)

theorem returns_atom {o : Op} {k : o.Reply → Task A} (ordinary : o.ordinary)
    (rest : ∀ reply, Returns (k reply)) : Returns ((atom o).bind k) :=
  Returns.bind (returns_ordinary ⟨ordinary, fun _ => trivial⟩) rest

/-! The native part of a request. -/

theorem holding_drains (ticket : Ticket) :
    Drains custody (· = .holding ticket) (· = .drained ticket) where
  allowed := by
    rintro _ o rfl shared
    cases o with
    | queue _ | enterDisconnect _ | leaveDisconnect => exact shared.elim
    | _ => trivial
  stays := by
    rintro _ ⟨o, reply⟩ rfl shared unseen
    cases o with
    | queue _ | enterDisconnect _ | leaveDisconnect => exact shared.elim
    | hostTx call =>
      cases call with
      | drained =>
        rcases reply with _ | _ | _
        · rfl
        · rfl
        · exact absurd rfl unseen
      | _ => rfl
    | _ => rfl
  sees := by
    rintro _ rfl
    rfl

variable (rounds : Nat)

/-- The request is still held if draining failed, and else the native call has returned. -/
theorem checkedDisconnect_custody (request : Request) :
    (checkedDisconnect rounds request).Obeys custody
      (fun _ phase => phase = .holding request.ticket ∨ phase = .returned request.ticket)
      (.holding request.ticket) := by
  refine Program.Obeys.bind (Program.Obeys.bind
    (((holding_drains request.ticket).closeAndDrain rounds rfl).mono ?_))
  rintro (status | _) _ rfl
  · exact ⟨trivial, fun _ => .inl rfl⟩
  · exact ⟨rfl, fun _ => ⟨⟨_, rfl⟩, fun _ => ⟨trivial, fun _ => .inr rfl⟩⟩⟩

theorem deauthWorker_returns : Returns (deauthWorker rounds) := by
  refine obeys_atom.mpr ⟨rfl, ?_⟩
  rintro (_ | request)
  · rfl
  · refine (checkedDisconnect_custody rounds request).next ?_
    intro status phase kept
    refine obeys_atom.mpr ⟨kept, ?_⟩
    rintro (_ | _)
    · exact returns_ordinary ⟨trivial, fun _ => ⟨trivial, fun _ => trivial⟩⟩
    · exact returns_ordinary ⟨trivial, fun _ => trivial⟩

/-! The calls of the owner. -/

theorem runInline_returns (reason : UInt16) : Returns (runInline rounds reason) := by
  refine obeys_atom.mpr ⟨rfl, ?_⟩
  rintro (error | request)
  · rfl
  · refine (checkedDisconnect_custody rounds request).next ?_
    intro status phase kept
    refine obeys_atom.mpr ⟨kept, fun completed => returns_atom trivial ?_⟩
    have report := returns_plain (inlineResult_plain status completed)
    rintro (_ | _)
    · exact returns_atom trivial fun _ => report
    · exact report

theorem disconnectInline_returns (reason : UInt16) : Returns (disconnectInline rounds reason) := by
  refine returns_atom trivial fun _ => returns_atom trivial fun state => ?_
  split
  · exact returns_ordinary ⟨trivial, fun _ => trivial⟩
  · refine (runInline_returns rounds reason).bind fun result => returns_atom trivial fun _ => ?_
    cases result <;> rfl

theorem associationIoctl_returns : Returns associationIoctl :=
  returns_ordinary ⟨trivial, fun _ => ⟨trivial, fun _ => ⟨trivial, fun _ => trivial⟩⟩⟩

theorem associate_returns (acceptable : Bool) : Returns (associate rounds acceptable) := by
  have again (first : Int32) : Returns (associateAgain rounds first) := by
    refine (disconnectInline_returns rounds prevAuthNotValid).bind fun cleared => ?_
    split
    · rfl
    · refine returns_atom trivial ?_
      rintro (_ | _)
      · rfl
      · exact associationIoctl_returns
  unfold associate
  split
  · rfl
  · refine returns_atom trivial ?_
    rintro (_ | _)
    · rfl
    · refine associationIoctl_returns.bind fun first => ?_
      split
      · rfl
      · exact again first

theorem disconnectIoctlsReturned_ordinary : disconnectIoctlsReturned.Only Op.ordinary := by
  refine only_atom.mpr ⟨trivial, ?_⟩
  rintro (_ | receipt)
  · trivial
  · refine only_atom.mpr ⟨trivial, ?_⟩
    rintro (_ | _ | _)
    · exact ⟨trivial, fun _ => trivial⟩
    · trivial
    · exact ⟨trivial, fun _ => trivial⟩

theorem requireDisconnectReturned_returns : Returns requireDisconnectReturned := by
  refine (returns_ordinary disconnectIoctlsReturned_ordinary).bind ?_
  rintro (_ | _ | _) <;> rfl

theorem stopAndWait_returns : Returns (stopAndWait rounds) := by
  refine (returns_shared receivesQueued_shared).bind fun queued => ?_
  split
  · rfl
  refine returns_atom trivial ?_
  rintro (_ | started)
  · rfl
  · refine returns_atom trivial ?_
    rintro (_ | _)
    · rfl
    · exact returns_atom trivial fun _ => returns_atom trivial fun _ => returns_atom trivial fun _ =>
        returns_shared (awaitStop_shared rounds)

theorem stopOnce_returns : Returns (stopOnce rounds) := by
  refine (stopAndWait_returns rounds).bind ?_
  rintro (_ | _)
  · exact returns_atom trivial fun _ => rfl
  · rfl

theorem finishDisconnect_returns : Returns (finishDisconnect rounds) := by
  refine requireDisconnectReturned_returns.bind ?_
  rintro (_ | _)
  · rfl
  · refine Returns.bind (returns_atom trivial fun _ => returns_shared (closeAndDrain_shared rounds)) ?_
    rintro (_ | _)
    · rfl
    · refine returns_atom trivial fun status => ?_
      split
      · exact stopOnce_returns rounds
      · rfl

theorem returns_covers : Covers fun _ => Returns where
  done _ := rfl
  bind := Returns.bind
  plain := returns_plain
  worker := deauthWorker_returns
  inline := disconnectInline_returns
  associate := associate_returns
  returned := returns_ordinary disconnectIoctlsReturned_ordinary
  finish := finishDisconnect_returns

theorem Job.returns (job : Job) : Returns job.task := returns_covers.job job

variable {w w' : World} {o : Op} {reply : o.Reply}

variable {phase : Custody}

def entered : Exchange ops → Option Ticket
  | ⟨.enterDisconnect request, _⟩ => some request.ticket
  | _ => none

def left : Exchange ops → Bool
  | ⟨.leaveDisconnect, _⟩ => true
  | _ => false

def reported (exchange : Exchange ops) : Option (Ticket × Int32) :=
  (queueLabel exchange.op exchange.reply).bind Label.completion

/-- One action of a thread, as far as custody is concerned. -/
inductive Turn (w w' : World) (phase phase' : Custody) (exchange : Exchange ops) : Prop where
  | takes (ticket : Ticket) (idle : phase = .idle) (next : phase' = .holding ticket)
      (free : w.queue.running = none) (runs : w'.queue.running = some ticket)
      (silent : entered exchange = none ∧ left exchange = false ∧ reported exchange = none)
  | drains (ticket : Ticket) (held : phase = .holding ticket)
      (next : phase' = .drained ticket) (world : w' = w) (seen : w.hostTx.drained = .ok true)
      (silent : entered exchange = none ∧ left exchange = false ∧ reported exchange = none)
  | enters (request : Request) (held : phase = .drained request.ticket)
      (next : phase' = .calling request.ticket) (world : w' = w)
      (named : exchange = ⟨.enterDisconnect request, ()⟩)
  | leaves (ticket : Ticket) (status : Int32) (held : phase = .calling ticket)
      (next : phase' = .returned ticket) (world : w' = w)
      (named : exchange = ⟨.leaveDisconnect, status⟩)
  | completes (ticket : Ticket) (status : Int32) (result : Except Error Unit)
      (held : phase = .holding ticket ∨ phase = .returned ticket) (next : phase' = .idle)
      (named : exchange = ⟨.queue (.complete ticket status), result⟩)
      (own : w.queue.running = some ticket → w'.queue.running = none ∧ result = .ok ())
  | passes (next : phase' = phase) (running : w'.queue.running = w.queue.running)
      (silent : entered exchange = none ∧ left exchange = false ∧ reported exchange = none)

variable {waiting : List Request}

theorem turn_of_queue (ring : w.queue.requests.Holds waiting) (call : QueueCall)
    (allowed : phase.allows (.queue call)) :
    Turn w { w with queue := (call.answer w.queue).2 } phase
      (phase.after ⟨.queue call, (call.answer w.queue).1⟩)
      ⟨.queue call, (call.answer w.queue).1⟩ := by
  cases call with
  | pop =>
    obtain rfl : phase = .idle := allowed
    dsimp only [QueueCall.answer]
    rcases pop_cases ring with ⟨_, refused⟩ | ⟨request, _, _, idle, _, popped⟩
    · rw [refused]
      exact .passes rfl rfl ⟨rfl, rfl, rfl⟩
    · rw [popped]
      exact .takes request.ticket rfl rfl idle rfl ⟨rfl, rfl, rfl⟩
  | beginInline reason =>
    obtain rfl : phase = .idle := allowed
    dsimp only [QueueCall.answer]
    rcases beginInline_cases reason ring with
      ⟨_, _, refused⟩ | ⟨_, refused⟩ | refused | ⟨sequence, idle, _, _, went⟩
    · rw [refused]
      exact .passes rfl rfl ⟨rfl, rfl, rfl⟩
    · rw [refused]
      exact .passes rfl (reject_keeps .busy).1 ⟨rfl, rfl, rfl⟩
    · rw [refused]
      exact .passes rfl rfl ⟨rfl, rfl, rfl⟩
    · rw [went]
      exact .takes ⟨sequence⟩ rfl rfl (pollIdle_ready.mp idle).2.2.2.1 rfl ⟨rfl, rfl, rfl⟩
  | complete ticket status =>
    refine .completes ticket status _ allowed rfl rfl ?_
    intro own
    dsimp only [QueueCall.answer, Queue.complete]
    rw [if_neg (not_not.mpr own)]
    exact ⟨rfl, rfl⟩
  | health | wakeFailed | workerUnavailable | checkpoint | receiptSince _ =>
    exact .passes rfl rfl ⟨rfl, rfl, rfl⟩

theorem push_running (q : Queue) (reason : UInt16) : (q.push reason).2.running = q.running := by
  rcases push_cases (q := q) reason with
    ⟨_, _, refused⟩ | ⟨_, _, refused⟩ | refused | ⟨_, _, _, _, went⟩
  · rw [refused]
  · rw [refused]
    exact (reject_keeps .full).1
  · rw [refused]
    rfl
  · rw [went]
    rfl

theorem turn_of_atom (ring : w.queue.requests.Holds waiting) (allowed : phase.allows o)
    (taken : Atom w o reply w') : Turn w w' phase (phase.after ⟨o, reply⟩) ⟨o, reply⟩ := by
  cases taken with
  | queue call => exact turn_of_queue ring call allowed
  | hostTx call =>
    cases call with
    | drained =>
      dsimp only [HostTxCall.answer]
      rcases seen : w.hostTx.drained with status | _ | _
      · exact .passes rfl rfl ⟨rfl, rfl, rfl⟩
      · exact .passes rfl rfl ⟨rfl, rfl, rfl⟩
      · cases phase with
        | holding ticket => exact .drains ticket rfl rfl rfl seen ⟨rfl, rfl, rfl⟩
        | _ => exact .passes rfl rfl ⟨rfl, rfl, rfl⟩
    | _ => exact .passes rfl rfl ⟨rfl, rfl, rfl⟩
  | closeAndPush reason => exact .passes rfl (push_running w.queue reason) ⟨rfl, rfl, rfl⟩
  | prepareAssociation =>
    refine .passes rfl ?_ ⟨rfl, rfl, rfl⟩
    rcases (Atom.prepareAssociation (w := w)).queue_step with ⟨_, same⟩ | ⟨_, silent, _⟩
    · rw [same]
    · cases silent
  | enterDisconnect request =>
    obtain rfl : phase = .drained request.ticket := allowed
    exact .enters request rfl rfl rfl rfl
  | leaveDisconnect status =>
    obtain ⟨ticket, rfl⟩ : ∃ ticket, phase = .calling ticket := allowed
    exact .leaves ticket status rfl rfl rfl rfl
  | _ => exact .passes rfl rfl ⟨rfl, rfl, rfl⟩

variable {phases : Nat → Custody} {i : Nat}

/-- What holds between the actions, whoever takes them. -/
structure Kept (w : World) (phases : Nat → Custody) : Prop where
  queue : ∃ labels, Run queueSystem .new labels w.queue
  accounted : HostTx.Accounted w.hostTx
  held : ∀ i ticket, (phases i).ticket = some ticket → w.queue.running = some ticket
  alone : ∀ i j first second, (phases i).ticket = some first → (phases j).ticket = some second → i = j
  quiet : ∀ i, (phases i).settled = true → Quiet w.hostTx

theorem kept_boot : Kept .boot fun _ => .idle where
  queue := ⟨[], .start⟩
  accounted := HostTx.accounted_new
  held := nofun
  alone := nofun
  quiet := nofun

theorem Custody.ticket_of_settled (settled : phase.settled = true) :
    ∃ ticket, phase.ticket = some ticket := by
  cases phase with
  | idle | holding _ => cases settled
  | drained ticket | calling ticket | returned ticket => exact ⟨ticket, rfl⟩

theorem Kept.ring (kept : Kept w phases) : ∃ waiting, w.queue.requests.Holds waiting := by
  obtain ⟨labels, run⟩ := kept.queue
  obtain ⟨waiting, ledger⟩ := ledger_of_run run
  exact ⟨waiting, ledger.ring⟩

section

variable (kept : Kept w phases) (taken : Atom w o reply w')
include kept taken

theorem Kept.calm {j : Nat} (settled : (phases j).settled = true) : Quiet w'.hostTx := by
  obtain ⟨ticket, own⟩ := Custody.ticket_of_settled settled
  have running := kept.held j ticket own
  refine (kept.quiet j settled).atom taken ?_
  rw [running]
  exact nofun

theorem Kept.trackers :
    (∃ labels, Run queueSystem .new labels w'.queue) ∧ HostTx.Accounted w'.hostTx := by
  constructor
  · obtain ⟨labels, run⟩ := kept.queue
    rcases taken.queue_step with ⟨_, same⟩ | ⟨label, _, step⟩
    · rw [same]
      exact ⟨labels, run⟩
    · exact ⟨labels ++ [label], run.next step⟩
  · rcases taken.hostTx_step with same | ⟨label, step, _⟩
    · rw [same]
      exact kept.accounted
    · exact kept.accounted.step step

/-- Nobody becomes a custodian; the one there is may pass on or stop being one. -/
theorem Kept.goes_on (own : ∀ ticket, phase.ticket = some ticket → (phases i).ticket = some ticket)
    (running : ∀ j ticket, (phases j).ticket = some ticket → (j = i → phase.ticket = some ticket) →
      w'.queue.running = some ticket) (calm : phase.settled = true → Quiet w'.hostTx) :
    Kept w' (update phases i phase) := by
  have old (j : Nat) (ticket : Ticket)
      (now : (update phases i phase j).ticket = some ticket) :
      (phases j).ticket = some ticket ∧ (j = i → phase.ticket = some ticket) := by
    by_cases same : j = i
    · subst same
      rw [update_self] at now
      exact ⟨own ticket now, fun _ => now⟩
    · rw [update_of_ne same] at now
      exact ⟨now, fun other => absurd other same⟩
  obtain ⟨queue, accounted⟩ := kept.trackers taken
  refine ⟨queue, accounted, ?_, ?_, ?_⟩
  · intro j ticket now
    obtain ⟨before, still⟩ := old j ticket now
    exact running j ticket before still
  · intro j k first second here there
    exact kept.alone j k first second (old j first here).1 (old k second there).1
  · intro j settled
    by_cases same : j = i
    · subst same
      rw [update_self] at settled
      exact calm settled
    · rw [update_of_ne same] at settled
      exact kept.calm taken settled

/-- A free queue has no custodian, so the thread that takes a request is the only one. -/
theorem Kept.takes {ticket : Ticket} (free : w.queue.running = none)
    (runs : w'.queue.running = some ticket) : Kept w' (update phases i (.holding ticket)) := by
  have only (j : Nat) (other : Ticket)
      (now : (update phases i (.holding ticket) j).ticket = some other) :
      j = i ∧ other = ticket := by
    by_cases same : j = i
    · subst same
      rw [update_self] at now
      exact ⟨rfl, (Option.some.inj now).symm⟩
    · rw [update_of_ne same] at now
      have running := kept.held j other now
      rw [free] at running
      cases running
  obtain ⟨queue, accounted⟩ := kept.trackers taken
  refine ⟨queue, accounted, ?_, ?_, ?_⟩
  · intro j other now
    rw [(only j other now).2]
    exact runs
  · intro j k first second here there
    exact (only j first here).1.trans (only k second there).1.symm
  · intro j settled
    by_cases same : j = i
    · subst same
      rw [update_self] at settled
      cases settled
    · rw [update_of_ne same] at settled
      exact kept.calm taken settled

end

theorem quiet_of_drained (accounted : HostTx.Accounted w.hostTx)
    (seen : w.hostTx.drained = .ok true) : Quiet w.hostTx := by
  obtain ⟨_, closed, pending⟩ := HostTx.drained_eq_true seen
  refine ⟨closed, List.length_eq_zero_iff.mp ?_⟩
  rw [← accounted.pending, pending]
  rfl

theorem Kept.act (kept : Kept w phases) (allowed : (phases i).allows o) (taken : Atom w o reply w') :
    Kept w' (update phases i ((phases i).after ⟨o, reply⟩)) := by
  obtain ⟨waiting, ring⟩ := kept.ring
  have still (running : w'.queue.running = w.queue.running) (j : Nat) (ticket : Ticket)
      (own : (phases j).ticket = some ticket) : w'.queue.running = some ticket :=
    running.trans (kept.held j ticket own)
  cases turn_of_atom ring allowed taken with
  | takes ticket _ next free runs =>
    rw [next]
    exact kept.takes taken free runs
  | drains ticket held next world seen =>
    rw [next]
    subst world
    refine kept.goes_on taken ?_ (fun j other own _ => still rfl j other own) ?_
    · intro other own
      rw [held]
      exact own
    · exact fun _ => quiet_of_drained kept.accounted seen
  | enters request held next world | leaves ticket status held next world =>
    rw [next]
    subst world
    refine kept.goes_on taken ?_ (fun j other own _ => still rfl j other own) ?_
    · intro other own
      rw [held]
      exact own
    · exact fun _ => kept.calm taken (j := i) (by rw [held]; rfl)
  | completes ticket status _ held next =>
    rw [next]
    have own : (phases i).ticket = some ticket := by
      rcases held with held | held <;> rw [held] <;> rfl
    refine kept.goes_on taken nofun ?_ nofun
    intro j other now here
    -- The only custodian has just stopped being one.
    cases here (kept.alone j i other ticket now own)
  | passes next running =>
    rw [next]
    exact kept.goes_on taken (fun _ own => own) (fun j other own _ => still running j other own)
      fun settled => kept.calm taken settled

end HisiRf.Teardown
