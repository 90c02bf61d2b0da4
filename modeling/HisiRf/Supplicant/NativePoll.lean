import HisiRf.Backend.Port
import HisiRf.Supplicant.SlotFifo

/-! One poll of the native supplicant.

The budget is split before anything is done: one unit is for the C side, and the rest is for the
four queues and the EAPOL frames, in this order. Each part is given the rest of the poll, to which
it hands on what is left of the budget, and a failure ends the poll at once.
-/

namespace HisiRf.NativePoll

open Interaction Function List Program

inductive Queue where | scan | link | externalAuth | mgmt deriving DecidableEq

/-- What the poll looks at in an entry before it feeds it. -/
inductive Entry where | plain
  /- an association that succeeded -/
  | associated
  /- a disconnect whose status asks for the stale state to be cleared -/
  | stale
  | unknown
  deriving DecidableEq

inductive Failure where
  | worker
  | overflow (queue : Queue) (delta : UInt32)
  | invalidResult
  | feedFailed (queue : Queue) (status : Int32)
  | disconnectFailed (status : Int32)
  | feedEapolFailed (status : Int32)
  | connectFailed (status : Int32)
  | pollFailed (status : Int32)

inductive Op where
  | disconnectIoctlsReturned
  | dropped (queue : Queue)
  | takeOldest (queue : Queue)
  | disconnectInline
  | feed (queue : Queue) (entry : Entry)
  /- a load of the pending flag, or a swap with `false` -/
  | eapolPending (clears : Bool)
  | setEapolPending
  | receiveEapol
  | feedEapol
  | monotonicMs
  | serviceExternalAuthStatusRetry (nowMs : UInt64)
  | wpaPoll (nowMs : UInt64) (budget : Nat)

/-- `receiveEapol` also tells whether the frame is well formed. -/
@[reducible] def Op.Reply : Op → Type
  | .disconnectIoctlsReturned => Except Unit Bool
  | .dropped _ => UInt32
  | .takeOldest _ => Option Entry
  | .disconnectInline | .feed _ _ | .feedEapol => Int32
  | .eapolPending _ => Bool
  | .setEapolPending => Unit
  | .receiveEapol => Int32 × Bool
  | .monotonicMs => UInt64
  | .serviceExternalAuthStatusRetry _ => Except Int32 (Option UInt64)
  | .wpaPoll _ _ => Int32 × PollResult

abbrev ops : Signature := ⟨Op, Op.Reply⟩

structure Owner where
  droppedSeen : Queue → UInt32
  eapolFallbackPollsRemaining : UInt16

abbrev Task := Program ops (Except Failure PollResult × Owner)

/-- Go on with the reply unless it is a failure. -/
def attempt (o : Op) (failure : o.Reply → Option (Failure × Owner)) (next : o.Reply → Task) : Task :=
  call (I := ops) o fun reply =>
    match failure reply with
    | some (failure, owner) => .done (.error failure, owner)
    | none => next reply

def ask (o : Op) (next : o.Reply → Task) : Task := attempt o (fun _ => none) next

def nonzero (failure : Int32 → Failure) (owner : Owner) (status : Int32) : Option (Failure × Owner) :=
  if status ≠ 0 then some (failure status, owner) else none

def checkDropped (queue : Queue) (owner : Owner) (next : Task) : Task :=
  attempt (.dropped queue) (fun dropped =>
    if dropped ≠ owner.droppedSeen queue then
      some (.overflow queue (dropped - owner.droppedSeen queue),
        { owner with droppedSeen := update owner.droppedSeen queue dropped })
    else none) fun _ => next

def eapolFallbackPollWindow : UInt16 := 2000

def feed (queue : Queue) (entry : Entry) (owner : Owner) (next : Owner → Task) : Task :=
  attempt (.feed queue entry) (nonzero (.feedFailed queue) owner) fun _ =>
    next (if entry = .associated then
      { owner with eapolFallbackPollsRemaining := eapolFallbackPollWindow } else owner)

def feedEntry (queue : Queue) (owner : Owner) (next : Owner → Task) : Entry → Task
  | .unknown => .done (.error .invalidResult, owner)
  | .stale => attempt .disconnectInline (nonzero .disconnectFailed owner) fun _ =>
    feed queue .stale owner next
  | entry => feed queue entry owner next

def drain (queue : Queue) : Nat → Owner → (Owner → Nat → Task) → Task
  | 0, owner, next => next owner 0
  | rxBudget + 1, owner, next => ask (.takeOldest queue) fun
    | none => next owner (rxBudget + 1)
    | some entry => feedEntry queue owner (fun owner => drain queue rxBudget owner next) entry

/-- The vendor tells by this status that there is no frame. -/
def eapolQueueEmpty : Int32 := 0xffff

def receiveFailure (owner : Owner) (received : Int32 × Bool) : Option (Failure × Owner) :=
  if received.1 = eapolQueueEmpty then none
  else if received.1 ≠ 0 then some (.feedEapolFailed received.1, owner)
  else if received.2 then none else some (.invalidResult, owner)

def drainEapol (owner : Owner) : Nat → (Nat → Task) → Task
  | 0, next => ask .setEapolPending fun _ => next 0
  | budget + 1, next => attempt .receiveEapol (receiveFailure owner) fun received =>
    if received.1 = eapolQueueEmpty then next (budget + 1)
    else attempt .feedEapol (nonzero .feedEapolFailed owner) fun _ => drainEapol owner budget next

def receiveFrames (owner : Owner) (rxBudget : Nat) (next : Owner → Nat → Task) : Task :=
  ask (.eapolPending (rxBudget != 0)) fun notified =>
    let fallback := !notified && owner.eapolFallbackPollsRemaining != 0
    if rxBudget != 0 && (notified || fallback) then
      let owner := if fallback then
        { owner with eapolFallbackPollsRemaining := owner.eapolFallbackPollsRemaining - 1 } else owner
      drainEapol owner rxBudget (next owner)
    else next owner rxBudget

def serviceRetry (owner : Owner) (next : UInt64 → Option UInt64 → Task) : Task :=
  ask .monotonicMs fun nowMs => ask (.serviceExternalAuthStatusRetry nowMs) fun
    | .error status => .done (.error (.connectFailed status), owner)
    | .ok deadline => next nowMs deadline

def accountPollWork (result : PollResult) (rxGrant rxRemaining : Nat) : PollResult :=
  { result with workCompleted :=
      UInt32.ofNat (min (result.workCompleted.toNat + (rxGrant - rxRemaining)) (2 ^ 32 - 1)) }

def pollContext (owner : Owner) (rxGrant rxBudget : Nat) : Task :=
  serviceRetry owner fun nowMs _ => ask (.wpaPoll nowMs (max rxBudget 1)) fun polled =>
    serviceRetry owner fun _ deadline => .done (
      if polled.1 ≠ 0 then .error (.pollFailed polled.1)
      else .ok (accountPollWork { polled.2 with
        nextDeadlineMs := min polled.2.nextDeadlineMs (deadline.getD polled.2.nextDeadlineMs) }
          rxGrant rxBudget), owner)

def pollQueues (owner : Owner) (workBudget : Nat) : Task :=
  checkDropped .mgmt owner <| checkDropped .scan owner <| checkDropped .link owner <|
    checkDropped .externalAuth owner <| drain .scan (workBudget - 1) owner fun owner rxBudget =>
    drain .link rxBudget owner fun owner rxBudget =>
    drain .externalAuth rxBudget owner fun owner rxBudget =>
    drain .mgmt rxBudget owner fun owner rxBudget =>
    receiveFrames owner rxBudget fun owner rxBudget => pollContext owner (workBudget - 1) rxBudget

/-- Nothing is done while a native disconnect is out. -/
def poll (owner : Owner) (workBudget : Nat) : Task :=
  ask .disconnectIoctlsReturned fun
    | .error _ => .done (.error .worker, owner)
    | .ok false => .done (.ok ⟨0, 0, Machine.wordMax⟩, owner)
    | .ok true => pollQueues owner workBudget

abbrev Talk := List (Exchange ops)

/-- What an exchange takes of the budget: an entry, a frame, or what the C side reports. -/
def cost : Exchange ops → Nat
  | ⟨.takeOldest _, some _⟩ | ⟨.feedEapol, _⟩ => 1
  | ⟨.wpaPoll _ _, polled⟩ => polled.2.workCompleted.toNat
  | _ => 0

def work (talk : Talk) : Nat := (talk.map cost).sum

/-- The C side reports no more work than it was granted. -/
def Granted (talk : Talk) : Prop :=
  ∀ nowMs budget polled, (⟨.wpaPoll nowMs budget, polled⟩ : Exchange ops) ∈ talk →
    polled.2.workCompleted.toNat ≤ budget

def Took (talk : Talk) : Prop :=
  ∃ queue entry, (⟨.takeOldest queue, some entry⟩ : Exchange ops) ∈ talk

/-- The queue was asked in vain. -/
def Asked (queue : Queue) (talk : Talk) : Prop := (⟨.takeOldest queue, none⟩ : Exchange ops) ∈ talk

variable {whole past : Talk} {owner : Owner} {queue : Queue} {rxBudget workBudget : Nat}
  {result : PollResult} {o : Op} {next : o.Reply → Task}

open SlotQueue EventQueues

variable (limit : IeLimit) (abiVersion : UInt16)

/-- The four queues; `limit` and `abiVersion` are constants of the supplicant's interface. -/
def Queue.layout : Queue → Layout
  | .scan => scanEventQueue limit
  | .link => linkEventQueue
  | .externalAuth => externalAuthQueue abiVersion
  | .mgmt => mgmtRxQueue

abbrev Queues := (queue : Queue) → World (queue.layout limit abiVersion)

variable {limit abiVersion} {w : Queues limit abiVersion} {talk : Talk}

/-- The queues answer the poll, and callbacks put entries into them in between. This goes on until an
entry is taken. -/
inductive Served : Queues limit abiVersion → Talk → Prop where
  | done (w : Queues limit abiVersion) : Served w []
  | enqueue {w : Queues limit abiVersion} {talk : Talk} (queue : Queue)
      (entry : (queue.layout limit abiVersion).Entry) :
      Served (update w queue (alone (enqueue entry) (w queue)).2) talk → Served w talk
  | missed {w : Queues limit abiVersion} {talk : Talk} (queue : Queue) :
      (alone takeOldest (w queue)).1 = none →
      Served (update w queue (alone takeOldest (w queue)).2) talk →
      Served w (⟨.takeOldest queue, none⟩ :: talk)
  | took {w : Queues limit abiVersion} (queue : Queue) (entry : Entry) (rest : Talk) :
      (alone takeOldest (w queue)).1.isSome = true → Served w (⟨.takeOldest queue, some entry⟩ :: rest)
  | other {w : Queues limit abiVersion} {exchange : Exchange ops} {talk : Talk} :
      (∀ queue, exchange.op ≠ .takeOldest queue) → Served w talk → Served w (exchange :: talk)

/-- No entry is half written, and the queue has one that is ready. -/
structure Ready (w : Queues limit abiVersion) (queue : Queue) : Prop where
  unwritten : ∀ queue slot, ((w queue).slots slot).state ≠ .writing
  ready : ∃ slot, ((w queue).slots slot).state = .ready

theorem Ready.after_enqueue (holds : Ready w queue) (other : Queue)
    (entry : (other.layout limit abiVersion).Entry) :
    Ready (update w other (alone (enqueue entry) (w other)).2) queue := by
  have kept (queue : Queue) (slot : Fin (queue.layout limit abiVersion).depth) :
      let after := update w other (alone (enqueue entry) (w other)).2 queue
      (after.slots slot).state = ((w queue).slots slot).state ∨
        ((w queue).slots slot).state = .free ∧ (after.slots slot).state = .ready := by
    by_cases same : queue = other
    · subst same
      rw [update_self]
      exact alone_enqueue_state entry _ slot
    · rw [update_of_ne same]
      exact .inl rfl
  obtain ⟨unwritten, slot, ready⟩ := holds
  refine ⟨fun queue slot => ?_, slot, ?_⟩
  · have state := kept queue slot
    have before := unwritten queue slot
    grind
  · have state := kept queue slot
    grind

/-- As long as nothing is taken, a queue with an entry is not asked in vain. -/
theorem Served.found (served : Served w talk) (holds : Ready w queue) (none : ¬Took talk) :
    ¬Asked queue talk := by
  induction served with
  | done => exact not_mem_nil
  | enqueue other entry _ ih => exact ih (holds.after_enqueue other entry) none
  | took other entry => exact absurd ⟨other, entry, .head _⟩ none
  | @missed w talk other missed _ ih =>
    rcases alone_take (holds.unwritten other) with ⟨unready, same⟩ | ⟨slot, _, takes⟩
    · rw [same, update_eq_self] at ih
      rintro (_ | ⟨_, later⟩)
      · obtain ⟨slot, ready⟩ := holds.ready
        exact unready slot ready
      · exact ih holds (fun ⟨queue, entry, taken⟩ => none ⟨queue, entry, .tail _ taken⟩) later
    · rw [takes] at missed
      cases missed
  | other quiet _ ih =>
    rintro (_ | ⟨_, later⟩)
    · exact quiet queue rfl
    · exact ih holds (fun ⟨queue, entry, taken⟩ => none ⟨queue, entry, .tail _ taken⟩) later

/-- The first slot of the scan queue is ready. -/
def scanned : Queues ⟨1500, by decide⟩ 1
  | .scan => (World.new _).setState ⟨0, by decide⟩ .ready
  | .link => World.new _
  | .externalAuth => World.new _
  | .mgmt => World.new _

end HisiRf.NativePoll
