import HisiRf.Backend.Contract
import HisiRf.Machine.Word

/-! The callback route between the vendor's context-free callbacks and one L2 instance.

The route is one record behind one critical section. Every method of the route,
of its registration and of its tickets is given here as the function that its
critical section applies to the record. The counters are 64-bit words and wrap
as the source's do; the two in-flight counters are numbers, because every ticket
they count occupies memory of its own. The record is that of a build with the
initial-session experiment. A build without it never moves `initial`.
-/

namespace HisiRf

open Machine (checkedAdd saturatingSub)

/-- The epoch of an L2 session. Only equality is observed. -/
structure Generation where
  raw : Nat
  deriving DecidableEq

/-- The capability to publish received frames into caller-owned storage. -/
structure L2Ingress where
  raw : Nat

structure Waker where
  raw : Nat

inductive QueueError where
  | full | frameTooLarge | staleGeneration | exhausted

inductive RouteError where
  | alreadyRegistered | callbacksInFlight | alreadyOpen | openInterrupted | lifecycleExhausted
  | initialSessionRejected

structure RouteDiagnostics where
  entered : UInt64
  queued : UInt64
  dropped : UInt64
  closedDrops : UInt64
  allocationDrops : UInt64
  abandoned : UInt64
  inFlight : Nat
  transmitsInFlight : Nat

structure AllocationEpoch where
  revision : Option UInt64

structure HostDeliveryDiagnostics where
  entered : UInt64
  returned : UInt64
  abandoned : UInt64
  inFlight : UInt64
  peakInFlight : UInt64
  enteredWhileClosed : UInt64
  crossedClose : UInt64
  nonzeroReturns : UInt64
  exhausted : Bool

/-- The one-shot policy of the initial-session experiment. -/
inductive InitialSession where
  | uninitialized
  | bootstrapped
  | armed (id : OperationId)
  | associating (id : OperationId)
  | associated (id : OperationId)
  | opened
  | rejected
  deriving DecidableEq

namespace InitialSession

def bootstrap : InitialSession → InitialSession
  | .uninitialized => .bootstrapped
  | _ => .rejected

def connect (id : OperationId) : InitialSession → InitialSession
  | .bootstrapped => .armed id
  | _ => .rejected

def associate : InitialSession → InitialSession
  | .armed id => .associating id
  | _ => .rejected

def result (success : Bool) : InitialSession → InitialSession
  | .associating id => if success then .associated id else .rejected
  | _ => .rejected

def check (initial : InitialSession) (id : OperationId) : Except RouteError Unit :=
  if initial = .associated id then .ok () else .error .initialSessionRejected

end InitialSession

structure RouteState where
  ingress : Option L2Ingress
  generation : Option Generation
  closeRevision : Option UInt64
  closeWaker : Option Waker
  diagnostics : RouteDiagnostics
  hostDeliveries : HostDeliveryDiagnostics
  initial : InitialSession

structure OpenIntent where
  closeRevision : UInt64
  hostDeliveryRevision : UInt64
  initialOperation : Option OperationId

/-- An RX-entry snapshot. Whether it is finished is told by its being live. -/
structure CallbackTicket where
  ingress : L2Ingress
  generation : Generation

structure DeliveryTicket where
  revision : Option UInt64

/-- One more than the largest value of an address-sized counter of the target. -/
def usizeLimit : Nat := 2 ^ 32

namespace RouteState

def new : RouteState where
  ingress := none
  generation := none
  closeRevision := some 0
  closeWaker := none
  diagnostics := ⟨0, 0, 0, 0, 0, 0, 0, 0⟩
  hostDeliveries := ⟨0, 0, 0, 0, 0, 0, 0, 0, false⟩
  initial := .uninitialized

def closeAdmission (s : RouteState) : RouteState :=
  { s with
    generation := none
    closeRevision := s.closeRevision.bind (checkedAdd · 1) }

/-- Some ticket or some observed host delivery has not been retired. -/
def busy (s : RouteState) : Bool :=
  s.diagnostics.inFlight != 0 || s.diagnostics.transmitsInFlight != 0
    || s.hostDeliveries.inFlight != 0

end RouteState

namespace RouteDiagnostics

def countEntered (d : RouteDiagnostics) : RouteDiagnostics := { d with entered := d.entered + 1 }

def dropAllocation (d : RouteDiagnostics) : RouteDiagnostics :=
  { d with dropped := d.dropped + 1, allocationDrops := d.allocationDrops + 1 }

def dropClosed (d : RouteDiagnostics) : RouteDiagnostics :=
  { d with dropped := d.dropped + 1, closedDrops := d.closedDrops + 1 }

def countAdmitted (d : RouteDiagnostics) : RouteDiagnostics := { d with inFlight := d.inFlight + 1 }

def finish (d : RouteDiagnostics) (queued abandoned : Bool) : RouteDiagnostics :=
  if queued then { d with inFlight := d.inFlight - 1, queued := d.queued + 1 }
  else
    { d with
      inFlight := d.inFlight - 1
      dropped := d.dropped + 1
      abandoned := d.abandoned + if abandoned then 1 else 0 }

end RouteDiagnostics

/-- A counter that cannot be incremented keeps its value and spoils the record. -/
def increment (counter : UInt64) (exhausted : Bool) : UInt64 × Bool :=
  match checkedAdd counter 1 with
  | some next => (next, exhausted)
  | none => (counter, true)

def incrementWhen (condition : Bool) (counter : UInt64) (exhausted : Bool) : UInt64 × Bool :=
  if condition then increment counter exhausted else (counter, exhausted)

namespace HostDeliveryDiagnostics

def enter (d : HostDeliveryDiagnostics) (closed : Bool) : HostDeliveryDiagnostics :=
  let entered := increment d.entered d.exhausted
  let inFlight := increment d.inFlight entered.2
  let whileClosed := incrementWhen closed d.enteredWhileClosed inFlight.2
  { d with
    entered := entered.1
    inFlight := inFlight.1
    peakInFlight := max d.peakInFlight inFlight.1
    enteredWhileClosed := whileClosed.1
    exhausted := whileClosed.2 }

/-- The forwarded call returned a status, or unwound and is counted as abandoned. -/
def retire (d : HostDeliveryDiagnostics) (returned : Option UInt32) (crossed : Bool) :
    HostDeliveryDiagnostics :=
  let done := incrementWhen returned.isSome d.returned d.exhausted
  let nonzero := incrementWhen (returned.any (· != 0)) d.nonzeroReturns done.2
  let lost := incrementWhen returned.isNone d.abandoned nonzero.2
  let crossing := incrementWhen crossed d.crossedClose lost.2
  { d with
    inFlight := saturatingSub d.inFlight 1
    returned := done.1
    nonzeroReturns := nonzero.1
    abandoned := lost.1
    crossedClose := crossing.1
    exhausted := crossing.2 }

end HostDeliveryDiagnostics

namespace CallbackRoute

def claim (s : RouteState) (ingress : L2Ingress) : Except RouteError Unit × RouteState :=
  if s.ingress.isSome then (.error .alreadyRegistered, s)
  else if s.diagnostics.inFlight ≠ 0 ∨ s.diagnostics.transmitsInFlight ≠ 0 then
    (.error .callbacksInFlight, s)
  else if s.closeRevision.isNone then (.error .lifecycleExhausted, s)
  else (.ok (), { s with ingress := some ingress, generation := none })

def allocationEpoch (s : RouteState) : AllocationEpoch :=
  ⟨if s.ingress.isSome && s.generation.isSome then s.closeRevision else none⟩

/-- A stamp taken while the route was closed, or before the last close. -/
def foreignStamp (s : RouteState) (epoch : AllocationEpoch) : Bool :=
  epoch.revision.isNone || epoch.revision != s.closeRevision

def enterWithAllocation (s : RouteState) (allocation : Option AllocationEpoch) :
    Option CallbackTicket × RouteState :=
  let d := s.diagnostics.countEntered
  if allocation.any (foreignStamp s) then (none, { s with diagnostics := d.dropAllocation })
  else
    match s.ingress, s.generation with
    | some ingress, some generation =>
      (some ⟨ingress, generation⟩, { s with diagnostics := d.countAdmitted })
    | _, _ => (none, { s with diagnostics := d.dropClosed })

def enter (s : RouteState) : Option CallbackTicket × RouteState := enterWithAllocation s none

def enterAllocated (s : RouteState) (epoch : AllocationEpoch) : Option CallbackTicket × RouteState :=
  enterWithAllocation s (some epoch)

/-- The waker that is returned is woken outside the critical section. -/
def closeAdmission (s : RouteState) : Option Waker × RouteState :=
  (s.closeWaker, { s.closeAdmission with closeWaker := none, initial := .rejected })

def initialBootstrapComplete (s : RouteState) : RouteState :=
  { s with initial := s.initial.bootstrap }

def initialConnectStarted (s : RouteState) (id : OperationId) : RouteState :=
  { s with initial := s.initial.connect id }

def initialAssociationStarted (s : RouteState) : RouteState :=
  { s with initial := s.initial.associate }

-- Unlike a native close, the result of an association does not reject the session.
def initialAssociationResult (s : RouteState) (success : Bool) : Option Waker × RouteState :=
  (s.closeWaker, { s.closeAdmission with closeWaker := none, initial := s.initial.result success })

/-- The first critical section of `observe_host_delivery`; the call is forwarded after it. -/
def observeHostDelivery (s : RouteState) : DeliveryTicket × RouteState :=
  (⟨s.closeRevision⟩, { s with hostDeliveries := s.hostDeliveries.enter s.generation.isNone })

end CallbackRoute

namespace Registration

def subscribeClose (s : RouteState) (waker : Waker) : Option UInt64 × RouteState :=
  (s.closeRevision, { s with closeWaker := some waker })

def enterTransmit (s : RouteState) (generation : Generation) : Bool × RouteState :=
  if s.generation ≠ some generation then (false, s)
  else if s.diagnostics.transmitsInFlight + 1 < usizeLimit then
    (true, { s with
      diagnostics :=
        { s.diagnostics with transmitsInFlight := s.diagnostics.transmitsInFlight + 1 } })
  else (false, s)

def prepareOpen (s : RouteState) : Except RouteError OpenIntent :=
  if s.generation.isSome then .error .alreadyOpen
  else if s.hostDeliveries.exhausted then .error .lifecycleExhausted
  else if s.busy then .error .callbacksInFlight
  else
    match s.closeRevision with
    | none => .error .lifecycleExhausted
    | some revision => .ok ⟨revision, s.hostDeliveries.entered, none⟩

/-- The second critical section of `prepare_initial_open`. -/
def bindInitial (s : RouteState) (id : OperationId) (intent : OpenIntent) :
    Except RouteError OpenIntent :=
  match s.initial.check id with
  | .error error => .error error
  | .ok () => .ok { intent with initialOperation := some id }

/-- What is left of a commit once nothing interrupted the opening. -/
def commitInitial (s : RouteState) (initialOperation : Option OperationId)
    (generation : Generation) : Except RouteError Unit × RouteState :=
  match initialOperation with
  | none => (.ok (), { s with generation := some generation })
  | some id =>
    match s.initial.check id with
    | .error error => (.error error, s)
    | .ok () => (.ok (), { s with generation := some generation, initial := .opened })

def commitOpen (s : RouteState) (intent : OpenIntent) (generation : Generation) :
    Except RouteError Unit × RouteState :=
  match s.closeRevision with
  | none => (.error .lifecycleExhausted, s)
  | some revision =>
    if s.hostDeliveries.exhausted then (.error .lifecycleExhausted, s)
    else if revision ≠ intent.closeRevision
        ∨ s.hostDeliveries.entered ≠ intent.hostDeliveryRevision then
      (.error .openInterrupted, s)
    else if s.generation.isSome then (.error .alreadyOpen, s)
    else if s.busy then (.error .callbacksInFlight, s)
    else commitInitial s intent.initialOperation generation

def drop (s : RouteState) : Option Waker × RouteState :=
  (s.closeWaker,
    { s.closeAdmission with ingress := none, closeWaker := none, initial := .rejected })

end Registration

namespace TransmitTicket

def drop (s : RouteState) : RouteState :=
  { s with
    diagnostics :=
      { s.diagnostics with transmitsInFlight := s.diagnostics.transmitsInFlight - 1 } }

end TransmitTicket

namespace CallbackTicket

/-- The critical section with which `receive` begins. -/
def isOpen (ticket : CallbackTicket) (s : RouteState) : Bool :=
  s.generation == some ticket.generation

def finish (s : RouteState) (queued abandoned : Bool) : RouteState :=
  { s with diagnostics := s.diagnostics.finish queued abandoned }

end CallbackTicket

namespace DeliveryTicket

def drop (ticket : DeliveryTicket) (s : RouteState) (returned : Option UInt32) : RouteState :=
  { s with
    hostDeliveries := s.hostDeliveries.retire returned (s.closeRevision != ticket.revision) }

end DeliveryTicket

section Outcomes

/-! What the fallible critical sections can do. A refusal never changes the record. -/

variable (s : RouteState)

theorem CallbackRoute.claim_cases (ingress : L2Ingress) :
    (∃ error, claim s ingress = (.error error, s)) ∨
      (s.ingress = none ∧ s.diagnostics.inFlight = 0 ∧ s.diagnostics.transmitsInFlight = 0 ∧
        s.closeRevision.isSome = true ∧
        claim s ingress = (.ok (), { s with ingress := some ingress, generation := none })) := by
  unfold claim
  split
  · exact .inl ⟨_, rfl⟩
  next free =>
    split
    · exact .inl ⟨_, rfl⟩
    next drained =>
      split
      · exact .inl ⟨_, rfl⟩
      next present =>
        rw [not_or, not_not, not_not] at drained
        refine .inr ⟨Option.not_isSome_iff_eq_none.mp free, drained.1, drained.2, ?_, rfl⟩
        rwa [Option.isSome_iff_ne_none, ne_eq, ← Option.isNone_iff_eq_none]

theorem CallbackRoute.enterWithAllocation_cases (allocation : Option AllocationEpoch) :
    (allocation.any (foreignStamp s) = true ∧ enterWithAllocation s allocation =
        (none, { s with diagnostics := s.diagnostics.countEntered.dropAllocation })) ∨
      (∃ ingress generation, s.ingress = some ingress ∧ s.generation = some generation ∧
        allocation.any (foreignStamp s) = false ∧ enterWithAllocation s allocation =
          (some ⟨ingress, generation⟩, { s with diagnostics :=
            s.diagnostics.countEntered.countAdmitted })) ∨
      enterWithAllocation s allocation =
        (none, { s with diagnostics := s.diagnostics.countEntered.dropClosed }) := by
  unfold enterWithAllocation
  cases foreign : allocation.any (foreignStamp s) with
  | true => exact .inl ⟨rfl, rfl⟩
  | false =>
    right
    cases registered : s.ingress with
    | none => exact .inr rfl
    | some ingress =>
      cases opened : s.generation with
      | none => exact .inr rfl
      | some generation => exact .inl ⟨ingress, generation, rfl, rfl, rfl, rfl⟩

theorem Registration.enterTransmit_cases (generation : Generation) :
    enterTransmit s generation = (false, s) ∨
      (s.generation = some generation ∧ enterTransmit s generation = (true, { s with diagnostics :=
          { s.diagnostics with transmitsInFlight := s.diagnostics.transmitsInFlight + 1 } })) := by
  unfold enterTransmit
  by_cases opened : s.generation = some generation
  · rw [if_neg (not_not.mpr opened)]
    split
    · exact .inr ⟨opened, rfl⟩
    · exact .inl rfl
  · exact .inl (if_pos opened)

/-- The record lets an opening with this intent go through. -/
structure Registration.Permits (intent : OpenIntent) : Prop where
  revision : s.closeRevision = some intent.closeRevision
  unspoiled : s.hostDeliveries.exhausted = false
  undisturbed : s.hostDeliveries.entered = intent.hostDeliveryRevision
  closed : s.generation = none
  drained : s.busy = false
  session : ∀ id, intent.initialOperation = some id → s.initial = .associated id

/-- The record after an opening went through. -/
def Registration.opened (intent : OpenIntent) (generation : Generation) : RouteState :=
  { s with
    generation := some generation
    initial := if intent.initialOperation.isSome then .opened else s.initial }

variable (intent : OpenIntent)

theorem Registration.commitInitial_cases (generation : Generation) :
    (∃ error, commitInitial s intent.initialOperation generation = (.error error, s)) ∨
      ((∀ id, intent.initialOperation = some id → s.initial = .associated id) ∧
        commitInitial s intent.initialOperation generation = (.ok (), opened s intent generation)) := by
  unfold opened
  cases operation : intent.initialOperation with
  | none => exact .inr ⟨nofun, rfl⟩
  | some id =>
    by_cases associated : s.initial = .associated id
    · have ready : s.initial.check id = .ok () := if_pos associated
      refine .inr ⟨fun other same => Option.some.inj same ▸ associated, ?_⟩
      simp only [commitInitial, ready, Option.isSome_some, if_true]
    · have refused : s.initial.check id = .error .initialSessionRejected := if_neg associated
      refine .inl ⟨.initialSessionRejected, ?_⟩
      simp only [commitInitial, refused]

theorem Registration.commitOpen_cases (generation : Generation) :
    (∃ error, commitOpen s intent generation = (.error error, s)) ∨
      (Permits s intent ∧ commitOpen s intent generation = (.ok (), opened s intent generation)) := by
  unfold commitOpen
  split
  · exact .inl ⟨_, rfl⟩
  next revision present =>
    split
    · exact .inl ⟨_, rfl⟩
    next unspoiled =>
      split
      · exact .inl ⟨_, rfl⟩
      next uninterrupted =>
        split
        · exact .inl ⟨_, rfl⟩
        next closed =>
          split
          · exact .inl ⟨_, rfl⟩
          next drained =>
            rw [not_or, not_not, not_not] at uninterrupted
            rcases commitInitial_cases s intent generation with refused | ⟨session, went⟩
            · exact .inl refused
            · refine .inr ⟨?_, went⟩
              exact ⟨present.trans (congrArg some uninterrupted.1), Bool.eq_false_iff.mpr unspoiled,
                uninterrupted.2, Option.not_isSome_iff_eq_none.mp closed,
                Bool.eq_false_iff.mpr drained, session⟩

/-! Which fields they can change at all. -/

theorem CallbackRoute.claim_frame (ingress : L2Ingress) :
    ∃ ingress' generation', (claim s ingress).2 =
      { s with ingress := ingress', generation := generation' } := by
  rcases claim_cases s ingress with ⟨_, refused⟩ | ⟨_, _, _, _, granted⟩
  · exact ⟨s.ingress, s.generation, congrArg Prod.snd refused⟩
  · exact ⟨_, _, congrArg Prod.snd granted⟩

theorem CallbackRoute.enterWithAllocation_frame (allocation : Option AllocationEpoch) :
    ∃ diagnostics', (enterWithAllocation s allocation).2 =
      { s with diagnostics := diagnostics' } := by
  rcases enterWithAllocation_cases s allocation with
    ⟨_, foreign⟩ | ⟨_, _, _, _, _, granted⟩ | closed
  · exact ⟨_, congrArg Prod.snd foreign⟩
  · exact ⟨_, congrArg Prod.snd granted⟩
  · exact ⟨_, congrArg Prod.snd closed⟩

theorem Registration.enterTransmit_frame (generation : Generation) :
    ∃ diagnostics', (enterTransmit s generation).2 = { s with diagnostics := diagnostics' } := by
  rcases enterTransmit_cases s generation with refused | ⟨_, granted⟩
  · exact ⟨s.diagnostics, congrArg Prod.snd refused⟩
  · exact ⟨_, congrArg Prod.snd granted⟩

theorem Registration.commitOpen_frame (generation : Generation) :
    ∃ generation' initial', (commitOpen s intent generation).2 =
      { s with generation := generation', initial := initial' } := by
  rcases commitOpen_cases s intent generation with ⟨_, refused⟩ | ⟨_, went⟩
  · exact ⟨s.generation, s.initial, congrArg Prod.snd refused⟩
  · exact ⟨_, _, congrArg Prod.snd went⟩

theorem Registration.prepareOpen_ok {intent : OpenIntent} (prepared : prepareOpen s = .ok intent) :
    s.closeRevision = some intent.closeRevision ∧
      s.hostDeliveries.entered = intent.hostDeliveryRevision ∧
      s.hostDeliveries.exhausted = false ∧ s.generation = none ∧ s.busy = false := by
  unfold prepareOpen at prepared
  split at prepared
  · cases prepared
  next closed =>
    split at prepared
    · cases prepared
    next unspoiled =>
      split at prepared
      · cases prepared
      next drained =>
        cases present : s.closeRevision with
        | none =>
          rw [present] at prepared
          cases prepared
        | some =>
          rw [present] at prepared
          obtain rfl := Except.ok.inj prepared
          exact ⟨rfl, rfl, Bool.eq_false_iff.mpr unspoiled,
            Option.not_isSome_iff_eq_none.mp closed, Bool.eq_false_iff.mpr drained⟩

theorem RouteState.busy_eq_false_iff :
    s.busy = false ↔ s.diagnostics.inFlight = 0 ∧ s.diagnostics.transmitsInFlight = 0 ∧
      s.hostDeliveries.inFlight = 0 := by
  simp [busy, and_assoc]

end Outcomes

end HisiRf
