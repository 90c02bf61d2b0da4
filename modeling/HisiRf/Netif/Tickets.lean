import HisiRf.Interaction.Transition
import HisiRf.Netif.Route

/-! Runs of one callback route: who holds which ticket, and every step that can be taken.

The record of the route counts tickets without naming them. The world keeps
beside it the values whose ownership the language tracks: the sole registration,
the prepared openings and every live ticket. A ticket remembers its number and
the epoch, that is the number of openings so far, in which it was granted. No
method reads these two.

Each step is one critical section, or the one call that a ticket makes between
two of them. Tickets may be retired in any order, which includes every nesting
of callbacks, and a registration may be dropped while its tickets live.
-/

namespace HisiRf

open Interaction Registration CallbackRoute

/-- How far `receive` has come. A settled ticket only has to be counted. -/
inductive ReceivePhase where
  | entered
  | admitted
  | settled (result : Except QueueError Unit)

structure LiveReceive where
  serial : Nat
  ticket : CallbackTicket
  epoch : Nat
  phase : ReceivePhase

def LiveReceive.checked (receive : LiveReceive) (isOpen : Bool) : LiveReceive :=
  { receive with phase := if isOpen then .admitted else .settled (.error .staleGeneration) }

def LiveReceive.settle (receive : LiveReceive) (result : Except QueueError Unit) : LiveReceive :=
  { receive with phase := .settled result }

def LiveReceive.isSettled (receive : LiveReceive) : Bool :=
  match receive.phase with
  | .settled _ => true
  | _ => false

structure LiveTransmit where
  generation : Generation
  epoch : Nat

structure RouteWorld where
  route : RouteState
  registered : Bool
  intents : List OpenIntent
  receives : List LiveReceive
  transmits : List LiveTransmit
  deliveries : List DeliveryTicket
  granted : Nat
  epoch : Nat

def RouteWorld.new : RouteWorld := ⟨.new, false, [], [], [], [], 0, 0⟩

inductive InitialEvent where
  | bootstrap
  | connect (id : OperationId)
  | associate
  | result (success : Bool)

def CallbackRoute.initialEvent (s : RouteState) : InitialEvent → RouteState
  | .bootstrap => initialBootstrapComplete s
  | .connect id => initialConnectStarted s id
  | .associate => initialAssociationStarted s
  | .result success => (initialAssociationResult s success).2

inductive RouteLabel where
  | claim (ingress : L2Ingress) (result : Except RouteError Unit)
  | stamp (epoch : AllocationEpoch)
  | enter (allocation : Option AllocationEpoch) (granted : Option CallbackTicket)
  | check (receive : LiveReceive) (isOpen : Bool)
  | publish (receive : LiveReceive) (result : Except QueueError Unit)
  | finish (receive : LiveReceive) (result : Except QueueError Unit)
  | abandon (receive : LiveReceive)
  | enterTransmit (generation : Generation) (granted : Bool)
  | dropTransmit (transmit : LiveTransmit)
  | closeAdmission (woken : Option Waker)
  | initial (event : InitialEvent)
  | dropRegistration (woken : Option Waker)
  | closeRevision (revision : Option UInt64)
  | subscribeClose (waker : Waker) (revision : Option UInt64)
  | prepareOpen (result : Except RouteError OpenIntent)
  | bindInitial (id : OperationId) (intent : OpenIntent) (result : Except RouteError OpenIntent)
  | commitOpen (intent : OpenIntent) (generation : Generation) (result : Except RouteError Unit)
  | dropIntent (intent : OpenIntent)
  | enterDelivery
  | dropDelivery (ticket : DeliveryTicket) (returned : Option UInt32)

/-- What the one-shot policy of the initial session is told. -/
inductive SessionEvent where
  | initial (event : InitialEvent)
  | closed
  | dropped
  | opened

namespace RouteLabel

def session : RouteLabel → Option SessionEvent
  | .initial event => some (.initial event)
  | .closeAdmission _ => some .closed
  | .dropRegistration _ => some .dropped
  | .commitOpen intent _ (.ok ()) => if intent.initialOperation.isSome then some .opened else none
  | _ => none

def closes : RouteLabel → Bool
  | .closeAdmission _ | .initial (.result _) | .dropRegistration _ => true
  | _ => false

def opens : RouteLabel → Bool
  | .commitOpen _ _ (.ok ()) => true
  | _ => false

def entersDelivery : RouteLabel → Bool
  | .enterDelivery => true
  | _ => false

def enters : RouteLabel → Bool
  | .enter _ _ => true
  | _ => false

/-- Steps that need neither the registration nor a value it gave out. -/
def foreign : RouteLabel → Bool
  | .claim _ (.error _) | .stamp _ | .enter _ _ | .check _ _ | .publish _ _ | .finish _ _
  | .abandon _ | .closeAdmission _ | .initial _ | .enterDelivery | .dropDelivery _ _ => true
  | _ => false

def retiresReceive : RouteLabel → Bool
  | .finish _ _ | .abandon _ => true
  | _ => false

def retiresTransmit : RouteLabel → Bool
  | .dropTransmit _ => true
  | _ => false

end RouteLabel

namespace RouteWorld

def entered (w : RouteWorld) (allocation : Option AllocationEpoch) : RouteWorld :=
  let outcome := enterWithAllocation w.route allocation
  { w with
    route := outcome.2
    receives := w.receives ++
      (outcome.1.map fun ticket => ⟨w.granted, ticket, w.epoch, .entered⟩).toList
    granted := w.granted + outcome.1.isSome.toNat }

def enteredTransmit (w : RouteWorld) (generation : Generation) : RouteWorld :=
  let outcome := enterTransmit w.route generation
  { w with
    route := outcome.2
    transmits := if outcome.1 then w.transmits ++ [⟨generation, w.epoch⟩] else w.transmits }

def claimed (w : RouteWorld) (ingress : L2Ingress) : RouteWorld :=
  let outcome := claim w.route ingress
  { w with route := outcome.2, registered := w.registered || outcome.1.toBool }

def committed (w : RouteWorld) (intent : OpenIntent) (generation : Generation)
    (intents : List OpenIntent) : RouteWorld :=
  let outcome := commitOpen w.route intent generation
  { w with
    route := outcome.2
    intents := intents
    epoch := w.epoch + outcome.1.toBool.toNat }

def delivering (w : RouteWorld) : RouteWorld :=
  let outcome := observeHostDelivery w.route
  { w with route := outcome.2, deliveries := w.deliveries ++ [outcome.1] }

end RouteWorld

inductive RouteStep (w : RouteWorld) : RouteLabel → RouteWorld → Prop where
  | claim (ingress : L2Ingress) :
      RouteStep w (.claim ingress (claim w.route ingress).1) (w.claimed ingress)
  | stamp : RouteStep w (.stamp (allocationEpoch w.route)) w
  | enter (allocation : Option AllocationEpoch) :
      RouteStep w (.enter allocation (enterWithAllocation w.route allocation).1)
        (w.entered allocation)
  | check {before after : List LiveReceive} {receive : LiveReceive}
      (live : w.receives = before ++ receive :: after) (begins : receive.phase = .entered) :
      RouteStep w (.check receive (receive.ticket.isOpen w.route))
        { w with receives := before ++ receive.checked (receive.ticket.isOpen w.route) :: after }
  | publish {before after : List LiveReceive} {receive : LiveReceive}
      (result : Except QueueError Unit) (live : w.receives = before ++ receive :: after)
      (admitted : receive.phase = .admitted) :
      RouteStep w (.publish receive result)
        { w with receives := before ++ receive.settle result :: after }
  | finish {before after : List LiveReceive} {receive : LiveReceive}
      {result : Except QueueError Unit} (live : w.receives = before ++ receive :: after)
      (settled : receive.phase = .settled result) :
      RouteStep w (.finish receive result)
        { w with
          route := CallbackTicket.finish w.route result.toBool false
          receives := before ++ after }
  | abandon {before after : List LiveReceive} {receive : LiveReceive}
      (live : w.receives = before ++ receive :: after) (unsettled : receive.isSettled = false) :
      RouteStep w (.abandon receive)
        { w with route := CallbackTicket.finish w.route false true, receives := before ++ after }
  | enterTransmit (generation : Generation) (owned : w.registered = true) :
      RouteStep w
        (.enterTransmit generation (enterTransmit w.route generation).1)
        (w.enteredTransmit generation)
  | dropTransmit {before after : List LiveTransmit} {transmit : LiveTransmit}
      (live : w.transmits = before ++ transmit :: after) :
      RouteStep w (.dropTransmit transmit)
        { w with route := TransmitTicket.drop w.route, transmits := before ++ after }
  | closeAdmission :
      RouteStep w (.closeAdmission (closeAdmission w.route).1)
        { w with route := (closeAdmission w.route).2 }
  | initial (event : InitialEvent) :
      RouteStep w (.initial event) { w with route := initialEvent w.route event }
  | dropRegistration (owned : w.registered = true) :
      RouteStep w (.dropRegistration (drop w.route).1)
        { w with route := (drop w.route).2, registered := false }
  | closeRevision (owned : w.registered = true) :
      RouteStep w (.closeRevision w.route.closeRevision) w
  | subscribeClose (waker : Waker) (owned : w.registered = true) :
      RouteStep w (.subscribeClose waker (subscribeClose w.route waker).1)
        { w with route := (subscribeClose w.route waker).2 }
  | prepareOpen (owned : w.registered = true) :
      RouteStep w (.prepareOpen (prepareOpen w.route))
        { w with intents := w.intents ++ (prepareOpen w.route).toOption.toList }
  | bindInitial {before after : List OpenIntent} {intent : OpenIntent} (id : OperationId)
      (owned : w.registered = true) (held : w.intents = before ++ intent :: after) :
      RouteStep w (.bindInitial id intent (bindInitial w.route id intent))
        { w with
          intents := before ++ (bindInitial w.route id intent).toOption.toList ++ after }
  | commitOpen {before after : List OpenIntent} {intent : OpenIntent} (generation : Generation)
      (owned : w.registered = true) (held : w.intents = before ++ intent :: after) :
      RouteStep w
        (.commitOpen intent generation (commitOpen w.route intent generation).1)
        (w.committed intent generation (before ++ after))
  | dropIntent {before after : List OpenIntent} {intent : OpenIntent}
      (held : w.intents = before ++ intent :: after) :
      RouteStep w (.dropIntent intent) { w with intents := before ++ after }
  | enterDelivery : RouteStep w .enterDelivery w.delivering
  | dropDelivery {before after : List DeliveryTicket} {ticket : DeliveryTicket}
      (returned : Option UInt32) (live : w.deliveries = before ++ ticket :: after) :
      RouteStep w (.dropDelivery ticket returned)
        { w with route := ticket.drop w.route returned, deliveries := before ++ after }

def routeSystem : System RouteWorld RouteLabel := ⟨RouteStep⟩

/-! The shortest way to an open route: it is claimed, an opening is prepared and committed. -/

def firstIngress : L2Ingress := ⟨0⟩
def firstGeneration : Generation := ⟨0⟩
def firstIntent : OpenIntent := ⟨0, 0, none⟩

def boundWorld : RouteWorld :=
  ⟨{ RouteState.new with ingress := some firstIngress }, true, [], [], [], [], 0, 0⟩

def openedWorld : RouteWorld :=
  { boundWorld with
    route := { boundWorld.route with generation := some firstGeneration }
    epoch := 1 }

def openedLabels : List RouteLabel :=
  [.claim firstIngress (.ok ()), .prepareOpen (.ok firstIntent),
    .commitOpen firstIntent firstGeneration (.ok ())]

theorem openedWorld_reached : Run routeSystem .new openedLabels openedWorld := by
  have claim : routeSystem.step .new (.claim firstIngress (.ok ())) _ := RouteStep.claim _
  have prepare := (Run.start.next claim).next (RouteStep.prepareOpen rfl)
  exact prepare.next (@RouteStep.commitOpen _ [] [] firstIntent firstGeneration rfl rfl)

end HisiRf
