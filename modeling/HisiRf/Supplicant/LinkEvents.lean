import HisiRf.Interaction.Shared
import HisiRf.Netif.Tickets

/-! Link events of the vendor, from its callback to the queue of the runner.

The vendor delivers association results and disconnects from its own threads.
What is delivered is copied into one of four slots, if there is a free one, and
the route of the network is told of every loss, whether the event can be queued
or not. Everyone else may use the slots, the port and the route in between.
-/

namespace HisiRf.LinkEvents

open Interaction

inductive PortState where | free | installing | ready | poisoned deriving DecidableEq

inductive SlotState where | free | writing | ready | reading deriving DecidableEq

inductive EventKind where | associate | disconnect deriving DecidableEq

structure LinkMeta where
  kind : EventKind
  statusOrReason : UInt16
  frequencyMhz : UInt16
  bssid : List UInt8
  firstLen : Nat
  secondLen : Nat

structure LinkSlot where
  state : SlotState
  sequence : UInt32
  info : LinkMeta
  first : List UInt8
  second : List UInt8

def queueDepth : Nat := 4
def maxAssociationIeLen : Nat := 768
def maxIeLength : Nat := 2304

inductive ConnectionOutcome where
  | pending
  | connected (bssid : List UInt8) (frequencyMhz : UInt16)
  | failed (status : UInt16)
  | disconnected (reason : UInt16)

structure ConnectionState where
  active : Bool
  done : Bool
  outcome : ConnectionOutcome

structure EventWorld where
  port : PortState
  nextSequence : UInt32
  dropped : UInt32
  slots : Fin queueDepth → LinkSlot
  connection : ConnectionState
  route : RouteWorld

/-- What a pointer of the vendor leads to, and the length that comes with it. -/
structure VendorBytes where
  pointer : Option (Nat → UInt8)
  len : UInt32

structure VendorConnectResult where
  requestIe : VendorBytes
  responseIe : VendorBytes
  bssid : List UInt8
  status : UInt16
  frequencyMhz : UInt16

structure VendorDisconnect where
  ie : VendorBytes
  reason : UInt16

/-- An event with its descriptor, which is missing if there is none of the expected size. -/
inductive VendorEvent where
  | connectResult (descriptor : Option VendorConnectResult)
  | disconnect (descriptor : Option VendorDisconnect)

inductive Op where
  | loadPortState
  | closeAdmission
  | initialAssociationResult (success : Bool)
  | nextSequence
  | countDropped
  | claimSlot (slot : Fin queueDepth)
  | fillSlot (slot : Fin queueDepth) (info : LinkMeta) (first second : List UInt8)
      (sequence : UInt32)
  | publishSlot (slot : Fin queueDepth)
  | noteOutcome (outcome : ConnectionOutcome)
  | notifyRunner

@[reducible] def Op.Reply : Op → Type
  | .loadPortState => PortState
  | .nextSequence => UInt32
  | .claimSlot _ => Bool
  | .closeAdmission | .initialAssociationResult _ | .countDropped | .fillSlot _ _ _ _ _
  | .publishSlot _ | .noteOutcome _ | .notifyRunner => Unit

abbrev ops : Signature := ⟨Op, Op.Reply⟩

abbrev Task (A : Type) := Program ops A

def EventWorld.setSlot (w : EventWorld) (slot : Fin queueDepth) (next : LinkSlot) : EventWorld :=
  { w with slots := Function.update w.slots slot next }

def Op.answer (w : EventWorld) : (o : Op) → o.Reply × EventWorld
  | .loadPortState => (w.port, w)
  | .closeAdmission =>
    ((), { w with
      route := { w.route with route := (CallbackRoute.closeAdmission w.route.route).2 } })
  | .initialAssociationResult success =>
    ((), { w with
      route := { w.route with
        route := (CallbackRoute.initialAssociationResult w.route.route success).2 } })
  | .nextSequence => (w.nextSequence, { w with nextSequence := w.nextSequence + 1 })
  | .countDropped => ((), { w with dropped := w.dropped + 1 })
  | .claimSlot slot =>
    if (w.slots slot).state = .free then
      (true, w.setSlot slot { w.slots slot with state := .writing })
    else (false, w)
  | .fillSlot slot info first second sequence =>
    ((), w.setSlot slot ⟨(w.slots slot).state, sequence, info, first, second⟩)
  | .publishSlot slot => ((), w.setSlot slot { w.slots slot with state := .ready })
  | .noteOutcome outcome =>
    if w.connection.active then
      ((), { w with connection := { w.connection with outcome := outcome, done := true } })
    else ((), w)
  | .notifyRunner => ((), w)

inductive EventAct where
  | route (label : RouteLabel)
  | elsewhere

/-- The others take steps on the route, and may do anything to the rest. -/
inductive EventOther (w : EventWorld) : EventAct → EventWorld → Prop where
  | route {label : RouteLabel} {next : RouteWorld} (step : RouteStep w.route label next) :
      EventOther w (.route label) { w with route := next }
  | elsewhere (other : EventWorld) : EventOther w .elsewhere { other with route := w.route }

def eventWorld : SharedWorld ops EventWorld EventAct where
  atom := fun w o reply after => (reply, after) = o.answer w
  other := EventOther

abbrev EventLabel := SharedLabel ops EventAct

def atom (o : Op) : Task o.Reply := Program.call (I := ops) o .done

def writeSlot (slot : Fin queueDepth) (info : LinkMeta) (first second : List UInt8)
    (sequence : UInt32) : Task Bool := do
  atom (.fillSlot slot info first second sequence)
  atom (.publishSlot slot)
  pure true

def trySlots (info : LinkMeta) (first second : List UInt8) (sequence : UInt32) :
    List (Fin queueDepth) → Task Bool
  | [] => do
    atom .countDropped
    pure false
  | slot :: rest => do
    let claimed ← atom (.claimSlot slot)
    if claimed then writeSlot slot info first second sequence
    else trySlots info first second sequence rest

def enqueue (info : LinkMeta) (first second : List UInt8) : Task Bool := do
  if first.length ≠ info.firstLen ∨ second.length ≠ info.secondLen
      ∨ maxAssociationIeLen < first.length ∨ maxAssociationIeLen < second.length then
    atom .countDropped
    pure false
  else
    let sequence ← atom .nextSequence
    trySlots info first second sequence (List.finRange queueDepth)

/-- A success that could not be queued is closed after all. -/
def closeUnqueued (close : Task Unit) (queued : Bool) : Task Bool := do
  if queued then pure true
  else
    close
    pure false

def enqueueWithAdmission (portReady : Bool) (info : LinkMeta) (first second : List UInt8)
    (close : Task Unit) : Task Bool := do
  if portReady = false ∨ info.kind = .disconnect ∨ info.statusOrReason ≠ 0 then
    close
    if portReady then enqueue info first second else pure false
  else
    let queued ← enqueue info first second
    closeUnqueued close queued

def enqueueInitialAssociation (portReady : Bool) (info : LinkMeta) (first second : List UInt8) :
    Task Bool := do
  atom (.initialAssociationResult
    (portReady && info.kind == .associate && info.statusOrReason == 0))
  enqueueWithAdmission portReady info first second (atom .closeAdmission)

def vendorAssocStatusOffset : UInt16 := 8000
def vendorAuthStatusOffset : UInt16 := 7000
def maxStandardIeeeStatus : UInt16 := 255
def wlanStatusAuthTimeout : UInt16 := 16
def wlanStatusInvalidPmkid : UInt16 := 53

def normalizeVendorAssociationStatus (status : UInt16) : UInt16 :=
  let standard := status - vendorAssocStatusOffset
  if vendorAssocStatusOffset ≤ status ∧ standard ≠ 0 ∧ standard ≤ maxStandardIeeeStatus then standard
  else status

def vendorResultUsesAssociationReject (rawStatus : UInt16) : Bool :=
  rawStatus == vendorAssocStatusOffset + wlanStatusInvalidPmkid
    || rawStatus == vendorAuthStatusOffset + wlanStatusAuthTimeout

def vendorResultUsesDisconnect (rawStatus : UInt16) : Bool :=
  rawStatus != 0 && !vendorResultUsesAssociationReject rawStatus

def closeNativeLinkAdmission : Task Unit := atom .closeAdmission

/-- What a result is queued as, and with which payloads. -/
def resultMeta (status frequencyMhz : UInt16) (bssid : List UInt8)
    (requestIes responseIes : List UInt8) : LinkMeta × List UInt8 × List UInt8 :=
  if vendorResultUsesDisconnect status then (⟨.disconnect, status, frequencyMhz, bssid, 0, 0⟩, [], [])
  else
    (⟨.associate, normalizeVendorAssociationStatus status, frequencyMhz, bssid, requestIes.length,
      responseIes.length⟩, requestIes, responseIes)

def notifyQueued (queued : Bool) : Task Bool := do
  if queued then
    atom .notifyRunner
    pure true
  else pure false

/-- `experiment` tells whether the build has the initial-session experiment. -/
def enqueueAssociateResult (experiment : Bool) (status frequencyMhz : UInt16)
    (bssid : List UInt8) (requestIes responseIes : List UInt8) : Task Bool := do
  let port ← atom .loadPortState
  if port ≠ .ready then
    closeNativeLinkAdmission
    pure false
  else
    let event := resultMeta status frequencyMhz bssid requestIes responseIes
    let queued ←
      if experiment then enqueueInitialAssociation true event.1 event.2.1 event.2.2
      else enqueueWithAdmission true event.1 event.2.1 event.2.2 closeNativeLinkAdmission
    notifyQueued queued

def enqueueDisconnect (reason : UInt16) (ies : List UInt8) : Task Bool := do
  let port ← atom .loadPortState
  let queued ← enqueueWithAdmission (port == .ready)
    ⟨.disconnect, reason, 0, List.replicate 6 0, ies.length, 0⟩ ies [] closeNativeLinkAdmission
  notifyQueued queued

/-- The bytes of a payload, for as long as the callback runs. -/
def transientEventBytes (bytes : VendorBytes) : Option (List UInt8) :=
  if maxIeLength < bytes.len.toNat ∨ (bytes.len ≠ 0 ∧ bytes.pointer.isNone) then none
  else if bytes.len = 0 then some []
  else bytes.pointer.map fun memory => (List.range bytes.len.toNat).map memory

def connectOutcome (result : VendorConnectResult) : ConnectionOutcome :=
  if result.status = 0 then .connected result.bssid result.frequencyMhz else .failed result.status

def offerDisconnect (reason : UInt16) : Option (List UInt8) → Task Unit
  | none => pure ()
  | some ies => do
    let _ ← enqueueDisconnect reason ies

def connectResultEvent (experiment : Bool) (result : VendorConnectResult) : Task Int32 := do
  match transientEventBytes result.requestIe, transientEventBytes result.responseIe with
  | some requestIes, some responseIes =>
    let _ ← enqueueAssociateResult experiment result.status result.frequencyMhz result.bssid
      requestIes responseIes
    atom (.noteOutcome (connectOutcome result))
    pure 0
  | _, _ => pure (-1)

def disconnectEvent (disconnect : VendorDisconnect) : Task Int32 := do
  offerDisconnect disconnect.reason (transientEventBytes disconnect.ie)
  atom (.noteOutcome (.disconnected disconnect.reason))
  pure 0

/-- The callback of the driver, for the two events of a link. -/
def driverEvent (experiment : Bool) : VendorEvent → Task Int32
  | .connectResult none => pure (-1)
  | .connectResult (some result) => connectResultEvent experiment result
  | .disconnect none => pure 0
  | .disconnect (some disconnect) => disconnectEvent disconnect

end HisiRf.LinkEvents
