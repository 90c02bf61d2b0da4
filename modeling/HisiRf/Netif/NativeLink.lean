import HisiRf.Interaction.Interference
import HisiRf.Netif.Tickets

/-! The native link: one L2 port together with the sole registration of a callback route.

Each method is its sequence of critical sections, port calls and accesses to the
link's own field, in the order of the source. Callbacks, deliveries, native closes
and the network executor may act between any two of them.
-/

namespace HisiRf

open Interaction Program

/-- A frame that the network executor queued, with the session it was queued in. -/
structure Packet where
  generation : Generation
  frame : List UInt8

/-- The L2 port as the link uses it. Its crate is not part of the repository, so that every result
is about any implementation; `device` is what the network executor may do to the shared queues. -/
structure L2Core (Port : Type) where
  ingress : Port → L2Ingress
  isUp : Port → Bool
  beginSession : Port → Except QueueError Generation × Port
  linkDown : Port → Except QueueError Unit × Port
  transmit : Port → Waker → Option Packet × Port
  isCurrent : Port → Packet → Bool
  complete : Port → Packet → Except QueueError Unit × Port
  discard : Port → Packet → Port
  device : Port → Port → Prop

inductive LinkError where
  | route (error : RouteError)
  | queue (error : QueueError)

inductive SubmitError (E : Type) where
  | native (error : E)
  | staleGeneration
  | admissionClosed

/-- How `poll_transmit` ends; the submit closure may also unwind through it. -/
inductive Transmission (E : Type) where
  | pending
  | ready (result : Except (SubmitError E) Unit)
  | unwound

structure NativeLink (Port : Type) where
  port : Port
  observedClose : Option UInt64

/-- The route, the link that holds its registration and the packet whose submission is running. -/
structure LinkWorld (Port : Type) where
  world : RouteWorld
  link : Option (NativeLink Port)
  submitting : Option Packet

def LinkWorld.new {Port : Type} : LinkWorld Port := ⟨.new, none, none⟩

inductive LinkAtom (Port : Type) where
  | claim (ingress : L2Ingress)
  | own (port : Port)
  | release
  | closeRevision
  | subscribeClose (waker : Waker)
  | closeAdmission
  | dropRegistration
  | prepareOpen
  | bindInitial (id : OperationId) (intent : OpenIntent)
  | commitOpen (intent : OpenIntent) (generation : Generation)
  | dropIntent (intent : OpenIntent)
  | enterTransmit (generation : Generation)
  | dropTransmit (generation : Generation)
  | linkDown
  | beginSession
  | transmit (waker : Waker)
  | isCurrent (packet : Packet)
  | complete (packet : Packet)
  | discard (packet : Packet)
  | loadObserved
  | storeObserved (revision : Option UInt64)
  | startSubmit (packet : Packet)
  | finishSubmit (packet : Packet)

@[reducible] def LinkAtom.Reply {Port : Type} (E : Type) : LinkAtom Port → Type
  | .claim _ | .commitOpen _ _ => Except RouteError Unit
  | .prepareOpen | .bindInitial _ _ => Except RouteError OpenIntent
  | .closeRevision | .subscribeClose _ | .loadObserved => Option UInt64
  | .linkDown | .complete _ => Except QueueError Unit
  | .beginSession => Except QueueError Generation
  | .transmit _ => Option Packet
  | .isCurrent _ | .enterTransmit _ => Bool
  | .finishSubmit _ => Option (Except E Unit)
  | .own _ | .release | .closeAdmission | .dropRegistration | .dropIntent _ | .dropTransmit _
  | .discard _ | .storeObserved _ | .startSubmit _ => Unit

abbrev linkAtoms (Port E : Type) : Signature := ⟨LinkAtom Port, LinkAtom.Reply E⟩

abbrev LinkProgram (Port E A : Type) := Program (linkAtoms Port E) A

variable {Port E : Type}

def atom (o : LinkAtom Port) : LinkProgram Port E (o.Reply E) :=
  call (I := linkAtoms Port E) o .done

variable {A : Type} {o : LinkAtom Port} {k : o.Reply E → LinkProgram Port E A}
  {talk : List (Exchange (linkAtoms Port E))}

theorem runs_atom {a : A} (reply : o.Reply E) (rest : Runs (k reply) talk a) :
    Runs (atom o >>= k) (⟨o, reply⟩ :: talk) a :=
  @Program.Runs.call (linkAtoms Port E) A o k talk a reply rest

theorem follows_atom {rest : LinkProgram Port E A} (reply : o.Reply E)
    (later : (k reply).Follows talk rest) : (atom o >>= k).Follows (⟨o, reply⟩ :: talk) rest :=
  @Program.Follows.of_reply (linkAtoms Port E) A talk rest o k reply later

namespace NativeLink

def bind (core : L2Core Port) (port : Port) : LinkProgram Port E (Except LinkError Unit) := do
  match ← atom (.claim (core.ingress port)) with
  | .error error => pure (.error (.route error))
  | .ok () =>
    atom (.own port)
    match ← atom .linkDown with
    | .error error =>
      -- The early return drops the registration that was just claimed.
      atom .dropRegistration
      atom .release
      pure (.error (.queue error))
    | .ok () =>
      let revision ← atom .closeRevision
      atom (.storeObserved revision)
      pure (.ok ())

def begin (intent : OpenIntent) : LinkProgram Port E (Except LinkError Unit) := do
  match ← atom .beginSession with
  | .error error =>
    atom (.dropIntent intent)
    pure (.error (.queue error))
  | .ok generation =>
    match ← atom (.commitOpen intent generation) with
    | .error error =>
      match ← atom .linkDown with
      | .error failure => pure (.error (.queue failure))
      | .ok () => pure (.error (.route error))
    | .ok () =>
      atom (.storeObserved (some intent.closeRevision))
      pure (.ok ())

def beginAfterNativeQuiescence : LinkProgram Port E (Except LinkError Unit) := do
  match ← atom .prepareOpen with
  | .error error => pure (.error (.route error))
  | .ok intent => begin intent

def prepareInitialOpen (id : OperationId) : LinkProgram Port E (Except RouteError OpenIntent) := do
  match ← atom .prepareOpen with
  | .error error => pure (.error error)
  | .ok intent => atom (.bindInitial id intent)

def close : LinkProgram Port E (Except QueueError Unit) := do
  atom .closeAdmission
  let revision ← atom .closeRevision
  atom (.storeObserved revision)
  atom .linkDown

/-- The attempt itself, before a failure closes the link. -/
def openInitialSession (id : OperationId) : LinkProgram Port E (Except LinkError Unit) := do
  match ← prepareInitialOpen id with
  | .error error => pure (.error (.route error))
  | .ok intent => begin intent

def beginInitialSessionExperiment (id : OperationId) :
    LinkProgram Port E (Except LinkError Unit) := do
  match ← openInitialSession id with
  | .error error =>
    let _ ← close
    pure (.error error)
  | .ok () => pure (.ok ())

def pollNativeClose (waker : Waker) : LinkProgram Port E (Except QueueError Bool) := do
  let revision ← atom (.subscribeClose waker)
  let observed ← atom .loadObserved
  if revision = observed then pure (.ok false)
  else
    atom (.storeObserved revision)
    match ← atom .linkDown with
    | .error error => pure (.error error)
    | .ok () => pure (.ok true)

/-- What `poll_transmit` does under a transmit ticket. -/
def submitUnderTicket (packet : Packet) : LinkProgram Port E (Transmission E) := do
  atom (.startSubmit packet)
  match ← atom (.finishSubmit packet) with
  | none =>
    atom (.dropTransmit packet.generation)
    atom (.discard packet)
    pure .unwound
  | some (.error error) =>
    atom (.dropTransmit packet.generation)
    atom (.discard packet)
    pure (.ready (.error (.native error)))
  | some (.ok ()) =>
    let completed ← atom (.complete packet)
    atom (.dropTransmit packet.generation)
    pure (.ready (completed.mapError fun _ => .staleGeneration))

def pollTransmit (waker : Waker) : LinkProgram Port E (Transmission E) := do
  match ← atom (.transmit waker) with
  | none => pure .pending
  | some packet =>
    let current ← atom (.isCurrent packet)
    if current = false then
      atom (.discard packet)
      pure (.ready (.error .staleGeneration))
    else
      let granted ← atom (.enterTransmit packet.generation)
      if granted = false then
        atom (.discard packet)
        pure (.ready (.error .admissionClosed))
      else submitUnderTicket packet

def drop : LinkProgram Port E Unit := do
  let _ ← close
  atom .dropRegistration
  atom .release

end NativeLink

inductive LinkCall (Port : Type) where
  | bind (port : Port)
  | beginAfterNativeQuiescence
  | beginInitialSessionExperiment (id : OperationId)
  | pollNativeClose (waker : Waker)
  | close
  | pollTransmit (waker : Waker)
  | drop

@[reducible] def LinkCall.Reply {Port : Type} (E : Type) : LinkCall Port → Type
  | .bind _ | .beginAfterNativeQuiescence | .beginInitialSessionExperiment _ =>
    Except LinkError Unit
  | .pollNativeClose _ => Except QueueError Bool
  | .close => Except QueueError Unit
  | .pollTransmit _ => Transmission E
  | .drop => Unit

abbrev linkCalls (Port E : Type) : Signature := ⟨LinkCall Port, LinkCall.Reply E⟩

def linkProgram (core : L2Core Port) : (call : LinkCall Port) → LinkProgram Port E (call.Reply E)
  | .bind port => NativeLink.bind core port
  | .beginAfterNativeQuiescence => NativeLink.beginAfterNativeQuiescence
  | .beginInitialSessionExperiment id => NativeLink.beginInitialSessionExperiment id
  | .pollNativeClose waker => NativeLink.pollNativeClose waker
  | .close => NativeLink.close
  | .pollTransmit waker => NativeLink.pollTransmit waker
  | .drop => NativeLink.drop

namespace LinkWorld

def onRoute (w : LinkWorld Port) (label : RouteLabel) (after : LinkWorld Port) : Prop :=
  ∃ next, RouteStep w.world label next ∧ after = { w with world := next }

def onPort {R : Type} (w : LinkWorld Port) (call : Port → R × Port) (reply : R)
    (after : LinkWorld Port) : Prop :=
  ∃ link, w.link = some link ∧ reply = (call link.port).1 ∧
    after = { w with link := some { link with port := (call link.port).2 } }

end LinkWorld

def LinkAtom.acts (core : L2Core Port) (w : LinkWorld Port) :
    (o : LinkAtom Port) → o.Reply E → LinkWorld Port → Prop
  | .claim ingress, reply, after => w.onRoute (.claim ingress reply) after
  | .own port, _, after => after = { w with link := some ⟨port, none⟩ }
  | .release, _, after => after = { w with link := none }
  | .closeRevision, reply, after => w.onRoute (.closeRevision reply) after
  | .subscribeClose waker, reply, after => w.onRoute (.subscribeClose waker reply) after
  | .closeAdmission, _, after => ∃ woken, w.onRoute (.closeAdmission woken) after
  | .dropRegistration, _, after => ∃ woken, w.onRoute (.dropRegistration woken) after
  | .prepareOpen, reply, after => w.onRoute (.prepareOpen reply) after
  | .bindInitial id intent, reply, after => w.onRoute (.bindInitial id intent reply) after
  | .commitOpen intent generation, reply, after =>
    w.onRoute (.commitOpen intent generation reply) after
  | .dropIntent intent, _, after => w.onRoute (.dropIntent intent) after
  | .enterTransmit generation, reply, after => w.onRoute (.enterTransmit generation reply) after
  | .dropTransmit generation, _, after =>
    ∃ transmit : LiveTransmit, transmit.generation = generation ∧
      w.onRoute (.dropTransmit transmit) after
  | .linkDown, reply, after => w.onPort core.linkDown reply after
  | .beginSession, reply, after => w.onPort core.beginSession reply after
  | .transmit waker, reply, after => w.onPort (core.transmit · waker) reply after
  | .isCurrent packet, reply, after =>
    w.onPort (fun port => (core.isCurrent port packet, port)) reply after
  | .complete packet, reply, after => w.onPort (core.complete · packet) reply after
  | .discard packet, reply, after => w.onPort (fun port => ((), core.discard port packet)) reply after
  | .loadObserved, reply, after => after = w ∧ ∃ link, w.link = some link ∧ reply = link.observedClose
  | .storeObserved revision, _, after =>
    ∃ link, w.link = some link ∧
      after = { w with link := some { link with observedClose := revision } }
  | .startSubmit packet, _, after => after = { w with submitting := some packet }
  | .finishSubmit _, _, after => after = { w with submitting := none }

/-- What the others do: a step on the route that needs no registration, or the executor's own work
on the queues of the port. -/
inductive LinkAct where
  | native (label : RouteLabel)
  | device

inductive LinkOther (core : L2Core Port) (w : LinkWorld Port) :
    LinkAct → LinkWorld Port → Prop where
  | native {label : RouteLabel} {next : RouteWorld} (foreign : label.foreign = true)
      (step : RouteStep w.world label next) :
      LinkOther core w (.native label) { w with world := next }
  | device {link : NativeLink Port} {port : Port} (bound : w.link = some link)
      (moved : core.device link.port port) :
      LinkOther core w .device { w with link := some { link with port := port } }

def linkWorld (core : L2Core Port) : SharedWorld (linkAtoms Port E) (LinkWorld Port) LinkAct where
  atom := fun w o reply after => o.acts core w reply after
  other := LinkOther core

abbrev LinkLabel (Port E : Type) := SharedLabel (linkAtoms Port E) LinkAct

/-- A history of links on one route that makes exactly these calls, one after another. -/
abbrev LinkRealizes (core : L2Core Port) :
    LinkWorld Port → List (Exchange (linkCalls Port E)) → List (LinkLabel Port E) →
      LinkWorld Port → Prop :=
  Realizes (linkWorld core) (linkProgram core)

/-- A history that may have come to the middle of a call. -/
abbrev LinkUnderway (core : L2Core Port) :
    LinkWorld Port → List (LinkLabel Port E) → LinkWorld Port → Prop :=
  Underway (I := linkCalls Port E) (linkWorld core) (linkProgram core)

def linkSession : LinkLabel Port E → Option SessionEvent
  | .other (.native label) => label.session
  | .mine ⟨.closeAdmission, _⟩ => some .closed
  | .mine ⟨.dropRegistration, _⟩ => some .dropped
  | .mine ⟨.commitOpen intent _, .ok ()⟩ =>
    if intent.initialOperation.isSome then some .opened else none
  | _ => none

variable {core : L2Core Port} {w after : LinkWorld Port}

/-- An action is a step on the route, or it leaves the route as it is. -/
theorem LinkAtom.acts_cases {reply : o.Reply E} (action : o.acts core w reply after) :
    (∃ taken, w.onRoute taken after ∧ linkSession (E := E) (.mine ⟨o, reply⟩) = taken.session ∧
      ∀ woken, taken = .dropRegistration woken → o = .dropRegistration) ∨
    (linkSession (E := E) (.mine ⟨o, reply⟩) = none ∧ after.world = w.world ∧
      ((∀ packet, o ≠ .startSubmit packet) → w.submitting = none → after.submitting = none) ∧
      ((∀ port, o ≠ .own port) → w.link = none → after.link = none)) := by
  cases o with
  | claim | closeRevision | subscribeClose | prepareOpen | bindInitial | dropIntent
  | enterTransmit => exact .inl ⟨_, action, rfl, nofun⟩
  | commitOpen => cases reply <;> exact .inl ⟨_, action, rfl, nofun⟩
  | closeAdmission => exact action.elim fun _ taken => .inl ⟨_, taken, rfl, nofun⟩
  | dropRegistration => exact action.elim fun _ taken => .inl ⟨_, taken, rfl, fun _ _ => rfl⟩
  | dropTransmit => exact action.elim fun _ taken => .inl ⟨_, taken.2, rfl, nofun⟩
  | linkDown | beginSession | transmit | isCurrent | complete | discard =>
    obtain ⟨link, bound, _, rfl⟩ := action
    exact .inr ⟨rfl, rfl, fun _ => id, fun _ free => nomatch bound.symm.trans free⟩
  | storeObserved =>
    obtain ⟨link, bound, rfl⟩ := action
    exact .inr ⟨rfl, rfl, fun _ => id, fun _ free => nomatch bound.symm.trans free⟩
  | loadObserved =>
    obtain ⟨rfl, _⟩ := action
    exact .inr ⟨rfl, rfl, fun _ => id, fun _ => id⟩
  | own port =>
    obtain rfl := action
    exact .inr ⟨rfl, rfl, fun _ => id, fun other => absurd rfl (other port)⟩
  | startSubmit packet =>
    obtain rfl := action
    exact .inr ⟨rfl, rfl, fun other => absurd rfl (other packet), fun _ => id⟩
  | release | finishSubmit =>
    obtain rfl := action
    exact .inr ⟨rfl, rfl, fun _ free => by first | exact free | rfl, fun _ free =>
      by first | exact free | rfl⟩

/-- Whatever happens around the link, the route only takes its own steps. -/
theorem linkStep_route {label : LinkLabel Port E} (step : SharedStep (linkWorld core) w label after) :
    (linkSession label = none ∧ after.world = w.world) ∨
      ∃ taken, RouteStep w.world taken after.world ∧ linkSession label = taken.session := by
  cases step with
  | other taken =>
    cases taken with
    | native _ taken => exact .inr ⟨_, taken, rfl⟩
    | device => exact .inl ⟨rfl, rfl⟩
  | mine action =>
    rcases LinkAtom.acts_cases action with ⟨taken, ⟨next, step, rfl⟩, same, _⟩ | ⟨silent, kept, _⟩
    · exact .inr ⟨taken, step, same⟩
    · exact .inl ⟨silent, kept⟩

theorem linkRun_route {labels : List (LinkLabel Port E)}
    (run : Run (linkWorld core).system w labels after) :
    ∃ taken, Run routeSystem w.world taken after.world := by
  refine run.view LinkWorld.world fun before label next step => ?_
  rcases linkStep_route step with ⟨_, same⟩ | ⟨taken, route, _⟩
  · exact .inl same
  · exact .inr ⟨taken, route⟩

/-! A small port that numbers its sessions, and the shortest history that opens a link on it. -/

structure NumberedPort where
  up : Bool
  sessions : Nat

def freshPort : NumberedPort := ⟨false, 0⟩

def numberedFrame (port : NumberedPort) : Packet := ⟨⟨port.sessions - 1⟩, [0]⟩

def numberedCore : L2Core NumberedPort where
  ingress := fun _ => firstIngress
  isUp := NumberedPort.up
  beginSession := fun port => (.ok ⟨port.sessions⟩, ⟨true, port.sessions + 1⟩)
  linkDown := fun port => (.ok (), { port with up := false })
  transmit := fun port _ => (if port.up then some (numberedFrame port) else none, port)
  isCurrent := fun port packet => port.up && packet.generation.raw + 1 == port.sessions
  complete := fun port _ => (.ok (), port)
  discard := fun port _ => port
  device := fun port next => next = port

def boundLink : LinkWorld NumberedPort := ⟨boundWorld, some ⟨freshPort, some 0⟩, none⟩

def openedLink : LinkWorld NumberedPort := ⟨openedWorld, some ⟨⟨true, 1⟩, some 0⟩, none⟩

def bindActions : List (Exchange (linkAtoms NumberedPort Unit)) :=
  [⟨.claim firstIngress, .ok ()⟩, ⟨.own freshPort, ()⟩, ⟨.linkDown, .ok ()⟩,
    ⟨.closeRevision, some 0⟩, ⟨.storeObserved (some 0), ()⟩]

def openActions : List (Exchange (linkAtoms NumberedPort Unit)) :=
  [⟨.prepareOpen, .ok firstIntent⟩, ⟨.beginSession, .ok firstGeneration⟩,
    ⟨.commitOpen firstIntent firstGeneration, .ok ()⟩, ⟨.storeObserved (some 0), ()⟩]

theorem numbered_step {w after : LinkWorld NumberedPort} (o : LinkAtom NumberedPort) (reply : o.Reply Unit)
    (acts : o.acts numberedCore w reply after) :
    (linkWorld (E := Unit) numberedCore).system.step w (.mine ⟨o, reply⟩) after := .mine acts

theorem boundLink_reached :
    Run (linkWorld (E := Unit) numberedCore).system .new (alone bindActions) boundLink := by
  have claim := Run.start.next (numbered_step (w := .new) (.claim firstIngress) (.ok ())
    ⟨_, RouteStep.claim _, rfl⟩)
  have own := claim.next (numbered_step (.own freshPort) () rfl)
  have down := own.next (numbered_step .linkDown (.ok ()) ⟨_, rfl, rfl, rfl⟩)
  have read := down.next (numbered_step .closeRevision (some 0) ⟨_, RouteStep.closeRevision rfl, rfl⟩)
  exact read.next (numbered_step (.storeObserved (some 0)) () ⟨_, rfl, rfl⟩)

theorem openedLink_reached :
    Run (linkWorld (E := Unit) numberedCore).system boundLink (alone openActions) openedLink := by
  have prepare := Run.start.next (numbered_step (w := boundLink) .prepareOpen (.ok firstIntent)
    ⟨_, RouteStep.prepareOpen rfl, rfl⟩)
  have begins := prepare.next (numbered_step .beginSession (.ok firstGeneration) ⟨_, rfl, rfl, rfl⟩)
  have commit := begins.next (numbered_step (.commitOpen firstIntent firstGeneration) (.ok ())
    ⟨_, @RouteStep.commitOpen _ [] [] firstIntent firstGeneration rfl rfl, rfl⟩)
  exact commit.next (numbered_step (.storeObserved (some 0)) () ⟨_, rfl, rfl⟩)

theorem bind_runs : Runs (NativeLink.bind numberedCore freshPort) bindActions (.ok ()) := by
  refine runs_atom (o := .claim firstIngress) (.ok ()) ?_
  refine runs_atom (o := .own freshPort) () ?_
  refine runs_atom (o := .linkDown) (.ok ()) ?_
  refine runs_atom (o := .closeRevision) (some 0) ?_
  exact runs_atom (o := .storeObserved (some 0)) () (.done _)

theorem open_runs : Runs NativeLink.beginAfterNativeQuiescence openActions (.ok ()) := by
  refine runs_atom (o := .prepareOpen) (.ok firstIntent) ?_
  refine runs_atom (o := .beginSession) (.ok firstGeneration) ?_
  refine runs_atom (o := .commitOpen firstIntent firstGeneration) (.ok ()) ?_
  exact runs_atom (o := .storeObserved (some 0)) () (.done _)

/-- Binding a fresh port and opening it, with any steps of the others after the opening. -/
theorem openedLink_realized {labels : List (LinkLabel NumberedPort Unit)}
    {after : LinkWorld NumberedPort}
    (later : Run (linkWorld numberedCore).system openedLink labels after)
    (silent : mine labels = []) : LinkRealizes numberedCore .new
      [⟨.bind freshPort, .ok ()⟩, ⟨.beginAfterNativeQuiescence, .ok ()⟩]
      (alone bindActions ++ (alone openActions ++ labels)) after := by
  refine .call boundLink_reached ?_ (.call openedLink_reached ?_ (.idle later silent))
  · rw [mine_alone]
    exact bind_runs
  · rw [mine_alone]
    exact open_runs

end HisiRf
