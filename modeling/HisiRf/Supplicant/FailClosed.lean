import HisiRf.Interaction.Pool
import HisiRf.Netif.Revision
import HisiRf.Supplicant.LinkEvents

/-! The delivery of a link event fails closed.

Each routine of a delivery obeys one small protocol: an event is published only
on a port that was found ready, and a loss only after admission was closed. What
is left at the end of the callback says when admission may have stayed open. The
callback looks at an event before it delivers it, and what it cannot read it
delivers to no one: such an event closes nothing.
-/

namespace HisiRf.LinkEvents

open Interaction VendorEvent Program Bool

section Watching

def Op.closes : Op → Bool
  | .closeAdmission | .initialAssociationResult _ => true
  | _ => false

def Op.publishes : Op → Bool
  | .publishSlot _ => true
  | _ => false

def sawReady : Exchange ops → Bool
  | ⟨.loadPortState, .ready⟩ => true
  | _ => false

structure Progress where
  ready : Bool
  closed : Bool
  published : Bool

def Progress.after (progress : Progress) : Exchange ops → Progress
  | ⟨.loadPortState, .ready⟩ => { progress with ready := true }
  | ⟨.closeAdmission, _⟩ | ⟨.initialAssociationResult _, _⟩ => { progress with closed := true }
  | ⟨.publishSlot _, _⟩ => { progress with published := true }
  | _ => progress

def Progress.offer (progress : Progress) (queued : Bool) : Progress :=
  { progress with published := progress.published || queued }

open LinkEvents.Progress (after offer)

@[simp] theorem Progress.offer_false (progress : Progress) : progress.offer false = progress := by
  simp [offer]

@[simp] theorem Progress.offer_true (progress : Progress) :
    progress.offer true = { progress with published := true } := by
  simp [offer]

/-- An event is published only on a ready port, and a loss only when admission is closed. -/
def watch (lost : Bool) : Protocol ops Progress where
  allows progress o := o.publishes = true →
    progress.ready = true ∧ (lost = true → progress.closed = true)
  after := after

theorem foldl_after (talk : List (Exchange ops)) (progress : Progress) :
    talk.foldl after progress =
      ⟨progress.ready || talk.any sawReady, progress.closed || talk.any (·.op.closes),
        progress.published || talk.any (·.op.publishes)⟩ := by
  induction talk generalizing progress with
  | nil => simp
  | cons exchange rest ih =>
    rw [List.foldl_cons, ih]
    obtain ⟨o, reply⟩ := exchange
    cases o with
    | loadPortState =>
      cases reply <;> simp [after, sawReady, Op.closes, Op.publishes]
    | _ => simp [after, sawReady, Op.closes, Op.publishes]

variable {A : Type} {lost : Bool} {progress : Progress}

theorem trySlots_watched (info : LinkMeta) (first second : List UInt8) (sequence : UInt32)
    (slots : List (Fin queueDepth)) (ready : progress.ready = true)
    (closed : lost = true → progress.closed = true) :
    (trySlots info first second sequence slots).Obeys (watch lost)
      (fun queued last => last = progress.offer queued) progress := by
  induction slots with
  | nil => exact obeys_atom.mpr ⟨nofun, fun _ => progress.offer_false.symm⟩
  | cons slot rest ih =>
    refine obeys_atom.mpr ⟨nofun, ?_⟩
    intro claimed
    cases claimed with
    | false => exact ih
    | true =>
      refine obeys_atom.mpr ⟨nofun, fun _ => obeys_atom.mpr ⟨fun _ => ⟨ready, closed⟩, ?_⟩⟩
      exact fun _ => progress.offer_true.symm

theorem enqueue_watched (info : LinkMeta) (first second : List UInt8) (ready : progress.ready = true)
    (closed : lost = true → progress.closed = true) : (enqueue info first second).Obeys (watch lost)
      (fun queued last => last = progress.offer queued) progress := by
  unfold enqueue
  split
  · exact obeys_atom.mpr ⟨nofun, fun _ => progress.offer_false.symm⟩
  · refine obeys_atom.mpr ⟨nofun, fun sequence => ?_⟩
    exact trySlots_watched info first second sequence _ ready closed

/-- The event is one of those that close admission before they are published. -/
def LinkMeta.isLoss (info : LinkMeta) : Bool := info.kind == .disconnect || info.statusOrReason != 0

theorem closeNativeLinkAdmission_watched :
    closeNativeLinkAdmission.Obeys (watch lost) (fun _ last => last = { progress with closed := true })
      progress := ⟨nofun, fun _ => rfl⟩

theorem enqueueWithAdmission_watched (portReady : Bool) (info : LinkMeta) (first second : List UInt8)
    (ready : progress.ready = portReady) (losing : lost = true → info.isLoss = true) :
    (enqueueWithAdmission portReady info first second closeNativeLinkAdmission).Obeys (watch lost)
      (fun queued last => (queued = true → portReady = true) ∧ last =
        { progress.offer queued with closed := progress.closed || info.isLoss || !queued })
      progress := by
  have lossy : (portReady = false ∨ info.kind = .disconnect ∨ info.statusOrReason ≠ 0) ↔
      portReady = false ∨ info.isLoss = true := by
    simp [LinkMeta.isLoss]
  unfold enqueueWithAdmission
  rw [if_congr lossy rfl rfl]
  split
  next loses =>
    refine closeNativeLinkAdmission_watched.on fun _ => ?_
    cases portReady with
    | false => exact ⟨nofun, by simp⟩
    | true =>
      have offers : (enqueue info first second).Obeys (watch lost)
          (fun queued last => last = offer { progress with closed := true } queued)
          { progress with closed := true } :=
        enqueue_watched info first second ready fun _ => rfl
      refine offers.mono ?_
      rintro queued _ rfl
      have loss : info.isLoss = true := by simpa using loses
      simp [loss, offer]
  next keeps =>
    obtain ⟨isReady, noLoss⟩ : portReady = true ∧ info.isLoss = false := by simpa using keeps
    have won : lost = true → progress.closed = true := by
      intro isLost
      rw [losing isLost] at noLoss
      cases noLoss
    refine (enqueue_watched info first second (ready.trans isReady) won).on fun queued => ?_
    cases queued with
    | true => exact ⟨fun _ => isReady, by simp [noLoss]⟩
    | false =>
      exact closeNativeLinkAdmission_watched.on fun _ => ⟨nofun, by simp⟩

/-- Admission is closed unless a success was published, and only then may it have stayed open. -/
structure FailsClosed (experiment lost : Bool) (last : Progress) : Prop where
  ready : last.published = true → last.ready = true
  closed : lost = true ∨ last.published = false → last.closed = true
  kept : experiment = false → lost = false → last.published = true → last.closed = false

theorem normalizeVendorAssociationStatus_eq_zero (status : UInt16) :
    normalizeVendorAssociationStatus status = 0 ↔ status = 0 := by
  unfold normalizeVendorAssociationStatus
  dsimp only
  split
  next standard =>
    refine iff_of_false standard.2.1 ?_
    rintro rfl
    exact absurd standard.1 (by decide)
  · rfl

theorem resultMeta_isLoss (status frequencyMhz : UInt16) (bssid requestIes responseIes : List UInt8) :
    (resultMeta status frequencyMhz bssid requestIes responseIes).1.isLoss = (status != 0) := by
  unfold resultMeta
  split
  next disconnects =>
    have nonzero : (status != 0) = true := (and_eq_true_iff.mp disconnects).1
    rw [nonzero]
    rfl
  · change (normalizeVendorAssociationStatus status != 0) = (status != 0)
    have same := normalizeVendorAssociationStatus_eq_zero status
    rw [Bool.eq_iff_iff, bne_iff_ne, bne_iff_ne, Ne, same]

theorem notifyQueued_watched (queued : Bool) :
    (notifyQueued queued).Obeys (watch lost) (fun _ last => last = progress) progress := by
  cases queued with
  | true => exact ⟨nofun, fun _ => rfl⟩
  | false => rfl

theorem enqueueAssociateResult_watched (experiment : Bool) (status frequencyMhz : UInt16)
    (bssid requestIes responseIes : List UInt8) :
    (enqueueAssociateResult experiment status frequencyMhz bssid requestIes responseIes).Obeys
      (watch (status != 0)) (fun _ last => FailsClosed experiment (status != 0) last)
      ⟨false, false, false⟩ := by
  have loss := resultMeta_isLoss status frequencyMhz bssid requestIes responseIes
  have losing (lost : (status != 0) = true) :
      (resultMeta status frequencyMhz bssid requestIes responseIes).1.isLoss = true := loss.trans lost
  refine obeys_atom.mpr ⟨nofun, ?_⟩
  intro port
  split
  next unready =>
    refine closeNativeLinkAdmission_watched.on fun _ => ?_
    cases port with
    | ready => exact absurd rfl unready
    | _ => exact ⟨nofun, fun _ => rfl, fun _ _ published => by cases published⟩
  next isReady =>
    obtain rfl : port = .ready := not_not.mp isReady
    cases experiment with
    | true =>
      refine obeys_atom.mpr ⟨nofun, fun _ => ?_⟩
      refine (enqueueWithAdmission_watched true _ _ _ rfl losing).next ?_
      rintro queued _ ⟨_, rfl⟩
      refine (notifyQueued_watched queued).mono ?_
      rintro _ _ rfl
      exact ⟨fun _ => rfl, fun _ => rfl, nofun⟩
    | false =>
      refine (enqueueWithAdmission_watched true _ _ _ rfl losing).next ?_
      rintro queued _ ⟨_, rfl⟩
      refine (notifyQueued_watched queued).mono ?_
      rintro _ _ rfl
      refine ⟨fun _ => rfl, ?_, ?_⟩
      · rintro (lost | unpublished)
        · simp [loss, lost]
        · simp_all [offer]
      · intro _ won published
        simp_all [offer, watch, after]

theorem enqueueDisconnect_watched (experiment : Bool) (reason : UInt16) (ies : List UInt8) :
    (enqueueDisconnect reason ies).Obeys (watch true) (fun _ last => FailsClosed experiment true last)
      ⟨false, false, false⟩ := by
  refine obeys_atom.mpr ⟨nofun, ?_⟩
  intro port
  have ready : ((watch true).after ⟨false, false, false⟩ ⟨.loadPortState, port⟩).ready =
      (port == .ready) := by
    cases port <;> rfl
  refine (enqueueWithAdmission_watched _ _ _ _ ready fun _ => rfl).next ?_
  rintro queued _ ⟨known, rfl⟩
  refine (notifyQueued_watched queued).mono ?_
  rintro _ _ rfl
  refine ⟨?_, fun _ => ?_, nofun⟩
  · intro published
    have taken : queued = true := by
      cases port <;> simpa [offer, watch, after] using published
    exact ready.trans (known taken)
  · simp [LinkMeta.isLoss]

end Watching

/-- A payload the callback can look at: not too long, and not missing unless it is empty. -/
def VendorBytes.readable (bytes : VendorBytes) : Bool :=
  decide (bytes.len.toNat ≤ maxIeLength) && (bytes.len == 0 || bytes.pointer.isSome)

def VendorEvent.readable : VendorEvent → Bool
  | .connectResult descriptor =>
    descriptor.any fun result => result.requestIe.readable && result.responseIe.readable
  | .disconnect descriptor => descriptor.any fun disconnect => disconnect.ie.readable

def VendorEvent.lost : VendorEvent → Bool
  | .connectResult descriptor => !descriptor.any fun result => result.status == 0
  | .disconnect _ => true

theorem transientEventBytes_isSome (bytes : VendorBytes) :
    (transientEventBytes bytes).isSome = bytes.readable := by
  unfold transientEventBytes VendorBytes.readable
  cases pointer : bytes.pointer with
  | none => by_cases empty : bytes.len = 0 <;> simp [empty]
  | some =>
    by_cases long : maxIeLength < bytes.len.toNat
    · simp [long]
    · by_cases empty : bytes.len = 0 <;> simp [empty, long, Nat.le_of_not_lt long]

theorem noteOutcome_watched {experiment lost : Bool} {progress : Progress} {status : Int32}
    (outcome : ConnectionOutcome) (closed : FailsClosed experiment lost progress) :
    ((atom (.noteOutcome outcome)).bind fun _ => pure status).Obeys (watch lost)
      (fun _ last => FailsClosed experiment lost last) progress :=
  obeys_atom.mpr ⟨nofun, fun _ => closed⟩

theorem driverEvent_watched (experiment : Bool) (event : VendorEvent)
    (readable : event.readable = true) : (driverEvent experiment event).Obeys (watch event.lost)
      (fun _ last => FailsClosed experiment event.lost last) ⟨false, false, false⟩ := by
  cases event with
  | connectResult descriptor =>
    cases descriptor with
    | none => cases readable
    | some result =>
      obtain ⟨request, response⟩ := (and_eq_true _ _).mp readable
      rw [← transientEventBytes_isSome] at request response
      obtain ⟨requestIes, request⟩ := Option.isSome_iff_exists.mp request
      obtain ⟨responseIes, response⟩ := Option.isSome_iff_exists.mp response
      have offered := enqueueAssociateResult_watched experiment result.status
        result.frequencyMhz result.bssid requestIes responseIes
      simp only [driverEvent, connectResultEvent, request, response]
      refine offered.next fun _ _ closed => ?_
      exact noteOutcome_watched _ closed
  | disconnect descriptor =>
    cases descriptor with
    | none => cases readable
    | some disconnect =>
      have present : (transientEventBytes disconnect.ie).isSome = true :=
        (transientEventBytes_isSome _).trans readable
      obtain ⟨ies, given⟩ := Option.isSome_iff_exists.mp present
      have offered := enqueueDisconnect_watched experiment disconnect.reason ies
      simp only [driverEvent, disconnectEvent, given, offerDisconnect]
      refine Obeys.bind (Obeys.bind (offered.mono fun _ _ closed => ?_))
      exact noteOutcome_watched _ closed

/-- What the callback cannot read it only notes. -/
theorem driverEvent_unreadable (experiment : Bool) (event : VendorEvent)
    (unreadable : event.readable = false) :
    (driverEvent experiment event).Only fun o : Op => o.closes = false ∧ o.publishes = false := by
  cases event with
  | connectResult descriptor =>
    cases descriptor with
    | none => trivial
    | some result =>
      have missing : ¬((transientEventBytes result.requestIe).isSome = true ∧
          (transientEventBytes result.responseIe).isSome = true) := by
        rw [transientEventBytes_isSome, transientEventBytes_isSome, ← and_eq_true]
        exact eq_false_iff.mp unreadable
      simp only [driverEvent, connectResultEvent]
      split
      next request response => simp [request, response] at missing
      next => trivial
  | disconnect descriptor =>
    cases descriptor with
    | none => trivial
    | some disconnect =>
      have missing : (transientEventBytes disconnect.ie).isSome = false :=
        (transientEventBytes_isSome _).trans unreadable
      rw [Option.isSome_eq_false_iff, Option.isNone_iff_eq_none] at missing
      simp only [driverEvent, disconnectEvent, missing, offerDisconnect]
      exact ⟨⟨rfl, rfl⟩, fun _ => trivial⟩

variable {w after : EventWorld} {labels : List EventLabel}

def EventAct.closes : EventAct → Bool
  | .route label => label.closes
  | .elsewhere => false

def closesRoute : EventLabel → Bool
  | .mine exchange => exchange.op.closes
  | .other act => act.closes

theorem answer_route_of_quiet {o : Op} (quiet : o.closes = false) :
    (o.answer w).2.route = w.route := by
  cases o with
  | closeAdmission | initialAssociationResult => cases quiet
  | claimSlot | noteOutcome =>
    simp only [Op.answer]
    split <;> rfl
  | _ => rfl

theorem step_route {label : EventLabel} (step : eventWorld.system.step w label after) :
    (closesRoute label = false ∧ after.route = w.route) ∨
      ∃ taken, RouteStep w.route taken after.route ∧ taken.closes = closesRoute label := by
  cases step with
  | @mine _ o _ acted =>
    obtain rfl : after = (o.answer w).2 := congrArg Prod.snd acted
    cases closes : o.closes with
    | false => exact .inl ⟨closes, answer_route_of_quiet closes⟩
    | true =>
      right
      cases o with
      | closeAdmission => exact ⟨_, .closeAdmission, rfl⟩
      | initialAssociationResult success => exact ⟨_, .initial (.result success), rfl⟩
      | _ => cases closes
  | other acted =>
    cases acted with
    | route taken => exact .inr ⟨_, taken, rfl⟩
    | elsewhere => exact .inl ⟨rfl, rfl⟩

def eventClock : Clock eventWorld.system where
  reading w := w.route.revision
  limit := 2 ^ 64
  advances := closesRoute
  forward := by
    intro w after label step
    rcases step_route step with ⟨_, same⟩ | ⟨taken, routed, _⟩
    · rw [same]
    · exact closeClock.forward routed
  moves := by
    intro w after label step closes below
    rcases step_route step with ⟨quiet, _⟩ | ⟨taken, routed, agrees⟩
    · rw [quiet] at closes
      cases closes
    · exact closeClock.moves routed (agrees.trans closes) below

theorem closed_of_acts {o : Op} {reply : o.Reply} (closes : o.closes = true)
    (step : eventWorld.system.step w (.mine ⟨o, reply⟩) after) :
    after.route.route.generation = none := by
  cases step with
  | mine acted =>
    obtain rfl : after = (o.answer w).2 := congrArg Prod.snd acted
    cases o with
    | closeAdmission | initialAssociationResult => rfl
    | _ => cases closes

/-- The callback closed admission in the course of a run, which moved the revision unless it was
spent. -/
structure ClosedDuring (w : EventWorld) (labels : List EventLabel) (after : EventWorld) : Prop where
  moment : ∃ first exchange second before closed, labels = first ++ .mine exchange :: second ∧
    exchange.op.closes = true ∧ Run eventWorld.system w first before ∧
      eventWorld.system.step before (.mine exchange) closed ∧
    Run eventWorld.system closed second after ∧ closed.route.route.generation = none
  revision : w.route.revision < 2 ^ 64 → w.route.revision < after.route.revision

theorem closedDuring_of_run (run : Run eventWorld.system w labels after)
    (closes : (mine labels).any (·.op.closes) = true) : ClosedDuring w labels after := by
  obtain ⟨exchange, acted, closing⟩ := List.any_eq_true.mp closes
  obtain ⟨first, second, rfl⟩ := List.append_of_mem (mem_mine.mp acted)
  obtain ⟨before, closed, earlier, step, later⟩ := run.step_at
  refine ⟨⟨first, exchange, second, before, closed, rfl, closing, earlier, step, later,
    closed_of_acts closing step⟩, ?_⟩
  intro unspent
  have grown : w.route.revision ≤ before.route.revision := eventClock.le_of_run earlier
  have moved : before.route.revision < 2 ^ 64 → before.route.revision < closed.route.revision :=
    eventClock.moves step closing
  have stepped : before.route.revision ≤ closed.route.revision := eventClock.forward step
  have kept : closed.route.revision ≤ after.route.revision := eventClock.le_of_run later
  omega

/-- The event is a successful association that was queued on a port found ready. -/
structure QueuedSuccess (event : VendorEvent) (talk : List (Exchange ops)) : Prop where
  won : event.lost = false
  ready : talk.any sawReady = true
  published : talk.any (·.op.publishes) = true

/-- Whatever the port, the queue and the route are when the vendor delivers an event, and whatever
others do to them meanwhile, the callback can read the event exactly if: unless the event is a success
that was queued on a ready port, the callback closes admission; it closes before it publishes a loss;
and without the experiment it does not close when it queues a success. -/
theorem link_events_fail_closed (experiment : Bool) (event : VendorEvent) {status : Int32}
    (run : Run eventWorld.system w labels after)
    (delivers : (driverEvent experiment event).Runs (mine labels) status) :
    ((¬ QueuedSuccess event (mine labels) → ClosedDuring w labels after) ∧
      (event.lost = true → ∀ first exchange second, labels = first ++ .mine exchange :: second →
        exchange.op.publishes = true →
        ∃ before, Run eventWorld.system w first before ∧ ClosedDuring w first before) ∧
      (experiment = false → QueuedSuccess event (mine labels) →
        ∀ exchange ∈ mine labels, exchange.op.closes = false)) ↔ event.readable = true := by
  constructor
  · rintro ⟨closes, _, _⟩
    by_contra unreadable
    have quiet := (driverEvent_unreadable experiment event (eq_false_iff.mpr unreadable)).runs
      delivers
    have unqueued : ¬ QueuedSuccess event (mine labels) := by
      intro success
      obtain ⟨exchange, member, publishes⟩ := List.any_eq_true.mp success.published
      exact absurd publishes (eq_false_iff.mp (quiet exchange member).2)
    obtain ⟨⟨first, exchange, second, _, _, rfl, closing, _⟩, _⟩ := closes unqueued
    have member : exchange ∈ mine (first ++ .mine exchange :: second) := mem_mine.mpr (by simp)
    exact absurd closing (eq_false_iff.mp (quiet exchange member).1)
  intro readable
  have watched := driverEvent_watched experiment event readable
  have ends : FailsClosed experiment event.lost
      ((mine labels).foldl Progress.after ⟨false, false, false⟩) := watched.ends delivers
  rw [foldl_after] at ends
  obtain ⟨ready, closed, kept⟩ := ends
  refine ⟨?_, ?_, ?_⟩
  · intro unqueued
    refine closedDuring_of_run run (closed ?_)
    cases lost : event.lost with
    | true => exact .inl rfl
    | false =>
      right
      rw [eq_false_iff]
      exact fun published => unqueued ⟨lost, ready published, published⟩
  · rintro lost first exchange second rfl publishes
    obtain ⟨before, _, earlier, _, _⟩ := run.step_at
    have allowed := watched.allowed delivers.reaches
      (by rw [mine_append, mine_mine] : _ = mine first ++ exchange :: mine second)
    have closing := (allowed publishes).2 lost
    change ((mine first).foldl Progress.after ⟨false, false, false⟩).closed = true at closing
    rw [foldl_after] at closing
    exact ⟨before, earlier, closedDuring_of_run earlier closing⟩
  · intro plain success exchange member
    have none := kept plain success.won success.published
    exact eq_false_iff.mpr (List.any_eq_false.mp none exchange member)

/-- A port that is ready with an open route and an empty queue. -/
def readyWorld : EventWorld where
  port := .ready
  nextSequence := 0
  dropped := 0
  slots := fun _ => ⟨.free, 0, ⟨.associate, 0, 0, [], 0, 0⟩, [], []⟩
  connection := ⟨true, false, .pending⟩
  route := openedWorld

theorem answer_fits (w : EventWorld) (o : Op) :
    eventWorld.atom w o (o.answer w).1 (o.answer w).2 := rfl

theorem empty_payloads_fail_closed : let loss := disconnect (some ⟨⟨none, 0⟩, 3⟩)
    let success := connectResult
      (some ⟨⟨none, 0⟩, ⟨none, 0⟩, [2, 0, 0, 0, 0, 1], 0, 2412⟩)
    let lost := (driverEvent false loss).serve Op.answer readyWorld
    let won := (driverEvent false success).serve Op.answer readyWorld
    (loss.readable = true ∧ ClosedDuring readyWorld (alone lost.1) lost.2.2 ∧
        ∃ before, Run eventWorld.system readyWorld (alone (lost.1.take 5)) before ∧
          ClosedDuring readyWorld (alone (lost.1.take 5)) before) ∧
      success.readable = true ∧ QueuedSuccess success won.1 ∧
        ∀ exchange ∈ won.1, exchange.op.closes = false := by
  intro loss success lost won
  have lostRun : Run eventWorld.system readyWorld (alone lost.1) lost.2.2 :=
    serve_alone answer_fits _ _
  have wonRun : Run eventWorld.system readyWorld (alone won.1) won.2.2 := serve_alone answer_fits _ _
  have lostDelivers :
      (driverEvent false loss).Runs (mine (alone lost.1 : List EventLabel)) lost.2.1 := by
    exact serve_runs _ _ _
  have wonDelivers :
      (driverEvent false success).Runs (mine (alone won.1 : List EventLabel)) won.2.1 := by
    exact serve_runs _ _ _
  obtain ⟨closes, closesFirst, _⟩ := (link_events_fail_closed false loss lostRun lostDelivers).mpr rfl
  obtain ⟨_, _, keeps⟩ := (link_events_fail_closed false success wonRun wonDelivers).mpr rfl
  have queued : QueuedSuccess success won.1 := ⟨rfl, rfl, rfl⟩
  refine ⟨⟨rfl, closes nofun, ?_⟩, rfl, queued, keeps rfl queued⟩
  exact closesFirst rfl _ _ _ rfl rfl

/-- A disconnect with more bytes than the callback accepts, on a ready port with an empty queue: the
callback returns and the route is as open as it was. -/
theorem oversized_disconnect_leaves_admission_open :
    let event := disconnect (some ⟨⟨some fun _ => 0, 2305⟩, 3⟩)
    let served := (driverEvent false event).serve Op.answer readyWorld
    event.lost = true ∧ Run eventWorld.system readyWorld (alone served.1) served.2.2 ∧
      (driverEvent false event).Runs served.1 0 ∧
      served.2.2.route.route.generation = some firstGeneration ∧
      ¬ ClosedDuring readyWorld (alone served.1) served.2.2 := by
  intro event served
  refine ⟨rfl, serve_alone answer_fits _ _, serve_runs _ _ _, rfl, ?_⟩
  intro closed
  have moved := closed.revision (by decide)
  exact Nat.lt_irrefl _ moved

end HisiRf.LinkEvents
