import HisiRf.Netif.Opening

/-! Submissions to the native driver and the openings that they hold off.

The submit closure of `poll_transmit` runs outside every critical section and for
any length of time. A transmit ticket covers it from before its start until after
its end. The ticket is granted only while the generation of the packet is open; a
native close may end that generation under the running closure, and the ticket
then keeps every new epoch from being opened.
-/

namespace HisiRf

open Interaction LinkWorld Registration RouteStep

variable {Port E : Type} {core : L2Core Port}

variable {w next : RouteWorld} {label : RouteLabel}

theorem RouteLabel.opens_of_foreign (foreign : label.foreign = true) : label.opens = false := by
  cases label with
  | commitOpen => cases foreign
  | _ => rfl

theorem foreign_transmits (foreign : label.foreign = true) (step : RouteStep w label next) :
    next.transmits = w.transmits := by
  cases step with
  | enterTransmit _ _ | dropTransmit _ => cases foreign
  | _ => rfl

theorem enterTransmit_inv {generation : Generation}
    (step : RouteStep w (.enterTransmit generation true) next) :
    w.route.generation = some generation ∧ ⟨generation, w.epoch⟩ ∈ next.transmits := by
  generalize named : RouteLabel.enterTransmit generation true = label at step
  cases step with
  | enterTransmit =>
    obtain ⟨rfl, succeeded⟩ := RouteLabel.enterTransmit.inj named
    rcases enterTransmit_cases w.route generation with refused | ⟨opened, granted⟩
    · rw [refused] at succeeded
      cases succeeded
    · refine ⟨opened, ?_⟩
      simp [RouteWorld.enteredTransmit, granted]
  | _ => cases named

/-- While any ticket is live no opening can be prepared or committed. -/
theorem no_opening_while_transmitting (held : Consistent w) {transmit : LiveTransmit}
    (live : transmit ∈ w.transmits) : (∀ intent, prepareOpen w.route ≠ .ok intent) ∧
      ∀ intent generation, (commitOpen w.route intent generation).1 ≠ .ok () := by
  have busy : w.route.busy ≠ false := by
    intro drained
    have idle := ((w.route.busy_eq_false_iff).mp drained).2.1
    rw [held.transmits, List.length_eq_zero_iff] at idle
    rw [idle] at live
    cases live
  refine ⟨?_, ?_⟩
  · intro intent prepared
    exact busy (prepareOpen_ok w.route prepared).2.2.2.2
  · intro intent generation committed
    rcases commitOpen_cases w.route intent generation with
      ⟨_, refused⟩ | ⟨permits, _⟩
    · rw [refused] at committed
      cases committed
    · exact busy permits.drained

/-- A transmit ticket of this generation is held, and no epoch was opened since it was granted. -/
def LinkWorld.Granted (generation : Generation) (w : LinkWorld Port) : Prop :=
  ∃ transmit ∈ w.world.transmits, transmit.generation = generation ∧
    w.world.OfEpoch transmit.epoch generation

/-- Every running submission is covered by a ticket of its packet's generation. -/
def LinkWorld.Covered (w : LinkWorld Port) : Prop :=
  ∀ packet, w.submitting = some packet → w.Granted packet.generation

def LinkWorld.Idle (w : LinkWorld Port) : Prop := w.submitting = none

variable {w : LinkWorld Port}

theorem LinkWorld.Idle.covered (idle : w.Idle) : w.Covered := by
  intro packet running
  rw [idle] at running
  cases running

theorem stable_idle : Stable (linkWorld (E := E) core) Idle := by
  intro w after act idle taken
  cases taken with
  | native | device => exact idle

theorem stable_granted (generation : Generation) :
    Stable (linkWorld (E := E) core) (Granted generation) := by
  rintro w after act ⟨transmit, live, own, current⟩ taken
  cases taken with
  | native foreign step =>
    refine ⟨transmit, ?_, own, current.step step (RouteLabel.opens_of_foreign foreign)⟩
    rw [foreign_transmits foreign step]
    exact live
  | device => exact ⟨transmit, live, own, current⟩

/-- Both conditions together; a submission is started under them and ends under them. -/
theorem stable_running (packet : Packet) : Stable (linkWorld (E := E) core) fun w =>
      w.Granted packet.generation ∧ w.submitting = some packet := by
  rintro w after act ⟨granted, running⟩ taken
  refine ⟨stable_granted (E := E) packet.generation granted taken, ?_⟩
  cases taken with
  | native | device => exact running

theorem stable_granted_idle (generation : Generation) :
    Stable (linkWorld (E := E) core) fun w => w.Granted generation ∧ w.Idle := by
  rintro w after act ⟨granted, idle⟩ taken
  exact ⟨stable_granted (E := E) generation granted taken, stable_idle (E := E) idle taken⟩

def LinkAtom.submitsNothing : LinkAtom Port → Prop
  | .startSubmit _ => False
  | _ => True

theorem idle_atom (o : LinkAtom Port) (before : LinkWorld Port) (reply : o.Reply E)
    (after : LinkWorld Port) (nothing : o.submitsNothing) (idle : before.Idle)
    (action : o.acts core before reply after) : after.Idle := by
  rcases LinkAtom.acts_cases action with ⟨_, ⟨next, _, rfl⟩, _⟩ | ⟨_, _, kept, _⟩
  · exact idle
  · refine kept (fun packet starts => ?_) idle
    cases starts
    cases nothing

theorem LinkAtom.submitsNothing_of_lifecycle (o : LinkAtom Port) (lifecycle : o.lifecycle) :
    o.submitsNothing := by
  cases o <;> first | exact trivial | exact lifecycle

theorem withstands_idle {A : Type} {p : LinkProgram Port E A} (idle : w.Idle)
    (requests : p.Only LinkAtom.submitsNothing) :
    p.Withstands (linkWorld core) Covered (fun _ after => after.Idle) w :=
  withstands_only stable_idle idle (fun _ idle => idle.covered) idle_atom requests

/-- The closure starts under the ticket and ends before the ticket is dropped. -/
theorem submitUnderTicket_covered (packet : Packet) (granted : w.Granted packet.generation)
    (idle : w.Idle) :
    (NativeLink.submitUnderTicket (E := E) packet).Withstands (linkWorld core) Covered
      (fun _ after => after.Idle) w := by
  apply withstands_atom (stable_granted_idle packet.generation) ⟨granted, idle⟩
    fun _ held => held.2.covered
  rintro before _ after ⟨granted, _⟩ rfl
  have running : Granted packet.generation { before with submitting := some packet } :=
    granted
  refine withstands_atom (stable_running packet) ⟨running, rfl⟩ ?_ ?_
  · rintro w ⟨granted, running⟩ other same
    cases running.symm.trans same
    exact granted
  · rintro before result after - rfl
    have ended : Idle { before with submitting := none } := rfl
    apply withstands_idle ended
    rcases result with _ | _ | _ <;> exact ⟨trivial, fun _ => ⟨trivial, fun _ => trivial⟩⟩

theorem pollTransmit_covered (waker : Waker) (idle : w.Idle) :
    (NativeLink.pollTransmit (E := E) waker).Withstands (linkWorld core) Covered
      (fun _ after => after.Idle) w := by
  have safe (w : LinkWorld Port) (idle : w.Idle) : w.Covered := idle.covered
  apply withstands_atom stable_idle idle safe
  intro before polled after idle action
  have idle := idle_atom (.transmit waker) before polled after trivial idle action
  cases polled with
  | none => exact withstands_idle idle trivial
  | some packet =>
    apply withstands_atom stable_idle idle safe
    intro before current after idle action
    have idle := idle_atom (.isCurrent packet) before current after trivial idle action
    cases current with
    | false => exact withstands_idle idle ⟨trivial, fun _ => trivial⟩
    | true =>
      apply withstands_atom stable_idle idle safe
      intro before granted after idle action
      have idle := idle_atom (.enterTransmit packet.generation) before granted after trivial
        idle action
      cases granted with
      | false => exact withstands_idle idle ⟨trivial, fun _ => trivial⟩
      | true =>
        obtain ⟨next, step, rfl⟩ := action
        obtain ⟨opened, live⟩ := enterTransmit_inv step
        have own : before.world.OfEpoch before.world.epoch packet.generation :=
          ⟨rfl, .inl opened⟩
        exact submitUnderTicket_covered packet ⟨_, live, rfl, own.step step rfl⟩ idle

/-- Inside every call and between calls, a running submission is covered. -/
theorem linkProgram_covered (call : LinkCall Port) (w : LinkWorld Port) (idle : w.Idle) :
    (linkProgram (E := E) core call).Withstands (linkWorld core) Covered
      (fun _ after => after.Idle) w := by
  have lifecycle {A : Type} {p : LinkProgram Port E A} (requests : p.Only LinkAtom.lifecycle) :
      p.Withstands (linkWorld core) Covered (fun _ after => after.Idle) w :=
    withstands_idle idle (requests.mono LinkAtom.submitsNothing_of_lifecycle)
  have session {A : Type} {p : LinkProgram Port E A} (requests : p.Only LinkAtom.session) :
      p.Withstands (linkWorld core) Covered (fun _ after => after.Idle) w :=
    lifecycle (requests.mono LinkAtom.lifecycle_of_session)
  cases call with
  | bind port => exact lifecycle (bind_lifecycle port)
  | beginAfterNativeQuiescence => exact session beginAfterNativeQuiescence_session
  | beginInitialSessionExperiment id => exact session (beginInitialSessionExperiment_session id)
  | pollNativeClose waker => exact session (pollNativeClose_session waker)
  | close => exact session (close_session E)
  | pollTransmit waker => exact pollTransmit_covered waker idle
  | drop => exact lifecycle (drop_lifecycle E)

/-! The shortest history into a running submission, on the port that numbers its sessions. -/

def firstFrame : Packet := ⟨firstGeneration, [0]⟩

def submitActions : List (Exchange (linkAtoms NumberedPort Unit)) :=
  [⟨.transmit ⟨0⟩, some firstFrame⟩, ⟨.isCurrent firstFrame, true⟩,
    ⟨.enterTransmit firstGeneration, true⟩, ⟨.startSubmit firstFrame, ()⟩]

def submittingLink : LinkWorld NumberedPort :=
  { openedLink with
    world := openedWorld.enteredTransmit firstGeneration
    submitting := some firstFrame }

theorem submittingLink_reached :
    Run (linkWorld (E := Unit) numberedCore).system openedLink (alone submitActions)
      submittingLink := by
  have transmit := Run.start.next (numbered_step (w := openedLink) (.transmit ⟨0⟩) (some firstFrame)
    ⟨_, rfl, rfl, rfl⟩)
  have current := transmit.next (numbered_step (.isCurrent firstFrame) true ⟨_, rfl, rfl, rfl⟩)
  have enter := current.next (numbered_step (.enterTransmit firstGeneration) true
    ⟨_, enterTransmit firstGeneration rfl, rfl⟩)
  exact enter.next (numbered_step (.startSubmit firstFrame) () rfl)

/-- The link submits its first frame, and the others take any steps while the closure runs. -/
theorem submittingLink_underway {labels : List (LinkLabel NumberedPort Unit)}
    {after : LinkWorld NumberedPort}
    (later : Run (linkWorld numberedCore).system submittingLink labels after)
    (silent : mine labels = []) : LinkUnderway numberedCore .new
      ((alone bindActions ++ (alone openActions ++ [])) ++ (alone submitActions ++ labels)) after := by
  have followed : ∃ rest, (NativeLink.pollTransmit (E := Unit) ⟨0⟩).Follows submitActions rest := by
    apply Exists.intro
    apply follows_atom (o := .transmit ⟨0⟩) (some firstFrame)
    apply follows_atom (o := .isCurrent firstFrame) true
    apply follows_atom (o := .enterTransmit firstGeneration) true
    exact follows_atom (o := .startSubmit firstFrame) () .start
  obtain ⟨rest, followed⟩ := followed
  have own : mine (alone submitActions ++ labels) = submitActions := by
    rw [mine_append, mine_alone, silent, List.append_nil]
  refine ⟨_, _, openedLink, _, .pollTransmit ⟨0⟩, rest, rfl, openedLink_realized .start rfl,
    submittingLink_reached.trans later, ?_⟩
  rw [own]
  exact followed

/-- Every interleaving with an opening: a commit goes through only if nothing is live, the delivery
record is sound, and neither a close nor a delivery came after the preparation. A live receive
ticket therefore belongs to the last epoch; its frame is published only after a check found its own
generation open, with no opening since. A submission runs only under a transmit ticket that was
granted while the generation of its packet was open, and no opening can be prepared or committed
before it ends. -/
theorem opening_excludes_earlier_work (core : L2Core Port) :
    (∀ labels w, Run routeSystem .new labels w →
      (∀ intent generation next, routeSystem.step w (.commitOpen intent generation (.ok ())) next →
        w.receives = [] ∧ w.transmits = [] ∧ w.deliveries = [] ∧
        w.route.hostDeliveries.exhausted = false ∧
        (∃ first prepared between, labels = first ++ .prepareOpen (.ok prepared) :: between ∧
          prepared.SameReadings intent) ∧
        ∀ first prepared between, labels = first ++ .prepareOpen (.ok prepared) :: between →
          prepared.SameReadings intent →
          ∀ label ∈ between, label.closes = false ∧ label.entersDelivery = false) ∧
      w.epoch = labels.countP RouteLabel.opens ∧
      (∀ receive ∈ w.receives, w.OfEpoch receive.epoch receive.ticket.generation) ∧
      (∀ receive result next, routeSystem.step w (.publish receive result) next →
        ∃ first between before, labels = first ++ .check receive.unchecked true :: between ∧
          Run routeSystem .new first before ∧
          before.route.generation = some receive.ticket.generation ∧
          ∀ label ∈ between, label.opens = false) ∧
      (∀ generation next, routeSystem.step w (.enterTransmit generation true) next →
        w.route.generation = some generation)) ∧
      (∀ labels w, LinkUnderway (E := E) core .new labels w →
        ∀ packet, w.submitting = some packet →
        ∃ transmit ∈ w.world.transmits, transmit.generation = packet.generation ∧
          w.world.OfEpoch transmit.epoch packet.generation ∧
          (∀ intent, prepareOpen w.world.route ≠ .ok intent) ∧
          ∀ intent generation,
            (commitOpen w.world.route intent generation).1 ≠ .ok ()) := by
  refine ⟨?_, ?_⟩
  · intro labels w run
    have current := Current.of_run run
    refine ⟨?_, epoch_eq_countP run, current.receives, ?_, fun _ _ step => (enterTransmit_inv step).1⟩
    · intro intent generation next commits
      obtain ⟨permits, held, _⟩ := commitOpen_inv commits
      obtain ⟨noReceive, noTransmit, noDelivery⟩ := opening_drained (Consistent.of_run run) permits
      refine ⟨noReceive, noTransmit, noDelivery, permits.unspoiled, intent_prepared run held, ?_⟩
      rintro first prepared between rfl same
      obtain ⟨before, middle, _, prepares, later⟩ := run.step_at
      exact undisturbed_since_prepared prepares later same permits
    · intro receive result next publishes
      obtain ⟨live, admitted⟩ := publish_inv publishes
      obtain ⟨first, between, before, whole, reached, checked, opened⟩ :=
        admitted_checked run live admitted
      exact ⟨first, between, before, whole, reached, opened,
        no_opening_since_check run live whole reached checked⟩
  · intro labels w underway packet running
    have idle : (new : LinkWorld Port).Idle := rfl
    obtain ⟨transmit, live, own, current⟩ :=
      underway.safe stable_idle linkProgram_covered idle packet running
    obtain ⟨taken, route⟩ := linkRun_route underway.run
    obtain ⟨unprepared, uncommitted⟩ := no_opening_while_transmitting (Consistent.of_run route) live
    exact ⟨transmit, live, own, current, unprepared, uncommitted⟩

/-- Neither kind of admitted work sees its generation open to the end. A native close can come while
the closure runs, and one can come between the check of a received frame and its publication. -/
theorem native_close_overtakes_admitted_work :
    (∃ labels w packet, LinkUnderway (E := Unit) numberedCore .new labels w ∧
      w.submitting = some packet ∧ w.world.route.generation ≠ some packet.generation) ∧
    ∃ labels w receive next, Run routeSystem .new labels w ∧
      w.route.generation ≠ some receive.ticket.generation ∧
      routeSystem.step w (.publish receive (.ok ())) next := by
  refine ⟨?_, ?_⟩
  · have close : (linkWorld (E := Unit) numberedCore).system.step submittingLink
        (.other (.native (.closeAdmission none))) _ :=
      SharedStep.other (.native rfl closeAdmission)
    exact ⟨_, _, firstFrame, submittingLink_underway (Run.start.next close) rfl, rfl, by decide⟩
  have enter := openedWorld_reached.next (enter none)
  have check := enter.next (@RouteStep.check _ [] [] ⟨0, ⟨firstIngress, firstGeneration⟩, 1,
    .entered⟩ rfl rfl)
  have close := check.next closeAdmission
  exact ⟨_, _, _, _, close, by decide,
    @RouteStep.publish _ [] [] ⟨0, ⟨firstIngress, firstGeneration⟩, 1, .admitted⟩ (.ok ()) rfl rfl⟩

/-- The opening of the first session, and a submission that runs in it. -/
theorem first_opening_excludes_earlier_work : (∃ labels w next, Run routeSystem .new labels w ∧
      routeSystem.step w (.commitOpen firstIntent firstGeneration (.ok ())) next ∧
      w.receives = [] ∧ w.transmits = [] ∧ w.deliveries = []) ∧
    ∃ labels w, LinkUnderway (E := Unit) numberedCore .new labels w ∧
      w.submitting = some firstFrame ∧
      ∀ intent, prepareOpen w.world.route ≠ .ok intent := by
  have claims := opening_excludes_earlier_work (E := Unit) numberedCore
  refine ⟨?_, ?_⟩
  · have whole : Run routeSystem .new
        (openedLabels.take 2 ++ [.commitOpen firstIntent firstGeneration (.ok ())]) openedWorld :=
      openedWorld_reached
    obtain ⟨w, run, commits⟩ := whole.last
    obtain ⟨noReceive, noTransmit, noDelivery, _⟩ := (claims.1 _ w run).1 _ _ _ commits
    exact ⟨_, w, _, run, commits, noReceive, noTransmit, noDelivery⟩
  · have underway := submittingLink_underway .start rfl
    obtain ⟨_, _, _, _, unprepared, _⟩ := claims.2 _ _ underway firstFrame rfl
    exact ⟨_, _, underway, rfl, unprepared⟩

end HisiRf
