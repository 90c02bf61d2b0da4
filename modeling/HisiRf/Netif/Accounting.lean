import HisiRf.Netif.Tickets
import Mathlib.Data.List.Count

/-! Conservation of callback entries, tickets and observed host deliveries.

The two in-flight counters are the numbers of live tickets, in every run and
without any bound. The 64-bit counters balance as long as fewer than `2 ^ 64`
callbacks have entered, and the observed deliveries as long as their record does
not say that a counter was spent.
-/

namespace HisiRf

open Interaction Machine List RouteDiagnostics CallbackRoute Option Registration

/-- The callback counters balance after this many entries. -/
structure RouteDiagnostics.Balanced (d : RouteDiagnostics) (entries : Nat) : Prop where
  entered : d.entered.toNat = entries
  conserved : d.queued.toNat + d.dropped.toNat + d.inFlight = entries
  reasons : d.closedDrops.toNat + d.allocationDrops.toNat + d.abandoned.toNat ≤ d.dropped.toNat

namespace RouteDiagnostics

variable {d : RouteDiagnostics} {entries : Nat}

section

variable (balanced : d.Balanced entries) (room : entries + 1 < 2 ^ 64)
include balanced room

theorem Balanced.dropAllocation : d.countEntered.dropAllocation.Balanced (entries + 1) := by
  obtain ⟨entered, conserved, reasons⟩ := balanced
  have counted : (d.entered + 1).toNat = d.entered.toNat + 1 := toNat_succ (by omega)
  have dropped : (d.dropped + 1).toNat = d.dropped.toNat + 1 := toNat_succ (by omega)
  have reason : (d.allocationDrops + 1).toNat = d.allocationDrops.toNat + 1 :=
    toNat_succ (by omega)
  constructor <;> simp only [countEntered, RouteDiagnostics.dropAllocation] <;> omega

theorem Balanced.dropClosed : d.countEntered.dropClosed.Balanced (entries + 1) := by
  obtain ⟨entered, conserved, reasons⟩ := balanced
  have counted : (d.entered + 1).toNat = d.entered.toNat + 1 := toNat_succ (by omega)
  have dropped : (d.dropped + 1).toNat = d.dropped.toNat + 1 := toNat_succ (by omega)
  have reason : (d.closedDrops + 1).toNat = d.closedDrops.toNat + 1 := toNat_succ (by omega)
  constructor <;> simp only [countEntered, RouteDiagnostics.dropClosed] <;> omega

theorem Balanced.countAdmitted : d.countEntered.countAdmitted.Balanced (entries + 1) := by
  obtain ⟨entered, conserved, reasons⟩ := balanced
  have counted : (d.entered + 1).toNat = d.entered.toNat + 1 := toNat_succ (by omega)
  constructor <;> simp only [countEntered, RouteDiagnostics.countAdmitted] <;> omega

end

theorem Balanced.finish (balanced : d.Balanced entries) (room : entries < 2 ^ 64)
    (live : 0 < d.inFlight) (queued abandoned : Bool) :
    (d.finish queued abandoned).Balanced entries := by
  obtain ⟨entered, conserved, reasons⟩ := balanced
  cases queued with
  | true =>
    have counted : (d.queued + 1).toNat = d.queued.toNat + 1 := toNat_succ (by omega)
    constructor <;> simp only [RouteDiagnostics.finish, if_true] <;> omega
  | false =>
    have dropped : (d.dropped + 1).toNat = d.dropped.toNat + 1 := toNat_succ (by omega)
    have reason : (d.abandoned + if abandoned then 1 else 0).toNat ≤ d.abandoned.toNat + 1 := by
      cases abandoned with
      | true =>
        have counted : (d.abandoned + 1).toNat = d.abandoned.toNat + 1 := toNat_succ (by omega)
        exact Nat.le_of_eq counted
      | false => simp
    constructor <;> simp only [RouteDiagnostics.finish, Bool.false_eq_true, if_false] <;> omega

theorem finish_inFlight (d : RouteDiagnostics) (queued abandoned : Bool) :
    (d.finish queued abandoned).inFlight = d.inFlight - 1 := by
  cases queued <;> rfl

theorem finish_transmitsInFlight (d : RouteDiagnostics) (queued abandoned : Bool) :
    (d.finish queued abandoned).transmitsInFlight = d.transmitsInFlight := by
  cases queued <;> rfl

end RouteDiagnostics

variable {counter : UInt64} {exhausted : Bool}

theorem increment_unspoiled (sound : (increment counter exhausted).2 = false) :
    exhausted = false ∧ (increment counter exhausted).1.toNat = counter.toNat + 1 := by
  unfold increment at sound ⊢
  cases added : checkedAdd counter 1 with
  | none =>
    rw [added] at sound
    cases sound
  | some =>
    rw [added] at sound
    exact ⟨sound, checkedAdd_eq_some added⟩

theorem incrementWhen_unspoiled {condition : Bool}
    (sound : (incrementWhen condition counter exhausted).2 = false) : exhausted = false ∧
      (incrementWhen condition counter exhausted).1.toNat = counter.toNat + condition.toNat := by
  cases condition with
  | true => exact increment_unspoiled sound
  | false => exact ⟨sound, rfl⟩

/-- Unless a counter was spent, every observed delivery is live, returned or abandoned. -/
structure HostDeliveryDiagnostics.Balanced (d : HostDeliveryDiagnostics) (live : Nat) : Prop where
  conserved : d.exhausted = false →
    d.entered.toNat = d.returned.toNat + d.abandoned.toNat + d.inFlight.toNat
  live : d.exhausted = false → d.inFlight.toNat = live

namespace HostDeliveryDiagnostics

variable {d : HostDeliveryDiagnostics} {live : Nat}

theorem enter_unspoiled {closed : Bool} (sound : (d.enter closed).exhausted = false) :
    d.exhausted = false ∧ (d.enter closed).entered.toNat = d.entered.toNat + 1 ∧
      (d.enter closed).inFlight.toNat = d.inFlight.toNat + 1 := by
  obtain ⟨flying, _⟩ := incrementWhen_unspoiled sound
  obtain ⟨counted, inFlight⟩ := increment_unspoiled flying
  obtain ⟨before, entered⟩ := increment_unspoiled counted
  exact ⟨before, entered, inFlight⟩

theorem retire_unspoiled {returned : Option UInt32} {crossed : Bool}
    (sound : (d.retire returned crossed).exhausted = false) : d.exhausted = false ∧
      (d.retire returned crossed).returned.toNat = d.returned.toNat + returned.isSome.toNat ∧
      (d.retire returned crossed).abandoned.toNat = d.abandoned.toNat + returned.isNone.toNat := by
  obtain ⟨lost, _⟩ := incrementWhen_unspoiled sound
  obtain ⟨nonzero, abandoned⟩ := incrementWhen_unspoiled lost
  obtain ⟨done, _⟩ := incrementWhen_unspoiled nonzero
  obtain ⟨before, counted⟩ := incrementWhen_unspoiled done
  exact ⟨before, counted, abandoned⟩

theorem Balanced.enter (balanced : d.Balanced live) (closed : Bool) :
    (d.enter closed).Balanced (live + 1) := by
  constructor
  · intro sound
    obtain ⟨before, entered, inFlight⟩ := enter_unspoiled sound
    have conserved := balanced.conserved before
    have returned : (d.enter closed).returned = d.returned := rfl
    have abandoned : (d.enter closed).abandoned = d.abandoned := rfl
    rw [returned, abandoned]
    omega
  · intro sound
    obtain ⟨before, _, inFlight⟩ := enter_unspoiled sound
    rw [inFlight, balanced.live before]

theorem Balanced.retire (balanced : d.Balanced (live + 1)) (returned : Option UInt32)
    (crossed : Bool) : (d.retire returned crossed).Balanced live := by
  have remaining : (d.retire returned crossed).inFlight.toNat = d.inFlight.toNat - 1 :=
    toNat_saturatingSub d.inFlight 1
  constructor
  · intro sound
    obtain ⟨before, done, lost⟩ := retire_unspoiled sound
    have conserved := balanced.conserved before
    have flying := balanced.live before
    have entered : (d.retire returned crossed).entered = d.entered := rfl
    rw [entered]
    cases returned with
    | none =>
      simp only [isSome_none, isNone_none, Bool.toNat_false, Bool.toNat_true]
        at done lost
      omega
    | some =>
      simp only [isSome_some, isNone_some, Bool.toNat_false, Bool.toNat_true]
        at done lost
      omega
  · intro sound
    obtain ⟨before, _, _⟩ := retire_unspoiled sound
    rw [remaining, balanced.live before]
    rfl

end HostDeliveryDiagnostics

theorem length_pos_of_live {A : Type} {held before after : List A} {ticket : A}
    (live : held = before ++ ticket :: after) : 0 < held.length := by
  rw [live, length_append, length_cons]
  omega

/-- What the record says about the world around it. -/
structure Consistent (w : RouteWorld) : Prop where
  receives : w.route.diagnostics.inFlight = w.receives.length
  transmits : w.route.diagnostics.transmitsInFlight = w.transmits.length
  deliveries : w.route.hostDeliveries.Balanced w.deliveries.length
  registered : w.registered = w.route.ingress.isSome
  opened : w.route.generation.isSome = true →
    w.route.ingress.isSome = true ∧ w.route.closeRevision.isSome = true

variable {w next : RouteWorld} {label : RouteLabel}

theorem consistent_new : Consistent .new :=
  ⟨rfl, rfl, ⟨fun _ => rfl, fun _ => rfl⟩, rfl, nofun⟩

variable {labels : List RouteLabel}

namespace Consistent

section

variable (held : Consistent w)
include held

theorem claimed (ingress : L2Ingress) : Consistent (w.claimed ingress) := by
  unfold RouteWorld.claimed
  rcases claim_cases w.route ingress with ⟨error, refused⟩ | ⟨free, _, _, _, granted⟩
  · rw [refused]
    exact { held with registered := (Bool.or_false _).trans held.registered }
  · rw [granted]
    exact { held with registered := Bool.or_true _, opened := nofun }

theorem entered (allocation : Option AllocationEpoch) : Consistent (w.entered allocation) := by
  unfold RouteWorld.entered
  rcases enterWithAllocation_cases w.route allocation with
    ⟨_, foreign⟩ | ⟨ingress, generation, _, _, _, granted⟩ | closed
  · rw [foreign]
    exact { held with receives := held.receives.trans (by simp) }
  · rw [granted]
    refine { held with receives := ?_ }
    have counted := held.receives
    simp only [countEntered, countAdmitted, map_some,
      toList_some, length_append, length_singleton]
    omega
  · rw [closed]
    exact { held with receives := held.receives.trans (by simp) }

theorem enteredTransmit (generation : Generation) : Consistent (w.enteredTransmit generation) := by
  unfold RouteWorld.enteredTransmit
  rcases enterTransmit_cases w.route generation with refused | ⟨_, granted⟩
  · rw [refused]
    exact { held with }
  · rw [granted]
    refine { held with transmits := ?_ }
    have counted := held.transmits
    simp only [if_true, length_append, length_singleton]
    omega

theorem committed (owned : w.registered = true) (intent : OpenIntent) (generation : Generation)
    (intents : List OpenIntent) : Consistent (w.committed intent generation intents) := by
  unfold RouteWorld.committed
  rcases commitOpen_cases w.route intent generation with
    ⟨error, refused⟩ | ⟨permits, went⟩
  · rw [refused]
    exact { held with }
  · rw [went]
    refine { held with opened := fun _ => ⟨held.registered.symm.trans owned, ?_⟩ }
    exact isSome_iff_exists.mpr ⟨_, permits.revision⟩

/-- Retiring a receive ticket takes it out of the count that it is part of. -/
theorem finished {before after : List LiveReceive} {receive : LiveReceive}
    (live : w.receives = before ++ receive :: after) (queued abandoned : Bool) : Consistent { w with
      route := CallbackTicket.finish w.route queued abandoned
      receives := before ++ after } := by
  refine { held with receives := ?_, transmits := ?_ }
  · have counted := held.receives
    rw [live, length_append, length_cons] at counted
    simp only [CallbackTicket.finish, finish_inFlight, length_append]
    omega
  · exact (finish_transmitsInFlight _ _ _).trans held.transmits

theorem closedBy {route : RouteState}
    (diagnostics : route.diagnostics = w.route.diagnostics)
    (hostDeliveries : route.hostDeliveries = w.route.hostDeliveries)
    (ingress : route.ingress = w.route.ingress) (closed : route.generation = none) :
    Consistent { w with route := route } where
  receives := diagnostics ▸ held.receives
  transmits := diagnostics ▸ held.transmits
  deliveries := hostDeliveries ▸ held.deliveries
  registered := ingress ▸ held.registered
  opened := by
    intro opened
    rw [closed] at opened
    cases opened

theorem initial (event : InitialEvent) :
    Consistent { w with route := initialEvent w.route event } := by
  cases event with
  | result => exact held.closedBy rfl rfl rfl rfl
  | _ => exact { held with }

theorem step (step : RouteStep w label next) : Consistent next := by
  cases step with
  | claim ingress => exact held.claimed ingress
  | enter allocation => exact held.entered allocation
  | check live | publish _ live =>
    exact { held with receives := held.receives.trans (by simp [live]) }
  | finish live | abandon live => exact held.finished live _ _
  | enterTransmit generation => exact held.enteredTransmit generation
  | dropTransmit live =>
    refine { held with transmits := ?_ }
    have counted := held.transmits
    rw [live, length_append, length_cons] at counted
    simp only [TransmitTicket.drop, length_append]
    omega
  | closeAdmission => exact held.closedBy rfl rfl rfl rfl
  | initial event => exact held.initial event
  | dropRegistration => exact { held with registered := rfl, opened := nofun }
  | stamp | closeRevision => exact held
  | commitOpen generation owned => exact held.committed owned _ _ _
  | enterDelivery =>
    refine { held with deliveries := ?_ }
    simp only [RouteWorld.delivering, length_append, length_singleton]
    exact held.deliveries.enter _
  | dropDelivery returned live =>
    refine { held with deliveries := ?_ }
    have counted := held.deliveries
    rw [live, length_append, length_cons, ← Nat.add_assoc, ← length_append] at counted
    exact counted.retire _ _
  | _ => exact { held with }

end

theorem of_run (run : Run routeSystem .new labels w) : Consistent w :=
  run.invariant (fun _ _ _ held step => held.step step) consistent_new

end Consistent

def entries (labels : List RouteLabel) : Nat := labels.countP RouteLabel.enters

theorem entries_snoc (labels : List RouteLabel) (label : RouteLabel) :
    entries (labels ++ [label]) = entries labels + label.enters.toNat := by
  unfold entries
  rw [countP_append, countP_singleton]
  cases label.enters <;> rfl

variable {count : Nat}

theorem balanced_entered (balanced : w.route.diagnostics.Balanced count)
    (room : count + 1 < 2 ^ 64) (allocation : Option AllocationEpoch) :
    (w.entered allocation).route.diagnostics.Balanced (count + 1) := by
  unfold RouteWorld.entered
  rcases enterWithAllocation_cases w.route allocation with
    ⟨_, foreign⟩ | ⟨ingress, generation, _, _, _, granted⟩ | closed
  · rw [foreign]
    exact balanced.dropAllocation room
  · rw [granted]
    exact balanced.countAdmitted room
  · rw [closed]
    exact balanced.dropClosed room

/-- One step keeps the callback counters balanced while there is room for its entry. -/
theorem balanced_step (held : Consistent w) (balanced : w.route.diagnostics.Balanced count)
    (step : RouteStep w label next) (room : count + label.enters.toNat < 2 ^ 64) :
    next.route.diagnostics.Balanced (count + label.enters.toNat) := by
  have retire {before after : List LiveReceive} {receive : LiveReceive}
      (live : w.receives = before ++ receive :: after) (fits : count < 2 ^ 64)
      (queued abandoned : Bool) :
      (w.route.diagnostics.finish queued abandoned).Balanced count := by
    apply balanced.finish fits
    rw [held.receives]
    exact length_pos_of_live live
  cases step with
  | claim ingress =>
    obtain ⟨_, _, same⟩ := claim_frame w.route ingress
    simp only [RouteWorld.claimed, same]
    exact balanced
  | enter allocation => exact balanced_entered balanced room allocation
  | finish live => exact retire live room _ _
  | abandon live => exact retire live room false true
  | enterTransmit generation =>
    unfold RouteWorld.enteredTransmit
    rcases enterTransmit_cases w.route generation with refused | ⟨_, granted⟩
    · rw [refused]; exact balanced
    · rw [granted]; exact { balanced with }
  | dropTransmit => exact { balanced with }
  | initial event => cases event <;> exact balanced
  | @commitOpen _ _ intent generation =>
    obtain ⟨_, _, same⟩ := commitOpen_frame w.route intent generation
    simp only [RouteWorld.committed, same]
    exact balanced
  | stamp | check | publish | closeAdmission | dropRegistration | closeRevision | subscribeClose
  | prepareOpen | bindInitial | dropIntent | enterDelivery | dropDelivery => exact balanced

theorem balanced_of_run (run : Run routeSystem .new labels w) (room : entries labels < 2 ^ 64) :
    w.route.diagnostics.Balanced (entries labels) := by
  induction run with
  | start => exact ⟨rfl, rfl, Nat.le_refl 0⟩
  | next run step ih =>
    rw [entries_snoc] at room ⊢
    exact balanced_step (Consistent.of_run run) (ih (by omega)) step room

/-- Every run of one callback route accounts for all of its tickets: callback entries while fewer
than `2 ^ 64` callbacks entered, observed deliveries while no counter of theirs is spent. No
in-flight counter is ever decremented at zero. -/
theorem route_accounts_for_tickets {labels : List RouteLabel} {w : RouteWorld}
    (run : Run routeSystem .new labels w) : (entries labels < 2 ^ 64 →
      w.route.diagnostics.entered.toNat = w.route.diagnostics.queued.toNat +
          w.route.diagnostics.dropped.toNat + w.route.diagnostics.inFlight ∧
        w.route.diagnostics.closedDrops.toNat + w.route.diagnostics.allocationDrops.toNat +
          w.route.diagnostics.abandoned.toNat ≤ w.route.diagnostics.dropped.toNat) ∧
      w.route.diagnostics.inFlight = w.receives.length ∧
      w.route.diagnostics.transmitsInFlight = w.transmits.length ∧
      (∀ label next, routeSystem.step w label next →
        (label.retiresReceive = true → 0 < w.route.diagnostics.inFlight) ∧
          (label.retiresTransmit = true → 0 < w.route.diagnostics.transmitsInFlight)) ∧
      (w.route.hostDeliveries.exhausted = false →
        w.route.hostDeliveries.entered.toNat = w.route.hostDeliveries.returned.toNat +
          w.route.hostDeliveries.abandoned.toNat + w.route.hostDeliveries.inFlight.toNat) ∧
      (w.route.generation.isSome = true →
        w.route.ingress.isSome = true ∧ w.route.closeRevision.isSome = true) := by
  have held := Consistent.of_run run
  refine ⟨?_, held.receives, held.transmits, ?_, held.deliveries.conserved, held.opened⟩
  · intro room
    obtain ⟨entered, conserved, reasons⟩ := balanced_of_run run room
    exact ⟨entered.trans conserved.symm, reasons⟩
  intro label next step
  rw [held.receives, held.transmits]
  constructor
  · intro retires
    cases step with
    | finish live _ | abandon live _ => exact length_pos_of_live live
    | _ => cases retires
  · intro retires
    cases step with
    | dropTransmit live => exact length_pos_of_live live
    | _ => cases retires

/-- An open route with one ticket of each kind that was closed and then entered once more. -/
theorem closed_route_accounts_for_tickets :
    ∃ labels w, Run routeSystem .new labels w ∧ entries labels = 2 ∧
      w.receives.length = 1 ∧ w.transmits.length = 1 ∧ w.deliveries.length = 1 ∧
      w.route.diagnostics.entered.toNat = w.route.diagnostics.queued.toNat +
        w.route.diagnostics.dropped.toNat + w.route.diagnostics.inFlight := by
  have enter := openedWorld_reached.next (RouteStep.enter none)
  have transmit := enter.next (RouteStep.enterTransmit firstGeneration rfl)
  have close := (transmit.next RouteStep.enterDelivery).next RouteStep.closeAdmission
  have run := close.next (RouteStep.enter none)
  have account := route_accounts_for_tickets run
  exact ⟨_, _, run, by decide, by decide, by decide, by decide, (account.1 (by decide)).1⟩

end HisiRf
