import HisiRf.Interaction.Clock
import HisiRf.Netif.Accounting

/-! The close revision and the delivery counter as clocks of the route.

Both counters are compared for equality long after they were read. That the
comparison proves anything about the time in between is a fact about whole runs:
neither counter ever goes back, every close moves the one and every observed
delivery the other, and a spent counter never compares equal again.
-/

namespace HisiRf

open Interaction Machine RouteWorld CallbackRoute RouteLabel Registration Option RouteStep UInt64

variable {w next : RouteWorld} {label : RouteLabel}

/-- Apart from a claim and an opening, only the closing events change the generation. -/
theorem step_generation (step : RouteStep w label next) :
    next.route.generation = (if label.closes then none else w.route.generation) ∨
      (∃ ingress, label = .claim ingress (.ok ()) ∧ next.route.generation = none) ∨
      label.opens = true := by
  cases step with
  | claim ingress =>
    rcases claim_cases w.route ingress with ⟨_, refused⟩ | ⟨_, _, _, _, granted⟩
    · left
      simp only [claimed, refused]
      rfl
    · right; left
      exact ⟨ingress, by rw [granted], by simp only [claimed, granted]⟩
  | enter allocation =>
    obtain ⟨_, same⟩ := enterWithAllocation_frame w.route allocation
    left
    simp only [entered, same]
    rfl
  | enterTransmit generation =>
    obtain ⟨_, same⟩ := enterTransmit_frame w.route generation
    left
    simp only [enteredTransmit, same]
    rfl
  | @commitOpen _ _ intent generation =>
    rcases commitOpen_cases w.route intent generation with ⟨_, refused⟩ | ⟨_, went⟩
    · left
      simp only [committed, refused]
      rfl
    · right; right
      rw [went]
      rfl
  | initial event => cases event <;> exact .inl rfl
  | _ => exact .inl rfl

def RouteLabel.plain : RouteLabel → Bool
  | .claim _ (.ok ()) | .commitOpen _ _ (.ok ()) => false
  | _ => true

theorem RouteLabel.plain_of_foreign (foreign : label.foreign = true) : label.plain = true := by
  cases label with
  | claim _ result =>
    cases result with
    | error => rfl
    | ok => cases foreign
  | commitOpen => cases foreign
  | _ => rfl

theorem plain_generation (step : RouteStep w label next) (plain : label.plain = true) :
    next.route.generation = if label.closes then none else w.route.generation := by
  rcases step_generation step with same | ⟨ingress, rfl, _⟩ | opens
  · exact same
  · cases plain
  · cases label with
    | commitOpen _ _ result =>
      cases result with
      | error => cases opens
      | ok => cases plain
    | _ => cases opens

theorem commitOpen_inv {intent : OpenIntent} {generation : Generation}
    (step : RouteStep w (.commitOpen intent generation (.ok ())) next) :
    Permits w.route intent ∧ intent ∈ w.intents ∧ ∃ intents, next = { w with
        route := opened w.route intent generation
        intents := intents
        epoch := w.epoch + 1 } := by
  generalize named : commitOpen intent generation (.ok ()) = label at step
  cases step with
  | @commitOpen before after _ generation' _ held =>
    obtain ⟨rfl, rfl, succeeded⟩ := commitOpen.inj named
    rcases commitOpen_cases w.route intent generation with
      ⟨_, refused⟩ | ⟨permits, went⟩
    · rw [refused] at succeeded
      cases succeeded
    · refine ⟨permits, held ▸ List.mem_append_cons_self, before ++ after, ?_⟩
      simp only [committed, went]
      rfl
  | _ => cases named

theorem opens_inv (opens : label.opens = true) :
    ∃ intent generation, label = .commitOpen intent generation (.ok ()) := by
  cases label with
  | commitOpen intent generation result =>
    cases result with
    | error => cases opens
    | ok => exact ⟨intent, generation, rfl⟩
  | _ => cases opens

/-- Only the closing events change the revision, and each of them increments it. -/
theorem step_closeRevision (step : RouteStep w label next) : next.route.closeRevision =
      if label.closes then w.route.closeRevision.bind (checkedAdd · 1)
      else w.route.closeRevision := by
  cases step with
  | claim ingress =>
    obtain ⟨_, _, same⟩ := claim_frame w.route ingress
    simp [claimed, same, closes]
  | enter allocation =>
    obtain ⟨_, same⟩ := enterWithAllocation_frame w.route allocation
    simp [entered, same, closes]
  | enterTransmit generation =>
    obtain ⟨_, same⟩ := enterTransmit_frame w.route generation
    simp [enteredTransmit, same, closes]
  | @commitOpen _ _ intent generation =>
    obtain ⟨_, _, same⟩ := commitOpen_frame w.route intent generation
    simp [committed, same, closes]
  | initial event => cases event <;> rfl
  | _ => rfl

/-- The revision as a number; a spent revision reads one more than the last value. -/
def RouteWorld.revision (w : RouteWorld) : Nat :=
  w.route.closeRevision.elim (2 ^ 64) UInt64.toNat

theorem revision_lt {r : UInt64} (present : w.route.closeRevision = some r) :
    w.revision < 2 ^ 64 := by
  rw [revision, present]
  exact r.toNat_lt

theorem closeRevision_eq_of_revision (same : next.revision = w.revision) :
    next.route.closeRevision = w.route.closeRevision := by
  unfold revision at same
  cases first : w.route.closeRevision with
  | none =>
    cases second : next.route.closeRevision with
    | none => rfl
    | some r =>
      rw [first, second] at same
      have bound := r.toNat_lt
      simp only [elim_none, elim_some] at same
      omega
  | some q =>
    cases second : next.route.closeRevision with
    | none =>
      rw [first, second] at same
      have bound := q.toNat_lt
      simp only [elim_none, elim_some] at same
      omega
    | some =>
      rw [first, second] at same
      exact congrArg some (UInt64.toNat_inj.mp same)

theorem elim_checkedAdd (revision : Option UInt64) :
    (revision.bind (checkedAdd · 1)).elim (2 ^ 64) toNat =
      min (revision.elim (2 ^ 64) toNat + 1) (2 ^ 64) := by
  cases revision with
  | none => rfl
  | some r =>
    cases added : checkedAdd r 1 with
    | none =>
      have spent := checkedAdd_eq_none added
      simp only [bind_some, added, elim_none, elim_some]
      rw [toNat_one] at spent
      omega
    | some next =>
      have counted := checkedAdd_eq_some added
      have fits := next.toNat_lt
      simp only [bind_some, added, elim_some]
      rw [toNat_one] at counted
      omega

theorem step_revision (step : RouteStep w label next) :
    next.revision = if label.closes then min (w.revision + 1) (2 ^ 64) else w.revision := by
  unfold revision
  rw [step_closeRevision step]
  cases label.closes with
  | true => exact elim_checkedAdd _
  | false => rfl

theorem revision_le (w : RouteWorld) : w.revision ≤ 2 ^ 64 := by
  unfold revision
  cases w.route.closeRevision with
  | none => exact Nat.le_refl _
  | some r => exact Nat.le_of_lt r.toNat_lt

def closeClock : Clock routeSystem where
  reading := revision
  limit := 2 ^ 64
  advances := closes
  forward := by
    intro w next label step
    have bound := revision_le w
    rw [step_revision step]
    split <;> omega
  moves := by
    intro w next label step closes below
    rw [step_revision step, closes, if_pos rfl]
    omega

/-- The number of observed deliveries; a spoiled record reads more than any counter. -/
def HostDeliveryDiagnostics.reading (d : HostDeliveryDiagnostics) : Nat :=
  if d.exhausted then 2 ^ 64 else d.entered.toNat

theorem HostDeliveryDiagnostics.reading_of_unspoiled {d : HostDeliveryDiagnostics}
    (sound : d.exhausted = false) : d.reading = d.entered.toNat := by
  rw [reading, sound]
  rfl

section

variable (d : HostDeliveryDiagnostics)
include d

theorem HostDeliveryDiagnostics.reading_le : d.reading ≤ 2 ^ 64 := by
  unfold reading
  have bound := d.entered.toNat_lt
  split <;> omega

theorem HostDeliveryDiagnostics.reading_enter (closed : Bool) :
    (d.enter closed).reading = 2 ^ 64 ∨ (d.enter closed).reading = d.reading + 1 := by
  cases sound : (d.enter closed).exhausted with
  | true => exact .inl (if_pos sound)
  | false =>
    obtain ⟨before, counted, _⟩ := enter_unspoiled sound
    rw [reading_of_unspoiled sound, reading_of_unspoiled before]
    exact .inr counted

theorem HostDeliveryDiagnostics.reading_retire (returned : Option UInt32) (crossed : Bool) :
    d.reading ≤ (d.retire returned crossed).reading := by
  cases sound : (d.retire returned crossed).exhausted with
  | true =>
    have spent : (d.retire returned crossed).reading = 2 ^ 64 := if_pos sound
    rw [spent]
    exact d.reading_le
  | false =>
    obtain ⟨before, _, _⟩ := retire_unspoiled sound
    rw [reading_of_unspoiled sound, reading_of_unspoiled before]
    exact Nat.le_refl _

end

theorem step_hostDeliveries (step : RouteStep w label next) :
    (label.entersDelivery = false ∧ next.route.hostDeliveries = w.route.hostDeliveries) ∨
      (label.entersDelivery = true ∧
        next.route.hostDeliveries = w.route.hostDeliveries.enter w.route.generation.isNone) ∨
      (label.entersDelivery = false ∧ ∃ returned crossed,
        next.route.hostDeliveries = w.route.hostDeliveries.retire returned crossed) := by
  cases step with
  | claim ingress =>
    obtain ⟨_, _, same⟩ := claim_frame w.route ingress
    exact .inl ⟨rfl, by simp only [claimed, same]⟩
  | enter allocation =>
    obtain ⟨_, same⟩ := enterWithAllocation_frame w.route allocation
    exact .inl ⟨rfl, by simp only [entered, same]⟩
  | enterTransmit generation =>
    obtain ⟨_, same⟩ := enterTransmit_frame w.route generation
    exact .inl ⟨rfl, by simp only [enteredTransmit, same]⟩
  | @commitOpen _ _ intent generation =>
    obtain ⟨_, _, same⟩ := commitOpen_frame w.route intent generation
    exact .inl ⟨rfl, by simp only [committed, same]⟩
  | initial event => cases event <;> exact .inl ⟨rfl, rfl⟩
  | enterDelivery => exact .inr (.inl ⟨rfl, rfl⟩)
  | dropDelivery returned => exact .inr (.inr ⟨rfl, returned, _, rfl⟩)
  | _ => exact .inl ⟨rfl, rfl⟩

def deliveryClock : Clock routeSystem where
  reading := fun w => w.route.hostDeliveries.reading
  limit := 2 ^ 64
  advances := entersDelivery
  forward := by
    intro w next label step
    have bound := w.route.hostDeliveries.reading_le
    rcases step_hostDeliveries step with ⟨_, same⟩ | ⟨_, entered⟩ | ⟨_, returned, crossed, retired⟩
    · exact Nat.le_of_eq (congrArg HostDeliveryDiagnostics.reading same.symm)
    · rw [entered]
      rcases w.route.hostDeliveries.reading_enter w.route.generation.isNone with spent | counted <;>
        omega
    · rw [retired]
      exact w.route.hostDeliveries.reading_retire returned crossed
  moves := by
    intro w next label step enters below
    rcases step_hostDeliveries step with ⟨quiet, _⟩ | ⟨_, entered⟩ | ⟨quiet, _⟩
    · rw [quiet] at enters; cases enters
    · rw [entered]
      rcases w.route.hostDeliveries.reading_enter w.route.generation.isNone with spent | counted <;>
        omega
    · rw [quiet] at enters; cases enters

/-- A claim, a preparation or an opening that went through. -/
def RouteLabel.grants : RouteLabel → Bool
  | .claim _ (.ok ()) | .prepareOpen (.ok _) | .commitOpen _ _ (.ok ()) => true
  | _ => false

/-- A granted entry with a stamp proves that the revision is still the stamped one. -/
theorem granted_closeRevision {epoch : AllocationEpoch} {ticket : CallbackTicket}
    (step : RouteStep w (.enter (some epoch) (some ticket)) next) :
    ∃ revision, epoch.revision = some revision ∧ w.route.closeRevision = some revision := by
  generalize named : enter (some epoch) (some ticket) = label at step
  cases step with
  | enter =>
    obtain ⟨rfl, granted⟩ := enter.inj named
    rcases enterWithAllocation_cases w.route (some epoch) with
      ⟨_, refused⟩ | ⟨_, _, _, _, own, _⟩ | refused
    · rw [refused] at granted
      cases granted
    · cases stamped : epoch.revision with
      | none => simp [foreignStamp, stamped] at own
      | some revision =>
        simp only [any_some, foreignStamp, stamped, isNone_some,
          Bool.false_or, bne_eq_false_iff_eq] at own
        exact ⟨revision, rfl, own.symm⟩
    · rw [refused] at granted
      cases granted
  | _ => cases named

/-- Without a revision there is no way to claim or to open the route. -/
theorem grants_of_exhausted (exhausted : w.route.closeRevision = none)
    (step : RouteStep w label next) : label.grants = false := by
  cases step with
  | claim ingress =>
    rcases claim_cases w.route ingress with ⟨_, refused⟩ | ⟨_, _, _, present, _⟩
    · rw [refused]; rfl
    · rw [exhausted] at present
      cases present
  | prepareOpen =>
    cases prepared : prepareOpen w.route with
    | error => rfl
    | ok =>
      have present := (prepareOpen_ok w.route prepared).1
      rw [exhausted] at present
      cases present
  | @commitOpen _ _ intent generation =>
    rcases commitOpen_cases w.route intent generation with
      ⟨_, refused⟩ | ⟨permits, _⟩
    · rw [refused]; rfl
    · have present := permits.revision
      rw [exhausted] at present
      cases present
  | _ => rfl

theorem closeRevision_none_of_run {labels : List RouteLabel}
    (exhausted : w.route.closeRevision = none) (run : Run routeSystem w labels next) :
    next.route.closeRevision = none := by
  have keeps (before : RouteWorld) (label : RouteLabel) (after : RouteWorld)
      (spent : before.route.closeRevision = none) (step : routeSystem.step before label after) :
      after.route.closeRevision = none := by
    rw [step_closeRevision step, spent]
    cases label.closes <;> rfl
  exact run.invariant keeps exhausted

/-- From every state of the route, over any number of closes, openings and registrations: a stamped
buffer gets a ticket only if the route was open at the stamp and nothing closed it since; a revision
that was left never returns; and a spent revision ends every claim and every opening for good. -/
theorem close_revision_is_never_reused (w : RouteWorld) :
    (∀ (epoch : AllocationEpoch) (stamped before after : RouteWorld) (between : List RouteLabel)
        (ticket : CallbackTicket),
      routeSystem.step w (.stamp epoch) stamped → Run routeSystem stamped between before →
      routeSystem.step before (.enter (some epoch) (some ticket)) after →
      w.route.ingress.isSome = true ∧ w.route.generation.isSome = true ∧
        ∀ label ∈ between, label.closes = false) ∧
      (∀ (middle last : RouteWorld) (first second : List RouteLabel),
        Run routeSystem w first middle → Run routeSystem middle second last →
        middle.route.closeRevision ≠ w.route.closeRevision →
        last.route.closeRevision ≠ w.route.closeRevision) ∧
      (w.route.closeRevision = none → ∀ (last : RouteWorld) (labels : List RouteLabel),
        Run routeSystem w labels last → ∀ label ∈ labels, label.grants = false) := by
  refine ⟨?_, ?_, ?_⟩
  · intro epoch stamped before after between ticket taken run entry
    obtain ⟨revision, own, current⟩ := granted_closeRevision entry
    cases taken
    have opened : (w.route.ingress.isSome && w.route.generation.isSome) = true := by
      by_contra closed
      simp only [allocationEpoch, if_neg closed] at own
      cases own
    have stamped : w.route.closeRevision = some revision := by
      simpa only [allocationEpoch, if_pos opened] using own
    rw [Bool.and_eq_true] at opened
    refine ⟨opened.1, opened.2, ?_⟩
    -- The clock read the same at the stamp and at the entry.
    apply closeClock.still run
    · exact congrArg (Option.elim · (2 ^ 64) UInt64.toNat) (current.trans stamped.symm)
    · exact revision_lt current
  · intro middle last first second before after left
    have moved : closeClock.reading middle ≠ closeClock.reading w :=
      fun same => left (closeRevision_eq_of_revision same)
    have gone := closeClock.left_for_good before after moved
    intro back
    exact gone (congrArg (Option.elim · (2 ^ 64) UInt64.toNat) back)
  · intro exhausted last labels run label member
    obtain ⟨first, second, rfl⟩ := List.append_of_mem member
    obtain ⟨before, after, earlier, step, _⟩ := run.step_at
    exact grants_of_exhausted (closeRevision_none_of_run exhausted earlier) step

/-- The three parts at an open route: a delivery between stamp and entry closes nothing, the revision
of the epoch does not come back after a close, and a spent route refuses a claim. -/
theorem opened_route_revision_is_never_reused :
    (∀ label ∈ [RouteLabel.enterDelivery], label.closes = false) ∧
      (CallbackRoute.closeAdmission openedWorld.route).2.closeRevision ≠
        openedWorld.route.closeRevision ∧
      ∀ label ∈ [RouteLabel.claim firstIngress (.error .lifecycleExhausted)],
        label.grants = false := by
  let spent : RouteWorld := { new with route := { RouteState.new with closeRevision := none } }
  have taken : routeSystem.step openedWorld (.stamp ⟨some 0⟩) openedWorld := stamp
  have deliver : routeSystem.step openedWorld .enterDelivery _ := enterDelivery
  have close : routeSystem.step openedWorld (.closeAdmission none) _ := closeAdmission
  have refused : routeSystem.step spent (.claim firstIngress (.error .lifecycleExhausted)) spent :=
    claim _
  have opened := close_revision_is_never_reused openedWorld
  refine ⟨?_, ?_, ?_⟩
  · exact (opened.1 _ _ _ _ _ _ taken (Run.start.next deliver) (enter _)).2.2
  · exact opened.2.1 _ _ _ _ (Run.start.next close) .start (by decide)
  · exact (close_revision_is_never_reused spent).2.2 rfl spent _ (Run.start.next refused)

end HisiRf
