import HisiRf.Netif.LinkRules
import HisiRf.Netif.Revision

/-! What an opening of the route excludes.

An opening is prepared in one critical section and committed in another, with the
wake-ups of a new session in between. Two clocks compared at the commit rule out
every close and every observed delivery of that window, and the in-flight counters
rule out every ticket. A live ticket therefore always belongs to the last epoch
that was opened, although a close may have ended that epoch already.
-/

namespace HisiRf

open Interaction List Registration Option RouteWorld

variable {w next : RouteWorld} {label : RouteLabel} {labels : List RouteLabel}

/-- The pair names the last epoch, which is open with this generation or has been closed. -/
def RouteWorld.OfEpoch (w : RouteWorld) (epoch : Nat) (generation : Generation) : Prop :=
  epoch = w.epoch ∧ (w.route.generation = some generation ∨ w.route.generation = none)

structure Current (w : RouteWorld) : Prop where
  receives : ∀ receive ∈ w.receives, w.OfEpoch receive.epoch receive.ticket.generation
  transmits : ∀ transmit ∈ w.transmits, w.OfEpoch transmit.epoch transmit.generation

variable {A : Type} {held before after : List A}

theorem mem_of_others {gone kept : A} (live : held = before ++ gone :: after)
    (member : kept ∈ before ++ after) : kept ∈ held := by
  rw [live]
  rcases mem_append.mp member with first | last
  · exact mem_append_left _ first
  · exact mem_append_right _ (mem_cons_of_mem _ last)

theorem mem_of_replaced {old new kept : A} (live : held = before ++ old :: after)
    (member : kept ∈ before ++ new :: after) : kept = new ∨ kept ∈ held := by
  rcases mem_append.mp member with first | rest
  · exact .inr (mem_of_others live (mem_append_left _ first))
  · rcases mem_cons.mp rest with same | last
    · exact .inl same
    · exact .inr (mem_of_others live (mem_append_right _ last))

/-- At an opening nothing is live: the counters it looks at are the numbers of live tickets. -/
theorem opening_drained (held : Consistent w) {intent : OpenIntent}
    (permits : Permits w.route intent) :
    w.receives = [] ∧ w.transmits = [] ∧ w.deliveries = [] := by
  obtain ⟨noReceive, noTransmit, noDelivery⟩ := w.route.busy_eq_false_iff.mp permits.drained
  refine ⟨?_, ?_, ?_⟩
  · exact length_eq_zero_iff.mp (held.receives.symm.trans noReceive)
  · exact length_eq_zero_iff.mp (held.transmits.symm.trans noTransmit)
  · apply length_eq_zero_iff.mp
    rw [← held.deliveries.live permits.unspoiled, noDelivery]
    rfl

/-- Two intents that saw the same revision and the same deliveries. -/
def OpenIntent.SameReadings (first second : OpenIntent) : Prop :=
  first.closeRevision = second.closeRevision ∧
    first.hostDeliveryRevision = second.hostDeliveryRevision

variable {intent : OpenIntent}

theorem prepareOpen_inv (step : RouteStep w (.prepareOpen (.ok intent)) next) :
    prepareOpen w.route = .ok intent ∧ next.route = w.route := by
  generalize named : RouteLabel.prepareOpen (.ok intent) = label at step
  cases step with
  | prepareOpen => exact ⟨(RouteLabel.prepareOpen.inj named).symm, rfl⟩
  | _ => cases named

theorem bindInitial_readings {s : RouteState} {id : OperationId} {bound : OpenIntent}
    (succeeded : bindInitial s id intent = .ok bound) : intent.SameReadings bound := by
  unfold bindInitial at succeeded
  split at succeeded
  · cases succeeded
  · obtain rfl := Except.ok.inj succeeded
    exact ⟨rfl, rfl⟩

/-- The ticket as it was before its generation was checked. -/
def LiveReceive.unchecked (receive : LiveReceive) : LiveReceive := { receive with phase := .entered }

variable {receive : LiveReceive}

theorem publish_inv {result : Except QueueError Unit}
    (step : RouteStep w (.publish receive result) next) :
    receive ∈ w.receives ∧ receive.phase = .admitted := by
  generalize named : RouteLabel.publish receive result = label at step
  cases step with
  | publish _ held admitted =>
    obtain ⟨rfl, _⟩ := RouteLabel.publish.inj named
    exact ⟨held ▸ mem_append_cons_self, admitted⟩
  | _ => cases named

section

variable (step : RouteStep w label next)
include step

theorem step_epoch : next.epoch = w.epoch + label.opens.toNat := by
  cases step with
  | @commitOpen _ _ intent generation =>
    rcases commitOpen_cases w.route intent generation with ⟨_, refused⟩ | ⟨_, went⟩
    · simp only [committed, refused]
      rfl
    · simp only [committed, went]
      rfl
  | _ => rfl

/-- A live receive ticket was live before, or this very step granted it. -/
theorem step_receives {receive : LiveReceive} (live : receive ∈ next.receives) :
    (∃ old ∈ w.receives, old.ticket = receive.ticket ∧ old.epoch = receive.epoch) ∨
      w.OfEpoch receive.epoch receive.ticket.generation := by
  have kept (member : receive ∈ w.receives) :
      (∃ old ∈ w.receives, old.ticket = receive.ticket ∧ old.epoch = receive.epoch) ∨
        w.OfEpoch receive.epoch receive.ticket.generation :=
    .inl ⟨receive, member, rfl, rfl⟩
  cases step with
  | enter allocation =>
    unfold entered at live
    rcases CallbackRoute.enterWithAllocation_cases w.route allocation with
      ⟨_, foreign⟩ | ⟨ingress, generation, _, opened, _, granted⟩ | closed
    · simp only [foreign, map_none, toList_none, append_nil] at live
      exact kept live
    · simp only [granted, map_some, toList_some, mem_append,
        mem_singleton] at live
      rcases live with old | rfl
      · exact kept old
      · exact .inr ⟨rfl, .inl opened⟩
    · simp only [closed, map_none, toList_none, append_nil] at live
      exact kept live
  | @check before after taken held | @publish before after taken result held =>
    rcases mem_of_replaced held live with rfl | old
    · exact .inl ⟨taken, held ▸ mem_append_cons_self, rfl, rfl⟩
    · exact kept old
  | finish held _ | abandon held _ => exact kept (mem_of_others held live)
  | _ => exact kept live

theorem step_transmits {transmit : LiveTransmit} (live : transmit ∈ next.transmits) :
    transmit ∈ w.transmits ∨ w.OfEpoch transmit.epoch transmit.generation := by
  cases step with
  | enterTransmit generation =>
    unfold enteredTransmit at live
    rcases enterTransmit_cases w.route generation with refused | ⟨opened, granted⟩
    · simp only [refused, Bool.false_eq_true, if_false] at live
      exact .inl live
    · simp only [granted, if_true, mem_append, mem_singleton] at live
      rcases live with old | rfl
      · exact .inl old
      · exact .inr ⟨rfl, .inl opened⟩
  | dropTransmit held => exact .inl (mem_of_others held live)
  | _ => exact .inl live

/-- An intent that is held was held before with the same readings, or has just been prepared. -/
theorem step_intents (held : intent ∈ next.intents) :
    (∃ old ∈ w.intents, old.SameReadings intent) ∨ label = .prepareOpen (.ok intent) := by
  have kept (member : intent ∈ w.intents) :
      (∃ old ∈ w.intents, old.SameReadings intent) ∨ label = .prepareOpen (.ok intent) :=
    .inl ⟨intent, member, rfl, rfl⟩
  cases step with
  | prepareOpen =>
    cases prepared : prepareOpen w.route with
    | error =>
      simp only [prepared, Except.toOption, toList_none, append_nil] at held
      exact .inl ⟨intent, held, rfl, rfl⟩
    | ok =>
      simp only [prepared, Except.toOption, toList_some, mem_append,
        mem_singleton] at held
      rcases held with old | rfl
      · exact .inl ⟨intent, old, rfl, rfl⟩
      · exact .inr rfl
  | @bindInitial before after unbound id _ live =>
    cases bound : bindInitial w.route id unbound with
    | error =>
      simp only [bound, Except.toOption, toList_none, append_nil] at held
      exact .inl ⟨intent, mem_of_others live held, rfl, rfl⟩
    | ok =>
      simp only [bound, Except.toOption, toList_some, append_assoc,
        singleton_append] at held
      rcases mem_of_replaced live held with rfl | old
      · exact .inl ⟨unbound, live ▸ mem_append_cons_self, bindInitial_readings bound⟩
      · exact .inl ⟨intent, old, rfl, rfl⟩
  | commitOpen _ _ live | dropIntent live => exact kept (mem_of_others live held)
  | _ => exact kept held

theorem step_admitted (live : receive ∈ next.receives) (admitted : receive.phase = .admitted) :
    receive ∈ w.receives ∨ (label = .check receive.unchecked true ∧ receive.unchecked ∈ w.receives ∧
      w.route.generation = some receive.ticket.generation) := by
  cases step with
  | enter allocation =>
    unfold entered at live
    cases granted : (CallbackRoute.enterWithAllocation w.route allocation).1 with
    | none =>
      simp only [granted, map_none, toList_none, append_nil] at live
      exact .inl live
    | some =>
      simp only [granted, map_some, toList_some, mem_append,
        mem_singleton] at live
      rcases live with old | rfl
      · exact .inl old
      · cases admitted
  | @check before after checked held begins =>
    rcases mem_of_replaced held live with rfl | old
    · right
      have same : (checked.checked (checked.ticket.isOpen w.route)).unchecked = checked := by
        rw [LiveReceive.unchecked, LiveReceive.checked, ← begins]
      cases isOpen : checked.ticket.isOpen w.route with
      | false =>
        rw [isOpen] at admitted
        cases admitted
      | true =>
        rw [isOpen] at same
        rw [same]
        refine ⟨rfl, held ▸ mem_append_cons_self, ?_⟩
        exact eq_of_beq isOpen
    · exact .inl old
  | publish result held =>
    rcases mem_of_replaced held live with rfl | old
    · cases admitted
    · exact .inl old
  | finish held _ | abandon held _ => exact .inl (mem_of_others held live)
  | _ => exact .inl live

end

theorem RouteWorld.OfEpoch.step {epoch : Nat} {generation : Generation}
    (held : w.OfEpoch epoch generation) (step : RouteStep w label next)
    (steady : label.opens = false) : next.OfEpoch epoch generation := by
  obtain ⟨same, status⟩ := held
  refine ⟨?_, ?_⟩
  · rw [step_epoch step, steady]
    exact same
  rcases step_generation step with kept | ⟨_, _, closed⟩ | opens
  · rw [kept]
    cases label.closes with
    | true => exact .inr rfl
    | false => exact status
  · exact .inr closed
  · rw [steady] at opens
    cases opens

theorem Current.step (current : Current w) (held : Consistent w) (step : RouteStep w label next) :
    Current next := by
  cases opening : label.opens with
  | true =>
    obtain ⟨intent, generation, rfl⟩ := opens_inv opening
    obtain ⟨permits, _, _, rfl⟩ := commitOpen_inv step
    obtain ⟨noReceive, noTransmit, _⟩ := opening_drained held permits
    refine ⟨?_, ?_⟩
    · rw [noReceive]
      exact forall_mem_nil _
    · rw [noTransmit]
      exact forall_mem_nil _
  | false =>
    refine ⟨?_, ?_⟩
    · intro receive live
      rcases step_receives step live with ⟨old, member, ticket, epoch⟩ | granted
      · have before := current.receives old member
        rw [ticket, epoch] at before
        exact before.step step opening
      · exact granted.step step opening
    · intro transmit live
      rcases step_transmits step live with old | granted
      · exact (current.transmits transmit old).step step opening
      · exact granted.step step opening

/-- Between a preparation and a commit with its readings nothing closed and nothing was delivered. -/
theorem undisturbed_since_prepared {prepared : OpenIntent} {before middle : RouteWorld}
    {between : List RouteLabel} (prepares : RouteStep before (.prepareOpen (.ok prepared)) middle)
    (run : Run routeSystem middle between w) (same : prepared.SameReadings intent)
    (permits : Permits w.route intent) :
    ∀ label ∈ between, label.closes = false ∧ label.entersDelivery = false := by
  obtain ⟨succeeded, unchanged⟩ := prepareOpen_inv prepares
  obtain ⟨revision, entered, unspoiled, _, _⟩ := prepareOpen_ok _ succeeded
  rw [← unchanged] at revision entered unspoiled
  have quiet : ∀ label ∈ between, label.closes = false := by
    apply closeClock.still run
    · apply congrArg (Option.elim · (2 ^ 64) UInt64.toNat)
      rw [permits.revision, revision, same.1]
    · exact revision_lt permits.revision
  have silent : ∀ label ∈ between, label.entersDelivery = false := by
    have now := HostDeliveryDiagnostics.reading_of_unspoiled permits.unspoiled
    have then' := HostDeliveryDiagnostics.reading_of_unspoiled unspoiled
    apply deliveryClock.still run
    · apply now.trans
      rw [permits.undisturbed, ← same.2, ← entered]
      exact then'.symm
    · have below : w.route.hostDeliveries.reading < 2 ^ 64 := by
        rw [now]
        exact UInt64.toNat_lt _
      exact below
  exact fun label member => ⟨quiet label member, silent label member⟩

variable (run : Run routeSystem .new labels w)
include run

theorem epoch_eq_countP : w.epoch = labels.countP RouteLabel.opens := by
  induction run with
  | start => rfl
  | @next earlier before after label _ step ih =>
    rw [step_epoch step, ih, countP_append, countP_singleton]
    cases label.opens <;> rfl

theorem Current.of_run : Current w := by
  induction run with
  | start => exact ⟨forall_mem_nil _, forall_mem_nil _⟩
  | next run step ih => exact ih.step (Consistent.of_run run) step

theorem intent_prepared (held : intent ∈ w.intents) :
    ∃ first prepared between, labels = first ++ .prepareOpen (.ok prepared) :: between ∧
      prepared.SameReadings intent := by
  have arises (w : RouteWorld) (label : RouteLabel) (next : RouteWorld)
      (step : routeSystem.step w label next)
      (holds : ∃ later ∈ next.intents, later.SameReadings intent) :
      (∃ old ∈ w.intents, old.SameReadings intent) ∨
        ∃ prepared, label = .prepareOpen (.ok prepared) ∧ prepared.SameReadings intent := by
    obtain ⟨later, member, readings⟩ := holds
    rcases step_intents step member with ⟨old, member, same⟩ | rfl
    · exact .inl ⟨old, member, same.1.trans readings.1, same.2.trans readings.2⟩
    · exact .inr ⟨later, rfl, readings⟩
  obtain ⟨first, _, between, _, rfl, _, prepared, rfl, readings⟩ :=
    run.origin arises (by rintro ⟨_, member, _⟩; cases member) ⟨intent, held, rfl, rfl⟩
  exact ⟨first, prepared, between, rfl, readings⟩

/-- An admitted ticket was checked earlier, while its own generation was open. -/
theorem admitted_checked (live : receive ∈ w.receives) (admitted : receive.phase = .admitted) :
    ∃ first between before, labels = first ++ .check receive.unchecked true :: between ∧
      Run routeSystem .new first before ∧ receive.unchecked ∈ before.receives ∧
      before.route.generation = some receive.ticket.generation := by
  have arises (w : RouteWorld) (label : RouteLabel) (next : RouteWorld)
      (step : routeSystem.step w label next) (live : receive ∈ next.receives) :=
    step_admitted step live admitted
  obtain ⟨first, _, between, before, rfl, reached, rfl, member, opened⟩ :=
    run.origin arises not_mem_nil live
  exact ⟨first, between, before, rfl, reached, member, opened⟩

/-- No epoch was opened between the check of a ticket and the publication of its frame. -/
theorem no_opening_since_check (live : receive ∈ w.receives) {first between : List RouteLabel}
    {before : RouteWorld} (whole : labels = first ++ .check receive.unchecked true :: between)
    (reached : Run routeSystem .new first before) (checked : receive.unchecked ∈ before.receives) :
    ∀ label ∈ between, label.opens = false := by
  have now : receive.epoch = w.epoch := ((Current.of_run run).receives _ live).1
  have then' : receive.epoch = before.epoch := ((Current.of_run reached).receives _ checked).1
  have total := epoch_eq_countP run
  have part := epoch_eq_countP reached
  rw [whole, countP_append, countP_cons] at total
  -- Both moments count the same openings, so none fell between them.
  have none_between : between.countP RouteLabel.opens = 0 := by omega
  intro label member
  exact Bool.eq_false_iff.mpr (countP_eq_zero.mp none_between label member)

end HisiRf
