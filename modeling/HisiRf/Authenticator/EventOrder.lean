import HisiRf.Authenticator.DriverEvents

/-! The order in which driver events reach hostapd.

The slots carry no numbers that the runner looks at, so the order of the feeds is
that of the indices. It is the order of the callbacks as long as a slot is given
away only between two drains and with no occupied slot behind it.
-/

namespace HisiRf.DriverEvents

open Interaction Function List
open LinkEvents (SlotState VendorBytes)

section Order

def MgmtSlot.occupied (slot : MgmtSlot) : Prop := slot.state = .ready ∨ slot.state = .writing

/-- What the runner has in its hands and did not feed yet. -/
def RunnerPhase.pending (w : World) : RunnerPhase → List Nat
  | .seized slot => [(w.slots slot).number]
  | .holding _ number => [number]
  | .looking _ | .fed _ _ => []

open RunnerPhase (pending)

def RunnerPhase.holds : RunnerPhase → Option SlotIndex
  | .seized slot | .holding slot _ | .fed slot _ => some slot
  | .looking _ => none

structure Ordered (taken : List Nat) (w : World) (r : RunnerPhase) (e : EventPhase) : Prop where
  sorted : taken.Pairwise (· < ·)
  past : ∀ n ∈ taken, n < w.begun
  numbered : ∀ a, (w.slots a).occupied → (w.slots a).number < w.begun
  order : ∀ a b, a < b → (w.slots a).occupied → (w.slots b).occupied →
    (w.slots a).number < (w.slots b).number
  later : ∀ n ∈ taken, ∀ a, (w.slots a).occupied → n < (w.slots a).number
  writer : ∀ a, (w.slots a).state = .writing → e = .placed a ∧ ∀ b, a < b → (w.slots b).state = .free
  entered : ∀ m, e = .entered m → m + 1 = w.begun ∧ (∀ n ∈ taken, n < m) ∧
    ∀ a, (w.slots a).occupied → (w.slots a).number < m
  placed : ∀ a, e = .placed a → (w.slots a).state = .writing
  held : ∀ a, r.holds = some a →
    (w.slots a).state = .reading ∧ ∀ b, (w.slots b).occupied → a < b
  passed : ∀ next, r = .looking next → ∀ a, a.val < next → (w.slots a).occupied →
    ∀ b, a < b → (w.slots b).state = .free

variable {taken : List Nat} {w after : World} {r : RunnerPhase} {e : EventPhase} {o : Op}
  {reply : o.Reply}

theorem ordered_new : Ordered [] .new (.looking 0) .idle where
  sorted := .nil
  past := nofun
  numbered := fun _ occupied => occupied.elim nofun nofun
  order := fun _ _ _ occupied => occupied.elim nofun nofun
  later := nofun
  writer := nofun
  entered := nofun
  placed := nofun
  held := nofun
  passed := fun _ _ _ _ occupied => occupied.elim nofun nofun

variable {slot : SlotIndex} {f : EventPhase} {sent : List Nat}

theorem Ordered.seize (ordered : Ordered taken w (.looking slot.val) e)
    (ready : (w.slots slot).state = .ready) :
    Ordered (taken ++ [(w.slots slot).number]) (w.setState slot .reading) (.seized slot) e := by
  have here : (w.slots slot).occupied := .inl ready
  -- Whatever was passed and is occupied has only free slots behind it.
  have first (b : SlotIndex) (occupied : ((w.setState slot .reading).slots b).occupied) :
      slot < b ∧ (w.slots b).occupied := by
    rw [setState_slots] at occupied
    by_cases same : b = slot
    · simp [MgmtSlot.occupied, same] at occupied
    have before : (w.slots b).occupied := by simpa [MgmtSlot.occupied, same] using occupied
    refine ⟨?_, before⟩
    by_contra behind
    have passed : b.val < slot.val := by
      have apart : b.val ≠ slot.val := fun equal => same (Fin.ext equal)
      have bound : b.val ≤ slot.val := Fin.not_lt.mp behind
      omega
    have free := ordered.passed _ rfl b passed before slot passed
    rw [ready] at free
    cases free
  have number (b : SlotIndex) : ((w.setState slot .reading).slots b).number = (w.slots b).number := by
    rw [setState_slots]
  constructor
  case sorted =>
    rw [pairwise_append]
    refine ⟨ordered.sorted, pairwise_singleton _ _, ?_⟩
    intro n before m last
    rw [mem_singleton.mp last]
    exact ordered.later n before slot here
  case past =>
    have own := ordered.numbered slot here
    exact forall_mem_append.mpr ⟨ordered.past, forall_mem_singleton.mpr own⟩
  case numbered =>
    intro a occupied
    rw [number]
    exact ordered.numbered a (first a occupied).2
  case order =>
    intro a b less occupiedA occupiedB
    rw [number, number]
    exact ordered.order a b less (first a occupiedA).2 (first b occupiedB).2
  case later =>
    intro n member a occupied
    rw [number]
    rcases mem_append.mp member with before | last
    · exact ordered.later n before a (first a occupied).2
    · rw [mem_singleton.mp last]
      exact ordered.order slot a (first a occupied).1 here (first a occupied).2
  case writer =>
    intro a writing
    have before : (w.slots a).state = .writing := by
      rw [setState_slots] at writing
      by_cases same : a = slot
      · simp [same] at writing
      · grind
    obtain ⟨placed, free⟩ := ordered.writer a before
    refine ⟨placed, ?_⟩
    intro b less
    have other : b ≠ slot := by
      rintro rfl
      have now := free b less
      rw [ready] at now
      cases now
    rw [setState_slots]
    simp [other, free b less]
  case entered =>
    intro m inside
    obtain ⟨count, above, numbers⟩ := ordered.entered m inside
    refine ⟨count, ?_, ?_⟩ <;> grind
  case placed =>
    intro a same
    have writing := ordered.placed a same
    have other : a ≠ slot := by
      rintro rfl
      rw [ready] at writing
      cases writing
    rw [setState_slots]
    simp [other, writing]
  case held =>
    intro a same
    cases same
    refine ⟨?_, fun b occupied => (first b occupied).1⟩
    simp [setState_slots]
  case passed => exact nofun

theorem Ordered.keep {s : RunnerPhase} (ordered : Ordered taken w r e)
    (numbers : ∀ a, (after.slots a).number = (w.slots a).number) (begun : after.begun = w.begun)
    (occupied : ∀ a, (after.slots a).occupied → (w.slots a).occupied)
    (free : ∀ a, (w.slots a).state = .free → (after.slots a).state = .free)
    (writer : ∀ a, (after.slots a).state = .writing → (w.slots a).state = .writing ∧ f = e)
    (entered : ∀ m, f = .entered m → e = .entered m)
    (placed : ∀ a, f = .placed a → (after.slots a).state = .writing)
    (held : ∀ a, s.holds = some a → r.holds = some a ∧ (after.slots a).state = .reading)
    (passed : ∀ next, s = .looking next → ∀ a, a.val < next → (after.slots a).occupied → ∀ b,
      a < b → (after.slots b).state = .free) :
    Ordered taken after s f where
  sorted := ordered.sorted
  past := by simpa only [begun] using ordered.past
  numbered := by
    intro a now
    rw [numbers, begun]
    exact ordered.numbered a (occupied a now)
  order := by
    intro a b less nowA nowB
    rw [numbers, numbers]
    exact ordered.order a b less (occupied a nowA) (occupied b nowB)
  later := by
    intro n member a now
    rw [numbers]
    exact ordered.later n member a (occupied a now)
  writer := by grind [writer]
  entered := by grind [entered]
  placed := placed
  held := by
    intro a same
    obtain ⟨before, reading⟩ := held a same
    exact ⟨reading, fun b now => (ordered.held a before).2 b (occupied b now)⟩
  passed := passed

theorem setState_keeps (w : World) (slot : SlotIndex) (state : SlotState) :
    (∀ a, ((w.setState slot state).slots a).number = (w.slots a).number) ∧
      (w.setState slot state).begun = w.begun := by
  constructor
  · intro a
    rw [setState_slots]
  · rfl

theorem setState_occupied {state : SlotState} {a : SlotIndex}
    (now : ((w.setState slot state).slots a).occupied) :
    a = slot ∧ (state = .ready ∨ state = .writing) ∨ a ≠ slot ∧ (w.slots a).occupied := by
  grind [setState_slots, MgmtSlot.occupied]

theorem Ordered.pass (ordered : Ordered taken w (.looking slot.val) e)
    (unready : (w.slots slot).state ≠ .ready) : Ordered taken w (.looking (slot.val + 1)) e := by
  refine { ordered with held := nofun, passed := ?_ }
  intro next same a before occupied
  obtain rfl := RunnerPhase.looking.inj same
  by_cases here : a = slot
  · subst here
    exact (ordered.writer a (occupied.resolve_left unready)).2
  · have earlier : a.val < slot.val := by
      have apart : a.val ≠ slot.val := fun equal => here (Fin.ext equal)
      omega
    exact ordered.passed _ rfl a earlier occupied

theorem Ordered.release {status : Int32} (ordered : Ordered taken w (.fed slot status) e) :
    Ordered taken (w.setState slot .free)
      (if status ≠ 0 then .looking 0 else .looking (slot.val + 1)) e := by
  have keeps := setState_keeps w slot .free
  have occupied (a : SlotIndex) (now : ((w.setState slot .free).slots a).occupied) :
      (w.slots a).occupied := by
    rcases setState_occupied now with ⟨_, impossible⟩ | ⟨_, before⟩
    · grind
    · exact before
  apply ordered.keep keeps.1 keeps.2 occupied
  case free =>
    intro a before
    rw [setState_slots]
    simp [before]
  case writer =>
    intro a writing
    rw [setState_slots] at writing
    by_cases same : a = slot
    · simp [same] at writing
    · grind
  case entered => exact fun _ same => same
  case placed =>
    intro a same
    have writing := ordered.placed a same
    have other : a ≠ slot := by
      rintro rfl
      rw [(ordered.held a rfl).1] at writing
      cases writing
    rw [setState_slots]
    simp [other, writing]
  case held =>
    intro a same
    split at same <;> cases same
  case passed =>
    intro next same a before now
    -- What is occupied lies behind the slot that was taken.
    have behind := (ordered.held slot rfl).2 a (occupied a now)
    split at same
    · grind
    · grind

theorem seize_cases {seized : Bool} (done : Atom w (.seize slot) seized after) :
    (w.slots slot).state = .ready ∧ seized = true ∧ after = w.setState slot .reading ∨
      (w.slots slot).state ≠ .ready ∧ seized = false ∧ after = w := by
  change if (w.slots slot).state = .ready then _ else _ at done
  split at done
  next ready => grind
  next unready => grind

theorem claim_cases {number : Nat} {claimed : Bool}
    (done : Atom w (.claim slot number) claimed after) :
    (w.slots slot).state = .free ∧ claimed = true ∧
        after = w.setSlot slot { w.slots slot with state := .writing, number := number } ∨
      (w.slots slot).state ≠ .free ∧ claimed = false ∧ after = w := by
  change if (w.slots slot).state = .free then _ else _ at done
  split at done
  next free => grind
  next busy => grind

def fedBy : Op → List Nat
  | .feed number _ => [number]
  | _ => []

theorem runner_step (ordered : Ordered (sent ++ r.pending w) w r e) (allowed : r.allows o)
    (done : Atom w o reply after) :
    Ordered (sent ++ fedBy o ++ (r.after ⟨o, reply⟩).pending after) after (r.after ⟨o, reply⟩) e := by
  cases r with
  | looking next =>
    cases o with
    | seize slot =>
      obtain rfl : slot.val = next := allowed
      rcases seize_cases done with ⟨ready, rfl, rfl⟩ | ⟨unready, rfl, rfl⟩
      · have now := Ordered.seize (by simpa [pending] using ordered) ready
        simpa [fedBy, RunnerPhase.after, pending, setState_slots] using now
      · have now := Ordered.pass (by simpa [pending] using ordered) unready
        simpa [fedBy, RunnerPhase.after, pending] using now
    | drainEapol =>
      obtain rfl := done
      rw [pending, append_nil] at ordered
      have now : Ordered sent after (.looking 0) e := by
        refine { ordered with held := nofun, passed := ?_ }
        intro other same a before
        obtain rfl := RunnerPhase.looking.inj same
        exact absurd before (Nat.not_lt_zero _)
      simpa [fedBy, RunnerPhase.after, pending] using now
    | _ => exact allowed.elim
  | seized slot =>
    cases o with
    | read other =>
      obtain rfl : other = slot := allowed
      obtain ⟨rfl, rfl⟩ := done
      have now : Ordered _ after (.holding other (after.slots other).number) e :=
        { ordered with held := ordered.held, passed := nofun }
      simpa [fedBy, RunnerPhase.after, pending] using now
    | _ => exact allowed.elim
  | holding slot number =>
    cases o with
    | feed other =>
      obtain rfl : other = number := allowed
      obtain rfl := done
      have now : Ordered _ after (.fed slot reply) e :=
        { ordered with held := ordered.held, passed := nofun }
      simpa [fedBy, RunnerPhase.after, pending] using now
    | _ => exact allowed.elim
  | fed slot status =>
    cases o with
    | release other =>
      obtain rfl : other = slot := allowed
      obtain rfl := done
      have now := Ordered.release (by simpa [pending] using ordered)
      have empty : (if status ≠ 0 then RunnerPhase.looking 0 else .looking (other.val + 1)).pending
          (w.setState other .free) = [] := by split <;> rfl
      change Ordered (sent ++ [] ++ (if status ≠ 0 then RunnerPhase.looking 0 else
        .looking (other.val + 1)).pending (w.setState other .free)) _ _ e
      rw [empty, append_nil, append_nil]
      exact now
    | _ => exact allowed.elim

theorem Ordered.enter (ordered : Ordered taken w r .idle) :
    Ordered taken { w with begun := w.begun + 1 } r (.entered w.begun) where
  sorted := ordered.sorted
  past := fun n member => Nat.lt_succ_of_lt (ordered.past n member)
  numbered := fun a occupied => Nat.lt_succ_of_lt (ordered.numbered a occupied)
  order := ordered.order
  later := ordered.later
  writer := by
    intro a writing
    cases (ordered.writer a writing).1
  entered := by
    intro m same
    obtain rfl := EventPhase.entered.inj same
    exact ⟨rfl, ordered.past, ordered.numbered⟩
  placed := nofun
  held := ordered.held
  passed := ordered.passed

/-- A callback takes a slot that has only free ones behind it, while the runner rests. -/
theorem Ordered.claim {m : Nat} (ordered : Ordered taken w (.looking 0) (.entered m))
    (behind : ∀ b, slot < b → (w.slots b).state = .free) :
    Ordered taken (w.setSlot slot { w.slots slot with state := .writing, number := m }) (.looking 0)
      (.placed slot) := by
  obtain ⟨count, above, below⟩ := ordered.entered m rfl
  have here : (w.setSlot slot { w.slots slot with state := .writing, number := m }).slots slot =
      { w.slots slot with state := .writing, number := m } := by simp [World.setSlot]
  have other (a : SlotIndex) (apart : a ≠ slot) :
      (w.setSlot slot { w.slots slot with state := .writing, number := m }).slots a = w.slots a := by
    simp [World.setSlot, apart]
  constructor
  case sorted => exact ordered.sorted
  case past => exact ordered.past
  case numbered =>
    intro a occupied
    by_cases same : a = slot
    · rw [same, here]
      exact Nat.lt_of_succ_le (Nat.le_of_eq count)
    · rw [other a same] at occupied ⊢
      exact ordered.numbered a occupied
  case order =>
    intro a b less occupiedA occupiedB
    by_cases sameB : b = slot
    · grind
    · rw [other b sameB] at occupiedB ⊢
      by_cases sameA : a = slot
      · -- Nothing behind the new slot is occupied.
        rcases occupiedB with ready | writing <;> grind
      · rw [other a sameA] at occupiedA ⊢
        exact ordered.order a b less occupiedA occupiedB
  case later =>
    intro n member a occupied
    by_cases same : a = slot
    · grind
    · rw [other a same] at occupied ⊢
      exact ordered.later n member a occupied
  case writer =>
    intro a writing
    by_cases same : a = slot
    · grind
    · rw [other a same] at writing
      cases (ordered.writer a writing).1
  case placed => grind
  case entered | held =>
    intro a same
    cases same
  case passed => grind

/-- What the callback does with its slot changes neither who is behind it nor its number. -/
theorem Ordered.publish (ordered : Ordered taken w r (.placed slot)) :
    Ordered taken (w.setState slot .ready) r .published := by
  have writing := ordered.placed slot rfl
  have keeps := setState_keeps w slot .ready
  have occupied (a : SlotIndex) (now : ((w.setState slot .ready).slots a).occupied) :
      (w.slots a).occupied := by
    rcases setState_occupied now with ⟨rfl, _⟩ | ⟨_, before⟩
    · exact .inr writing
    · exact before
  have free (a : SlotIndex) (before : (w.slots a).state = .free) :
      ((w.setState slot .ready).slots a).state = .free := by
    have apart : a ≠ slot := by
      rintro rfl
      rw [writing] at before
      cases before
    rw [setState_slots]
    simp [apart, before]
  apply ordered.keep keeps.1 keeps.2 occupied free
  case writer =>
    intro a now
    rw [setState_slots] at now
    by_cases same : a = slot
    · simp [same] at now
    · have before : (w.slots a).state = .writing := by simpa [same] using now
      exact absurd (EventPhase.placed.inj (ordered.writer a before).1).symm same
  case entered => exact nofun
  case placed => exact nofun
  case held =>
    intro a same
    have reading := (ordered.held a same).1
    have other : a ≠ slot := by
      rintro rfl
      rw [reading] at writing
      cases writing
    rw [setState_slots]
    exact ⟨same, by simp [other, reading]⟩
  case passed =>
    intro next same a before now b less
    exact free b (ordered.passed next same a before (occupied a now) b less)

theorem pending_congr (r : RunnerPhase)
    (numbers : ∀ a, (after.slots a).number = (w.slots a).number) : r.pending after = r.pending w := by
  cases r with
  | seized => simp [pending, numbers]
  | _ => rfl

theorem Ordered.idle (ordered : Ordered taken w r e) (unplaced : ∀ a, e ≠ .placed a)
    (entered : ∀ m, f = .entered m → e = .entered m) (placed : ∀ a, f ≠ .placed a) :
    Ordered taken w r f :=
  { ordered with
    writer := fun a writing => absurd (ordered.writer a writing).1 (unplaced a)
    entered := fun m same => ordered.entered m (entered m same)
    placed := fun a same => absurd same (placed a) }

theorem fill_slots (w : World) (slot other : SlotIndex) (frame : MgmtFrame) :
    ((w.setSlot slot { w.slots slot with frame := frame }).slots other).state = (w.slots other).state ∧
      ((w.setSlot slot { w.slots slot with frame := frame }).slots other).number =
        (w.slots other).number := by
  by_cases same : other = slot
  · subst same
    simp [World.setSlot]
  · simp [World.setSlot, same]

theorem Ordered.fill (ordered : Ordered taken w r e) (frame : MgmtFrame) :
    Ordered taken (w.setSlot slot { w.slots slot with frame := frame }) r e := by
  have states (a : SlotIndex) := (fill_slots w slot a frame).1
  have occupied (a : SlotIndex) :
      ((w.setSlot slot { w.slots slot with frame := frame }).slots a).occupied ↔
        (w.slots a).occupied := by
    unfold MgmtSlot.occupied
    rw [states]
  apply ordered.keep (fun a => (fill_slots w slot a frame).2) rfl (fun a => (occupied a).mp)
  case free => grind
  case writer => grind
  case entered => exact fun _ same => same
  case placed => exact fun a same => (states a).trans (ordered.placed a same)
  case held => exact fun a same => ⟨same, (states a).trans (ordered.held a same).1⟩
  case passed =>
    intro next same a before now b less
    exact (states b).trans (ordered.passed next same a before ((occupied a).mp now) b less)

/-- The runner rests, and the slots behind are free, when a callback gets its slot. -/
def Calm (w : World) (r : RunnerPhase) : Exchange ops → Prop
  | ⟨.claim slot _, true⟩ => r = .looking 0 ∧ ∀ b, slot < b → (w.slots b).state = .free
  | _ => True

theorem event_step (ordered : Ordered (sent ++ r.pending w) w r e) (allowed : e.allows o)
    (done : Atom w o reply after) (calm : Calm w r ⟨o, reply⟩) :
    Ordered (sent ++ fedBy o ++ r.pending after) after r (e.after ⟨o, reply⟩) := by
  cases e with
  | idle =>
    cases o with
    | enterEvent =>
      obtain ⟨rfl, rfl⟩ := done
      change Ordered (sent ++ [] ++ _) _ _ _
      rw [append_nil, pending_congr r (fun _ => rfl)]
      exact ordered.enter
    | _ => exact allowed.elim
  | entered m =>
    cases o with
    | claim slot number =>
      obtain rfl : number = m := allowed
      rcases claim_cases done with ⟨free, rfl, rfl⟩ | ⟨busy, rfl, rfl⟩
      · obtain ⟨rfl, behind⟩ := calm
        have now := Ordered.claim (by simpa [pending] using ordered) behind
        simpa [fedBy, pending, EventPhase.after] using now
      · simpa [fedBy, EventPhase.after] using ordered
    | leaveEvent =>
      obtain rfl := done
      have now := ordered.idle (f := .idle) nofun nofun nofun
      simpa [fedBy, EventPhase.after] using now
    | _ => exact allowed.elim
  | placed slot =>
    cases o with
    | fill other =>
      obtain rfl := done
      change Ordered (sent ++ [] ++ _) _ _ _
      rw [append_nil, pending_congr r (fun a => (fill_slots w other a _).2)]
      exact ordered.fill _
    | publish other =>
      obtain rfl : other = slot := allowed
      obtain rfl := done
      change Ordered (sent ++ [] ++ _) _ _ _
      rw [append_nil, pending_congr r (setState_keeps w other .ready).1]
      exact ordered.publish
    | _ => exact allowed.elim
  | published =>
    cases o with
    | wakeRunner =>
      obtain rfl := done
      simpa [fedBy, EventPhase.after] using ordered
    | leaveEvent =>
      obtain rfl := done
      have now := ordered.idle (f := .idle) nofun nofun nofun
      simpa [fedBy, EventPhase.after] using now
    | _ => exact allowed.elim

end Order

def feedOf : PoolLabel ops → Option (Nat × Feed)
  | .act _ ⟨.feed number feed, _⟩ => some (number, feed)
  | _ => none

/-- The events that were fed, in that order, each with the number of its callback. -/
def feeds (labels : List (PoolLabel ops)) : List (Nat × Feed) := labels.filterMap feedOf

def fed (labels : List (PoolLabel ops)) : List Nat := (feeds labels).map Prod.fst

theorem fed_act (labels : List (PoolLabel ops)) (i : Nat) (exchange : Exchange ops) :
    fed (labels ++ [.act i exchange]) = fed labels ++ fedBy exchange.op := by
  obtain ⟨o, reply⟩ := exchange
  cases o <;> simp [fed, feeds, feedOf, fedBy]

theorem fed_start (labels : List (PoolLabel ops)) (i : Nat) :
    fed (labels ++ [.start i]) = fed labels := by
  simp [fed, feeds, feedOf]

/-- A callback gets its slot while no drain is under way, and the slots behind it are free. -/
def Orderly (pool : Pool ops World) : PoolLabel ops → Prop
  | .act _ ⟨.claim slot _, true⟩ =>
    pool.threads 0 = .done () ∧ ∀ b, slot < b → (pool.world.slots b).state = .free
  | _ => True

variable {labels : List (PoolLabel ops)} {pool : Pool ops World}

def place (labels : List (PoolLabel ops)) : Nat → Phase := phaseOf phases home labels

theorem crew_of_events (run : Run eventSystem (.new .new) labels pool) :
    Run (crewSystem Atom phases) ⟨.new, home⟩ labels ⟨pool.world, place labels⟩ ∧
      ∀ i, (pool.threads i).Obeys phases (fun _ phase => phase = home i) (place labels i) :=
  crew_of_run tasks_obey run

structure Placed (labels : List (PoolLabel ops)) (pool : Pool ops World) (r : RunnerPhase)
    (e : EventPhase) : Prop where
  runner : place labels 0 = .runner r
  event : place labels 1 = .event e
  others : ∀ i, place labels (i + 2) = .stranger
  ordered : Ordered (fed labels ++ r.pending pool.world) pool.world r e

theorem calm_of_orderly {r : RunnerPhase} {e : EventPhase} {i : Nat} {exchange : Exchange ops}
    (known : Placed labels pool r e)
    (obey : ∀ i, (pool.threads i).Obeys phases (fun _ phase => phase = home i) (place labels i))
    (orderly : Orderly pool (.act i exchange)) : Calm pool.world r exchange := by
  unfold Calm
  split
  next slot number =>
    obtain ⟨rests, behind⟩ := orderly
    have resting := obey 0
    rw [rests] at resting
    have same : Phase.runner r = home 0 := known.runner.symm.trans resting
    exact ⟨Phase.runner.inj same, behind⟩
  next => trivial

theorem placed_of_run (run : Run (eventSystem.keeping Orderly) (.new .new) labels pool) :
    ∃ r e, Placed labels pool r e := by
  induction run with
  | start => exact ⟨_, _, rfl, rfl, fun _ => rfl, ordered_new⟩
  | @next earlier before now label run step ih =>
    obtain ⟨step, orderly⟩ := step
    obtain ⟨r, e, known⟩ := ih
    have crew := crew_of_events run.unruled
    cases step with
    | @start i p rests =>
      have resting := crew.2 i
      rw [rests] at resting
      have same : place (earlier ++ [.start i]) = place earlier := phaseOf_start resting
      refine ⟨r, e, by rw [same]; exact known.runner, by rw [same]; exact known.event,
        fun j => by rw [same]; exact known.others j, ?_⟩
      rw [fed_start]
      exact known.ordered
    | @act i o next reply w waiting taken =>
      have allowed := crew.2 i
      rw [waiting] at allowed
      have moved : place (earlier ++ [.act i ⟨o, reply⟩]) =
          update (place earlier) i (phases.after (place earlier i) ⟨o, reply⟩) :=
        phaseOf_act i ⟨o, reply⟩
      have grown := fed_act earlier i ⟨o, reply⟩
      match i with
      | 0 =>
        have fits := allowed.1
        rw [known.runner] at fits
        refine ⟨r.after ⟨o, reply⟩, e, ?_, ?_, ?_, ?_⟩
        · rw [moved, update_self, known.runner]
          rfl
        · rw [moved, update_of_ne (by decide)]
          exact known.event
        · intro j
          rw [moved, update_of_ne (by omega)]
          exact known.others j
        · rw [grown]
          exact runner_step known.ordered fits taken
      | 1 =>
        have fits := allowed.1
        rw [known.event] at fits
        have calm : Calm before.world r ⟨o, reply⟩ := calm_of_orderly known crew.2 orderly
        refine ⟨r, e.after ⟨o, reply⟩, ?_, ?_, ?_, ?_⟩
        · rw [moved, update_of_ne (by decide)]
          exact known.runner
        · rw [moved, update_self, known.event]
          rfl
        · intro j
          rw [moved, update_of_ne (by omega)]
          exact known.others j
        · rw [grown]
          exact event_step known.ordered fits taken calm
      | i + 2 =>
        have fits := allowed.1
        rw [known.others i] at fits
        exact fits.elim

/-- hostapd answers with `status`. -/
def answer (status : Int32) (w : World) : (o : Op) → o.Reply × World
  | .enterEvent => (w.begun, { w with begun := w.begun + 1 })
  | .claim slot number =>
    if (w.slots slot).state = .free then
      (true, w.setSlot slot { w.slots slot with state := .writing, number := number })
    else (false, w)
  | .fill slot delivery =>
    ((), w.setSlot slot { w.slots slot with frame := delivery.write (w.slots slot).frame })
  | .publish slot => ((), w.setState slot .ready)
  | .seize slot =>
    if (w.slots slot).state = .ready then (true, w.setState slot .reading) else (false, w)
  | .read slot => (((w.slots slot).number, (w.slots slot).frame), w)
  | .release slot => ((), w.setState slot .free)
  | .feed _ _ => (status, w)
  | .drainEapol => (0, w)
  | .wakeRunner | .leaveEvent => ((), w)

theorem atom_answer (status : Int32) (w : World) (o : Op) :
    Atom w o (answer status w o).1 (answer status w o).2 := by
  cases o with
  | claim | seize =>
    unfold Atom answer
    dsimp only
    split <;> exact ⟨rfl, rfl⟩
  | enterEvent | read => exact ⟨rfl, rfl⟩
  | _ => rfl

/-- A slot is claimed by the thread of the events when those behind it are free. -/
def Op.orderly (i : Nat) (w : World) : Op → Bool
  | .claim slot _ => 0 ≠ i ∧ ∀ b, slot < b → (w.slots b).state = .free
  | _ => true

def joins (address : List UInt8) : Delivery := .newStation 0 ⟨none, 0⟩ address

/-- If callbacks get their slots between the drains, and only with free slots behind them, events are
fed in the order of their callbacks. -/
theorem events_fed_in_order (run : Run (eventSystem.keeping Orderly) (.new .new) labels pool) :
    (fed labels).Pairwise (· < ·) := by
  obtain ⟨r, e, known⟩ := placed_of_run run
  exact (pairwise_append.mp known.ordered.sorted).1

/-- Two stations join, one before each of two drains. -/
theorem two_associations_fed_in_order : ∃ (labels : List (PoolLabel ops)) (pool : Pool ops World),
      Run (eventSystem.keeping Orderly) (.new .new) labels pool ∧
      fed labels = [0, 1] ∧ (fed labels).Pairwise (· < ·) := by
  have complies : Complies Atom (answer 0) Orderly (fun _ => True) Op.orderly True := by
    refine ⟨fun _ _ => trivial, fun i threads w o beside _ fits => ⟨atom_answer 0 w o, ?_, trivial⟩⟩
    cases o with
    | claim slot number =>
      obtain ⟨other, behind⟩ := of_decide_eq_true fits
      cases (answer 0 w (.claim slot number)).1 with
      | true => exact ⟨beside trivial 0 other, behind⟩
      | false => trivial
    | _ => trivial
  let drain : Task Unit := drainDriverInput.bind fun _ => pure ()
  have ended : Run (eventSystem.keeping Orderly) (.new .new) _ _ ∧ _ :=
    serve_keeping complies 20 [(1, callback (joins [1])), (0, drain), (1, callback (joins [2])), (0, drain)]
      (by simp [eventTasks, drain]) .new trivial rfl
  exact ⟨_, _, ended.1, by decide +kernel, events_fed_in_order ended.1⟩

/-- A station leaves after it joined, and hostapd is told the other way round: if both events come
while the runner is between the two slots, or if a drain fails at the slot before them. -/
theorem removal_fed_before_association : (∃ (labels : List (PoolLabel ops)) (pool : Pool ops World),
      Run eventSystem (.new .new) labels pool ∧
      feeds labels = [(0, .associated [1] [] 0), (2, .disassociated [7]), (1, .associated [7] [] 0)]) ∧
    ∃ (labels : List (PoolLabel ops)) (pool : Pool ops World),
      Run eventSystem (.new .new) labels pool ∧
      feeds labels = [(0, .associated [1] [] 0), (2, .disassociated [7]), (1, .associated [7] [] 0)] := by
  have first : Run eventSystem (.new .new) _ _ :=
    run_job (atom_answer 0) 10 (i := 1) (.inr ⟨rfl, joins [1], rfl⟩) rfl
  constructor
  · have between := first.trans (run_job (atom_answer 0) 4 (i := 0) (.inl ⟨rfl, rfl⟩) rfl)
    have joined := between.trans (run_job (atom_answer 0) 10 (i := 1) (.inr ⟨rfl, joins [7], rfl⟩) rfl)
    have left := joined.trans
      (run_job (atom_answer 0) 10 (i := 1) (.inr ⟨rfl, .delStation [7], rfl⟩) rfl)
    have drained := left.trans (run_drive (atom_answer 0) 10 0 _ _ rfl)
    have again := drained.trans (run_job (atom_answer 0) 10 (i := 0) (.inl ⟨rfl, rfl⟩) rfl)
    exact ⟨_, _, again, rfl⟩
  · have joined := first.trans (run_job (atom_answer 0) 10 (i := 1) (.inr ⟨rfl, joins [7], rfl⟩) rfl)
    have failed := joined.trans (run_job (atom_answer (-1)) 10 (i := 0) (.inl ⟨rfl, rfl⟩) rfl)
    have left := failed.trans
      (run_job (atom_answer 0) 10 (i := 1) (.inr ⟨rfl, .delStation [7], rfl⟩) rfl)
    have again := left.trans (run_job (atom_answer 0) 10 (i := 0) (.inl ⟨rfl, rfl⟩) rfl)
    exact ⟨_, _, again, rfl⟩

end HisiRf.DriverEvents
