import HisiRf.Interaction.Alone
import HisiRf.Timer.Swtmr
import HisiRf.Timer.Tidy

/-! What the calls of the timer service do to the timer of a control block.

Such a timer has no slot, a slot that is not armed or a slot that is armed. Each
call of the service, carried out without interruption, is specified by what it does
to its own timer and by what it leaves alone.
-/

namespace HisiRf.Swtmr

open Interaction Function
open EventGroup (osalOk osalNok)
open Timer (Owns SlotIndex OsalTimer handleOf slotOf)

variable {o o' : Timer.World} {slot : SlotIndex} {index : Index} {armed : Option Bool}

variable {o'' : Timer.World} {timer other : Nat} {next : Timer.Slot} {object : OsalTimer}

def core (object : OsalTimer) : Nat × Option Nat × UInt32 := (object.timer, object.handler, object.data)

/-- Neither the slots of a timer nor what it says have changed. -/
structure Untouched (o o' : Timer.World) (timer : Nat) : Prop where
  slots : ∀ slot, Owns o timer slot ∨ Owns o' timer slot → o'.slots slot = o.slots slot
  core : core (o'.objects timer) = core (o.objects timer)

section

variable (kept : Untouched o o' timer)
include kept

theorem Untouched.handle : o'.handle timer = o.handle timer :=
  congrArg (fun all => all.1) kept.core

theorem Untouched.handler :
    (o'.objects timer).handler = (o.objects timer).handler :=
  congrArg (fun all => all.2.1) kept.core

theorem Untouched.data :
    (o'.objects timer).data = (o.objects timer).data :=
  congrArg (fun all => all.2.2) kept.core

end

theorem Untouched.refl (o : Timer.World) (timer : Nat) : Untouched o o timer := ⟨fun _ _ => rfl, rfl⟩

theorem owns_of_same (same : o'.slots slot = o.slots slot) (owns : Owns o timer slot) :
    Owns o' timer slot :=
  ⟨owns.real, (congrArg Timer.Slot.used same).trans owns.used,
    (congrArg Timer.Slot.timer same).trans owns.timer⟩

theorem Untouched.trans (first : Untouched o o' timer) (second : Untouched o' o'' timer) :
    Untouched o o'' timer where
  slots slot owned := by
    rcases owned with owns | owns
    · have same := first.slots slot (.inl owns)
      exact (second.slots slot (.inl (owns_of_same same owns))).trans same
    · have same := second.slots slot (.inr owns)
      exact same.trans (first.slots slot (.inr (owns_of_same same.symm owns)))
  core := second.core.trans first.core

theorem untouched_notes (o : Timer.World) (calls : Nat → Option Timer.Call) (batch : Nat → List Nat)
    (timer : Nat) : Untouched o { o with calls := calls, batch := batch } timer :=
  ⟨fun _ _ => rfl, rfl⟩

theorem untouched_setObject (kept : other ≠ timer ∨ core object = core (o.objects timer)) :
    Untouched o (o.setObject other object) timer where
  slots _ _ := rfl
  core := by
    change core (update o.objects other object timer) = _
    by_cases same : timer = other
    · subst same
      rw [update_self]
      exact kept.resolve_left fun differ => differ rfl
    · rw [update_of_ne same]

structure Holds (o : Timer.World) (index : Index) (slot : SlotIndex) (active : Bool) : Prop where
  handle : o.handle (runtime index) = handleOf slot
  owns : Owns o (runtime index) slot
  only : ∀ other, Owns o (runtime index) other → other = slot
  active : (o.slots slot).active = active
  single : (o.slots slot).periodic = false
  data : (o.objects (runtime index)).data = index.val.toUInt32

/-- Whether the timer has a slot, and then whether it is armed. -/
def Below (o : Timer.World) (index : Index) : Option Bool → Prop
  | none => o.handle (runtime index) = 0 ∧ ∀ slot, ¬Owns o (runtime index) slot
  | some active => ∃ slot, Holds o index slot active

structure Placed (o : Timer.World) (index : Index) (armed : Option Bool) : Prop where
  handler : (o.objects (runtime index)).handler = some swtmrFireEntry
  below : Below o index armed

theorem Holds.untouched {active : Bool} (holds : Holds o index slot active)
    (kept : Untouched o o' (runtime index)) : Holds o' index slot active := by
  have same := kept.slots slot (.inl holds.owns)
  refine ⟨kept.handle.trans holds.handle, owns_of_same same holds.owns, ?_, ?_, ?_,
    kept.data.trans holds.data⟩
  · intro other owns
    have back := kept.slots other (.inr owns)
    exact holds.only other (owns_of_same back.symm owns)
  · rw [same, holds.active]
  · rw [same, holds.single]

theorem Placed.untouched (placed : Placed o index armed) (kept : Untouched o o' (runtime index)) :
    Placed o' index armed := by
  refine ⟨kept.handler.trans placed.handler, ?_⟩
  have below := placed.below
  cases armed with
  | none =>
    refine ⟨kept.handle.trans below.1, fun slot owns => below.2 slot ?_⟩
    exact owns_of_same (kept.slots slot (.inr owns)).symm owns
  | some =>
    obtain ⟨slot, holds⟩ := below
    exact ⟨slot, holds.untouched kept⟩

def Spares (timer : Nat) (o o' : Timer.World) : Prop := ∀ other, other ≠ timer → Untouched o o' other

theorem Spares.trans (first : Spares timer o o') (second : Spares timer o' o'') :
    Spares timer o o'' := fun other differ => (first other differ).trans (second other differ)

theorem spares_setObject (timer : Nat) (object : OsalTimer) : Spares timer o (o.setObject timer object) :=
  fun _ differ => untouched_setObject (.inl differ.symm)

theorem spares_setSlot (mine : ∀ other, Owns o other slot → other = timer)
    (after : next.used = true → next.timer = timer ∨ next.timer = 0) :
    Spares timer o (o.setSlot slot next) := by
  intro other differ
  refine ⟨fun place owned => ?_, rfl⟩
  by_cases same : place = slot
  · subst same
    rcases owned with owns | owns
    · exact absurd (mine other owns) differ
    · have used := owns.used
      have named := owns.timer
      rw [Timer.setSlot_self] at used named
      rcases after used with ours | null
      · exact absurd (named.symm.trans ours) differ
      · exact absurd (named.symm.trans null) owns.real
  · exact Timer.setSlot_of_ne same next

theorem Holds.setSlot {active : Bool} (holds : Holds o index slot active) (used : next.used = true)
    (named : next.timer = runtime index) (single : next.periodic = false) :
    Holds (o.setSlot slot next) index slot next.active where
  handle := holds.handle
  owns := ⟨runtime_ne_zero index, by rw [Timer.setSlot_self, used], by rw [Timer.setSlot_self, named]⟩
  only other owns := by
    by_cases same : other = slot
    · exact same
    · exact holds.only other (owns.of_setSlot same)
  active := by rw [Timer.setSlot_self]
  single := by rw [Timer.setSlot_self, single]
  data := holds.data

variable {active : Bool} {call : Timer.Call}

/-- The timer is now in this state, and no other timer was affected. -/
structure Serves (index : Index) (o : Timer.World) (armed : Option Bool) (o' : Timer.World) : Prop where
  placed : Placed o' index armed
  spares : Spares (runtime index) o o'

theorem task_establishes {result : Int32 → Option Bool → Prop}
    (body : ∀ notes, call.body.Establishes Timer.Atom
      (fun status after => ∃ armed, result status armed ∧
        Serves index { o with calls := notes } armed after) { o with calls := notes }) (thread : Nat) :
    (call.task thread).Establishes Timer.Atom
      (fun status after => ∃ armed, result status armed ∧ Serves index o armed after) o := by
  intro _ entered taken
  cases taken with
  | enter =>
    change (call.body.bind _).Establishes Timer.Atom _ _
    refine Program.Establishes.bind ((body _).mono ?_)
    intro status middle ends _ after taken
    obtain ⟨armed, fits, placed, spares⟩ := ends
    cases taken with
    | leave =>
      refine ⟨armed, fits, placed.untouched (untouched_notes middle _ _ _), fun other differ => ?_⟩
      exact ((untouched_notes o _ _ other).trans (spares other differ)).trans
        (untouched_notes middle _ _ other)

theorem slotOfTimer_establishes (index : Index) :
    (Timer.slotOfTimer (runtime index)).Establishes Timer.Atom
      (fun found after => found = slotOf (o.handle (runtime index)) ∧ after = o) o := by
  intro handle after taken
  cases taken with
  | readHandle => exact ⟨rfl, rfl⟩

theorem mod_establishes (placed : Placed o index (some active)) {interval : UInt32}
    (positive : interval ≠ 0) : (Timer.osalTimerMod (runtime index) interval).Establishes Timer.Atom
      (fun status after => ∃ armed, (status = osalOk ∧ armed = some true) ∧
        Serves index o armed after) o := by
  unfold Timer.osalTimerMod
  rw [if_neg positive]
  refine Program.Establishes.bind ((slotOfTimer_establishes index).mono ?_)
  intro found after ends
  obtain ⟨slot, holds⟩ := placed.below
  rw [ends.1, ends.2, holds.handle, Timer.slotOf_handleOf]
  intro _ named taken
  cases taken with
  | setInterval =>
    intro now timed taken
    cases taken with
    | nowMs =>
      intro status after taken
      have kept : Untouched o (o.setObject (runtime index)
          { o.objects (runtime index) with interval := interval }) (runtime index) :=
        untouched_setObject (.inr rfl)
      have still := holds.untouched kept
      cases taken with
      | arm =>
        unfold Timer.World.arm
        rw [if_pos still.owns.used]
        refine ⟨some true, ⟨rfl, rfl⟩, ⟨(placed.untouched kept).handler, slot, ?_⟩, ?_⟩
        · exact still.setSlot still.owns.used still.owns.timer rfl
        · refine (spares_setObject _ _).trans (spares_setSlot (fun other owns => ?_) fun _ => ?_)
          · exact owns.timer.symm.trans still.owns.timer
          · exact .inl still.owns.timer

theorem Serves.refl (placed : Placed o index armed) : Serves index o armed o :=
  ⟨placed, fun _ _ => .refl o _⟩

theorem stop_establishes (placed : Placed o index (some active)) :
    (Timer.osalTimerStop (runtime index)).Establishes Timer.Atom
      (fun status after => ∃ armed, (status = (if active then 1 else 0) ∧ armed = some false) ∧
        Serves index o armed after) o := by
  refine Program.Establishes.bind ((slotOfTimer_establishes index).mono ?_)
  intro found after ends
  obtain ⟨slot, holds⟩ := placed.below
  rw [ends.1, ends.2, holds.handle, Timer.slotOf_handleOf]
  intro wasActive after taken
  cases taken with
  | disarm =>
    refine ⟨some false, ⟨?_, rfl⟩, ⟨placed.handler, slot, ?_⟩, ?_⟩
    · change (if (o.slots slot).active then (1 : Int32) else 0) = _
      rw [holds.active]
    · exact holds.setSlot holds.owns.used holds.owns.timer holds.single
    · refine spares_setSlot (fun other owns => ?_) fun _ => .inl holds.owns.timer
      exact owns.timer.symm.trans holds.owns.timer

theorem destroy_establishes (placed : Placed o index armed) :
    (Timer.osalTimerDestroy (runtime index)).Establishes Timer.Atom
      (fun _ after => ∃ armed, armed = none ∧ Serves index o armed after) o := by
  refine Program.Establishes.bind ((slotOfTimer_establishes index).mono ?_)
  intro found after ends
  rw [ends.1, ends.2]
  cases armed with
  | none =>
    rw [placed.below.1]
    exact ⟨none, rfl, .refl placed⟩
  | some =>
    obtain ⟨slot, holds⟩ := placed.below
    rw [holds.handle, Timer.slotOf_handleOf]
    intro _ cleared taken
    cases taken with
    | clear =>
      intro _ after taken
      cases taken with
      | setHandle =>
        have mine (other : Nat) (owns : Owns o other slot) : other = runtime index :=
          owns.timer.symm.trans holds.owns.timer
        refine ⟨none, rfl, ⟨?_, ?_, ?_⟩, ?_⟩
        · change (update o.objects (runtime index) _ (runtime index)).handler = _
          rw [update_self]
          exact placed.handler
        · rw [Timer.handle_setObject, if_pos rfl]
        · intro other owns
          by_cases same : other = slot
          · have used := owns.used
            rw [same] at used
            change ((o.setSlot slot .empty).slots slot).used = true at used
            rw [Timer.setSlot_self] at used
            cases used
          · have before : Owns (o.setSlot slot .empty) (runtime index) other :=
              ⟨owns.real, owns.used, owns.timer⟩
            exact same (holds.only other (before.of_setSlot same))
        · exact (spares_setSlot mine (by nofun)).trans (spares_setObject _ _)

section

variable (placed : Placed o index none)
  (data : (o.objects (runtime index)).data = index.val.toUInt32)
include placed data

theorem register_establishes (free : o.freeSlot = some slot) :
    (Timer.afterAlloc (runtime index) (some slot)).Establishes Timer.Atom
      (fun status after => ∃ armed,
        (status = osalOk ∧ armed = some false ∨ status = osalNok ∧ armed = none) ∧
        Serves index o armed after) (o.setSlot slot { Timer.Slot.empty with used := true }) := by
  let reserved := o.setSlot slot { Timer.Slot.empty with used := true }
  let named := reserved.setObject (runtime index)
    { reserved.objects (runtime index) with timer := handleOf slot }
  have here : named.slots slot = { Timer.Slot.empty with used := true } := Timer.setSlot_self _
  have object : (named.register slot (runtime index)).objects (runtime index) =
      { o.objects (runtime index) with timer := handleOf slot } := update_self _ _ _
  have given : (named.register slot (runtime index)).slots slot = { named.slots slot with
      timer := runtime index
      interval := (named.objects (runtime index)).interval.toUInt64 } := Timer.setSlot_self _
  intro _ after taken
  cases taken with
  | setHandle =>
    intro _ after taken
    cases taken with
    | register =>
      refine ⟨some false, .inl ⟨rfl, rfl⟩, ⟨?_, slot, ?_⟩, ?_⟩
      · exact (congrArg OsalTimer.handler object).trans placed.handler
      · refine ⟨congrArg OsalTimer.timer object, ⟨runtime_ne_zero index, ?_, ?_⟩, ?_, ?_, ?_,
          (congrArg OsalTimer.data object).trans data⟩
        · exact (congrArg Timer.Slot.used given).trans (congrArg Timer.Slot.used here)
        · exact congrArg Timer.Slot.timer given
        · intro other owns
          by_contra differ
          have before : Owns reserved (runtime index) other :=
            have moved := owns.of_setSlot differ
            ⟨moved.real, moved.used, moved.timer⟩
          exact placed.below.2 other (before.of_setSlot differ)
        · exact (congrArg Timer.Slot.active given).trans (congrArg Timer.Slot.active here)
        · exact (congrArg Timer.Slot.periodic given).trans (congrArg Timer.Slot.periodic here)
      refine (spares_setSlot (fun other owns => ?_) fun _ => .inr rfl).trans
        ((spares_setObject (runtime index) _).trans
          (spares_setSlot (fun other owns => ?_) fun _ => .inl rfl))
      · have used := owns.used
        rw [Timer.unused_of_freeSlot free] at used
        cases used
      · have null := owns.timer
        rw [here] at null
        exact absurd null.symm owns.real

/-- The timer gets a slot of its own that is not armed, or everything stays as it was. -/
theorem init_establishes : (Timer.osalTimerInit (runtime index)).Establishes Timer.Atom
      (fun status after => ∃ armed,
        (status = osalOk ∧ armed = some false ∨ status = osalNok ∧ armed = none) ∧
        Serves index o armed after) o := by
  have stays : ∃ armed, (osalNok = osalOk ∧ armed = some false ∨ osalNok = osalNok ∧ armed = none) ∧
      Serves index o armed o := ⟨none, .inr ⟨rfl, rfl⟩, .refl placed⟩
  intro object after taken
  cases taken with
  | inspect =>
    change (if (o.objects (runtime index)).ready then _ else _ : Timer.Task Int32).Establishes _ _ _
    split
    next =>
      intro started after taken
      cases taken with
      | ensureTimerWorker started =>
        cases started with
        | false => exact stays
        | true =>
          intro found after taken
          cases taken with
          | allocSlot =>
            unfold Timer.World.allocSlot
            cases free : o.freeSlot with
            | none => exact stays
            | some => exact register_establishes placed data free
    next => exact stays

end

end HisiRf.Swtmr
