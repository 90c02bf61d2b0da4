import HisiRf.Timer.Links
import Mathlib.Data.Fintype.Card

/-! The table of timers between the calls.

The invariant of handles and slots is carried through whole runs, with any number
of tasks and with handlers that make calls of their own. When no call is under way
nothing is left in between, and the slots count the timers.
-/

namespace HisiRf.Timer

open Interaction Function World Finset
open EventGroup (osalOk osalNok)

/-- Calls on one timer do not overlap, and no timer is reset while it is registered. -/
def Undisturbed (w : World) : Op → Prop
  | .enter thread call =>
    ∀ j other, j ≠ thread → w.calls j = some other → ¬Conflict call other
  | .reset timer _ _ _ => (w.objects timer).timer = 0
  | _ => True

variable {w w' : World} {places : Nat → Phase} {i : Nat} {call : Call} {old new : Progress} {o : Op}
  {reply : o.Reply}

theorem sameTable_notes (w : World) (calls : Nat → Option Call) (batch : Nat → List Nat) :
    SameTable w { w with calls := calls, batch := batch } :=
  ⟨fun _ => rfl, fun _ => rfl, fun _ => rfl, fun _ _ off => off⟩

theorem sameTable_setObject {timer : Nat} {next : OsalTimer} (keeps : next.timer = w.handle timer) :
    SameTable w (w.setObject timer next) where
  used _ := rfl
  timer _ := rfl
  handle other := by
    rw [handle_setObject]
    split
    next same => rw [keeps, same]
    next => rfl
  quiet _ _ off := off

variable {slot : SlotIndex}

theorem sameTable_setSlot {next : Slot} (used : next.used = (w.slots slot).used)
    (timer : next.timer = (w.slots slot).timer) (quiet : Vacant w slot → next.active = false) :
    SameTable w (w.setSlot slot next) where
  used other := by
    by_cases same : other = slot
    · rw [same, setSlot_self, used]
    · rw [setSlot_of_ne same]
  timer other := by
    by_cases same : other = slot
    · rw [same, setSlot_self, timer]
    · rw [setSlot_of_ne same]
  handle _ := rfl
  quiet other vacant off := by
    by_cases same : other = slot
    · subst same
      rw [setSlot_self, quiet vacant]
    · rw [setSlot_of_ne same, off]

theorem sameTable_arm (w : World) (owned : (w.slots slot).timer ≠ 0) (now : UInt64)
    (interval : UInt32) : SameTable w (w.arm slot now interval).2 := by
  unfold arm
  split
  · exact sameTable_setSlot rfl rfl fun vacant => absurd vacant.timer owned
  · exact .refl w

theorem sameTable_disarm (w : World) (slot : SlotIndex) : SameTable w (w.disarm slot).2 :=
  sameTable_setSlot rfl rfl fun _ => rfl

theorem expire_keeps (now : UInt64) (slot : Slot) :
    (expire now slot).used = slot.used ∧ (expire now slot).timer = slot.timer := by
  unfold expire
  split <;> exact ⟨rfl, rfl⟩

/-- A sweep does not arm. -/
theorem collect_inactive (thread : Nat) (now : UInt64) (off : (w.slots slot).active = false) :
    ((w.collect thread now).2.slots slot).active = false := by
  have early : w.isDue now slot = false := by
    unfold isDue
    rw [off, Bool.and_false, Bool.false_and]
  change (if w.isDue now slot then expire now (w.slots slot) else w.slots slot).active = _
  rw [early]
  exact off

theorem sameTable_collect (w : World) (thread : Nat) (now : UInt64) :
    SameTable w (w.collect thread now).2 where
  used slot := by
    change (if w.isDue now slot then expire now (w.slots slot) else w.slots slot).used = _
    split
    · exact (expire_keeps now _).1
    · rfl
  timer slot := by
    change (if w.isDue now slot then expire now (w.slots slot) else w.slots slot).timer = _
    split
    · exact (expire_keeps now _).2
    · rfl
  handle _ := rfl
  quiet _ _ := collect_inactive thread now

theorem handle_of_ready {object : OsalTimer} (ready : object.ready = true) : object.timer = 0 := by
  unfold OsalTimer.ready at ready
  simp only [Bool.and_eq_true, beq_iff_eq] at ready
  exact ready.1.2

/-- Each timer that is registered has exactly the slot that it names, and there are no other slots. -/
structure Tidy (w : World) : Prop where
  single : ∀ slot other, (w.slots slot).used = true → (w.slots other).used = true →
    (w.slots slot).timer = (w.slots other).timer → slot = other
  named : ∀ slot, (w.slots slot).used = true →
    (w.objects (w.slots slot).timer).timer = handleOf slot
  unnamed : ∀ timer slot, (w.objects timer).timer = 0 → (w.slots slot).used = true →
    (w.slots slot).timer ≠ timer
  count : ∃ live : Finset Nat, (∀ timer, timer ∈ live ↔ (w.objects timer).timer ≠ 0) ∧
    live.card = (univ.filter fun slot : SlotIndex => (w.slots slot).used = true).card

section

variable (linked : Linked w places)
include linked

section

variable (same : SameTable w w') (calls : w'.calls = w.calls)
include same calls

theorem Linked.pass (batch : w'.batch = w.batch) (doing : (places i).doing = some (call, old))
    (before : old.names = none ∧ old.reserves = none)
    (after : new.names = none ∧ new.reserves = none) (fits : new.Fits w call) :
    Linked w' (update places i { places i with doing := some (call, new) }) := by
  have current : w.calls i = some call := by rw [linked.calls, doing]; rfl
  refine linked.frame same { places i with doing := some (call, new) } (linked.thread i) ?_ ?_ ?_ ?_
    ?_ ?_
  · grind
  · rw [batch]
    exact (linked.batch i ▸ (update_eq_self i w.batch).symm :)
  · intro j mine other differ now busy
    cases now
    exact linked.apart i j _ other differ.symm current busy
  · grind
  · intro other progress now
    rw [doing] at now
    cases now
    exact before
  · intro other progress now
    cases now
    exact after

theorem Linked.idle (doing : (places i).doing = none) {pending : List Nat}
    (batch : w'.batch = update w.batch i pending) :
    Linked w' (update places i { places i with pending := pending }) := by
  have current : w.calls i = none := by rw [linked.calls, doing]; rfl
  refine linked.frame same { places i with pending := pending } (linked.thread i) ?_ batch ?_ ?_ ?_ ?_
  · grind
  · grind
  · grind
  · intro call progress now
    rw [doing] at now
    cases now
  · intro call progress now
    rw [doing] at now
    cases now

end

theorem Linked.hold (doing : (places i).doing = some (call, .begun))
    (names : call.registers = false) : Linked w (update places i
      { places i with doing := some (call, afterHandle (slotOf (w.handle call.timer))) }) := by
  cases found : slotOf (w.handle call.timer) with
  | none => exact linked.pass (.refl w) rfl rfl doing ⟨rfl, rfl⟩ ⟨rfl, rfl⟩ trivial
  | some slot =>
    have named := eq_handleOf_of_slotOf found
    refine linked.pass (.refl w) rfl rfl doing ⟨rfl, rfl⟩ ⟨rfl, rfl⟩ ⟨names, named, ?_⟩
    -- Nobody else has the timer registered or destroyed by half, for that would be a conflict.
    rcases linked.owned _ slot named with owns | ⟨j, other, progress, busy, same, missing⟩
    · exact owns
    have different : j ≠ i := by
      intro mine
      rw [mine, doing] at busy
      cases busy
      cases missing
    have mine : w.calls i = some call := by rw [linked.calls, doing]; rfl
    have his : w.calls j = some other := by rw [linked.calls, busy]; rfl
    have apart := linked.apart j i other call different his mine
    have strict : other.isMod = false := by
      have fits := linked.fits j other progress busy
      cases progress with
      | linked => exact strict_of_registers fits.1
      | cleared => rw [fits.1]; rfl
      | _ => cases missing
    exact absurd same.symm (timer_ne_of_apart apart strict)

theorem Linked.leave (doing : (places i).doing = some (call, old))
    (before : old.names = none ∧ old.reserves = none) (status : Int32) :
    Linked { w with calls := update w.calls (places i).thread none }
      (update places i
        (phases.after (places i) ⟨.leave (places i).thread call status, ()⟩)) := by
  rw [after_leave doing]
  refine linked.frame (sameTable_notes w _ _) { places i with doing := none } (linked.thread i) ?_ ?_
    (fun _ _ _ _ now => by cases now) (fun _ _ now => by cases now) ?_ (fun _ _ now => by cases now)
  · rw [linked.thread]
    rfl
  · exact (linked.batch i ▸ (update_eq_self i w.batch).symm :)
  · intro call progress now
    rw [doing] at now
    cases now
    exact before

theorem Linked.inside (doing : (places i).doing = some (call, old))
    (allowed : old.allows (places i).thread call o) (taken : Atom w o reply w')
    (undisturbed : Undisturbed w o) :
    Linked w' (update places i (phases.after (places i) ⟨o, reply⟩)) := by
  have knows := linked.fits i call old doing
  cases old with
  | begun =>
    cases taken with
    | reset timer func data interval =>
      rw [after_inside doing rfl]
      have same : SameTable w (w.setObject timer ⟨0, some func, data, interval⟩) :=
        sameTable_setObject undisturbed.symm
      exact linked.pass same rfl rfl doing ⟨rfl, rfl⟩ ⟨rfl, rfl⟩ trivial
    | inspect =>
      rw [after_inside doing rfl]
      obtain ⟨registers, rfl, real⟩ := allowed
      change Linked w (update places i { places i with
        doing := some (call, if (w.objects call.timer).ready then .checked else .ended) })
      split
      next ready =>
        exact linked.pass (.refl w) rfl rfl doing ⟨rfl, rfl⟩ ⟨rfl, rfl⟩
          ⟨registers, real, handle_of_ready ready⟩
      next => exact linked.pass (.refl w) rfl rfl doing ⟨rfl, rfl⟩ ⟨rfl, rfl⟩ trivial
    | readHandle =>
      rw [after_inside doing rfl]
      obtain ⟨names, rfl, _⟩ := allowed
      exact linked.hold doing names
    | leave thread other status =>
      obtain ⟨rfl, rfl, _⟩ := allowed
      exact linked.leave doing ⟨rfl, rfl⟩ status
    | _ => exact allowed.elim
  | checked =>
    cases taken with
    | ensureTimerWorker started =>
      rw [after_inside doing rfl]
      cases started with
      | true => exact linked.pass (.refl w) rfl rfl doing ⟨rfl, rfl⟩ ⟨rfl, rfl⟩ knows
      | false => exact linked.pass (.refl w) rfl rfl doing ⟨rfl, rfl⟩ ⟨rfl, rfl⟩ trivial
    | allocSlot =>
      rw [after_inside doing rfl]
      unfold allocSlot
      cases free : w.freeSlot with
      | none => exact linked.pass (.refl w) rfl rfl doing ⟨rfl, rfl⟩ ⟨rfl, rfl⟩ trivial
      | some => exact linked.alloc doing free
    | _ => exact allowed.elim
  | allocated =>
    cases taken with
    | setHandle =>
      rw [after_inside doing rfl]
      obtain ⟨rfl, rfl⟩ := allowed
      exact linked.link doing
    | _ => exact allowed.elim
  | linked =>
    cases taken with
    | register =>
      rw [after_inside doing rfl]
      obtain ⟨rfl, rfl⟩ := allowed
      exact linked.register doing
    | _ => exact allowed.elim
  | holding =>
    cases taken with
    | setInterval =>
      rw [after_inside doing rfl]
      exact linked.pass (sameTable_setObject rfl) rfl rfl doing ⟨rfl, rfl⟩ ⟨rfl, rfl⟩ knows
    | nowMs =>
      rw [after_inside doing rfl]
      exact linked.pass (.refl w) rfl rfl doing ⟨rfl, rfl⟩ ⟨rfl, rfl⟩ knows
    | arm timer k now interval =>
      rw [after_inside doing rfl]
      obtain ⟨rfl, rfl⟩ := allowed
      have owned : (w.slots k).timer ≠ 0 := knows.2.2.timer ▸ knows.2.2.real
      have kept := w.arm_notes k now interval
      exact linked.pass (sameTable_arm w owned now interval) kept.1 kept.2 doing ⟨rfl, rfl⟩
        ⟨rfl, rfl⟩ trivial
    | disarm timer k =>
      rw [after_inside doing rfl]
      exact linked.pass (sameTable_disarm w k) rfl rfl doing ⟨rfl, rfl⟩ ⟨rfl, rfl⟩ trivial
    | clear =>
      rw [after_inside doing rfl]
      obtain ⟨rfl, rfl⟩ := allowed
      exact linked.clear doing
    | _ => exact allowed.elim
  | cleared =>
    cases taken with
    | setHandle =>
      rw [after_inside doing rfl]
      obtain ⟨rfl, rfl⟩ := allowed
      exact linked.unlink doing
    | _ => exact allowed.elim
  | ended =>
    cases taken with
    | leave thread other status =>
      obtain ⟨rfl, rfl⟩ := allowed
      exact linked.leave doing ⟨rfl, rfl⟩ status
    | _ => exact allowed.elim

theorem Linked.outside (doing : (places i).doing = none) (allowed : (places i).allowsOutside o)
    (taken : Atom w o reply w') (undisturbed : Undisturbed w o) :
    Linked w' (update places i (phases.after (places i) ⟨o, reply⟩)) := by
  have batch : w.batch = update w.batch i (places i).pending :=
    (linked.batch i ▸ (update_eq_self i w.batch).symm :)
  rw [after_outside doing]
  cases taken with
  | enter thread call =>
    obtain rfl : thread = i := allowed.trans (linked.thread i)
    refine linked.frame (sameTable_notes w _ _) { places thread with doing := some (call, .begun) }
      (linked.thread thread) rfl batch ?_ ?_ ?_ ?_
    · intro j mine other differ now busy
      cases now
      exact undisturbed j other differ busy
    · intro other progress now
      cases now
      trivial
    · intro other progress now
      rw [doing] at now
      cases now
    · intro other progress now
      cases now
      exact ⟨rfl, rfl⟩
  | collect thread now =>
    obtain rfl : thread = i := allowed.trans (linked.thread i)
    exact linked.idle (sameTable_collect w thread now) rfl doing rfl
  | dispatch thread =>
    obtain rfl : thread = i := allowed.1.trans (linked.thread i)
    have kept : SameTable w { w with
        batch := update w.batch thread (w.batch thread).tail } := sameTable_notes w _ _
    refine linked.idle kept rfl doing ?_
    rw [linked.batch]
  | populate timer handler data interval =>
    have kept : SameTable w (w.setObject timer ⟨(w.objects timer).timer, handler, data, interval⟩) :=
      sameTable_setObject rfl
    exact linked.idle kept rfl doing batch
  | nowMs | readCallback | plan | nextCall => exact linked.idle (.refl w) rfl doing batch
  | _ => exact allowed.elim

theorem Linked.step (allowed : phases.allows (places i) o) (taken : Atom w o reply w')
    (undisturbed : Undisturbed w o) :
    Linked w' (update places i (phases.after (places i) ⟨o, reply⟩)) := by
  rcases allows_cases allowed with ⟨doing, turn⟩ | ⟨call, progress, doing, turn⟩
  · exact linked.outside doing turn taken undisturbed
  · exact linked.inside doing turn taken undisturbed

variable (between : ∀ i, w.calls i = none)
include between

/-- When no call is under way, used slots have owners and handles have slots. -/
theorem Linked.owns_of_used (used : (w.slots slot).used = true) :
    Owns w (w.slots slot).timer slot := by
  refine ⟨?_, used, rfl⟩
  intro null
  obtain ⟨_, i, call, progress, doing, _⟩ := linked.reserved slot ⟨used, null⟩
  have current := linked.calls i
  rw [between, doing] at current
  cases current

theorem Linked.owns_of_handle {timer : Nat} (registered : w.handle timer ≠ 0) :
    ∃ slot, Owns w timer slot := by
  cases found : slotOf (w.handle timer) with
  | none => exact absurd ((slotOf_none_iff (linked.bounded timer)).mp found) registered
  | some slot =>
    rcases linked.owned timer slot (eq_handleOf_of_slotOf found) with owns | half
    · exact ⟨slot, owns⟩
    · obtain ⟨i, call, progress, doing, _⟩ := half
      have current := linked.calls i
      rw [between, doing] at current
      cases current

theorem Linked.tidy : Tidy w where
  single slot other used also same := by
    have first := linked.named _ slot (linked.owns_of_used between used)
    have second := linked.named _ other (linked.owns_of_used between also)
    rw [same, second] at first
    exact (handleOf_inj first).symm
  named slot used := linked.named _ slot (linked.owns_of_used between used)
  unnamed timer slot null used same := by
    have owns := linked.owns_of_used between used
    rw [same] at owns
    exact linked.ownless null slot owns
  count := by
    refine ⟨(univ.filter fun slot : SlotIndex => (w.slots slot).used = true).image
      fun slot => (w.slots slot).timer, ?_, ?_⟩
    · intro timer
      simp only [mem_image, mem_filter, mem_univ, true_and]
      constructor
      · rintro ⟨slot, used, rfl⟩ null
        exact linked.ownless null slot (linked.owns_of_used between used)
      · intro registered
        obtain ⟨slot, owns⟩ := linked.owns_of_handle between registered
        exact ⟨slot, owns.used, owns.timer⟩
    · refine card_image_of_injOn ?_
      intro slot used other also same
      have first := linked.named _ slot (linked.owns_of_used between (by simpa using used))
      have second := linked.named _ other (linked.owns_of_used between (by simpa using also))
      dsimp only at same
      rw [same, second] at first
      exact (handleOf_inj first).symm

end

theorem linked_new (fields : Nat → Option Nat × UInt32 × UInt32) : Linked (.new fields) home where
  thread _ := rfl
  calls _ := rfl
  batch _ := rfl
  apart _ _ _ _ _ first := by cases first
  fits _ _ _ doing := by cases doing
  named _ _ owns := by cases owns.used
  owned _ _ names := by cases names
  bounded _ := Nat.zero_le _
  reserved _ vacant := by cases vacant.used
  distinct _ _ _ _ _ _ _ _ first := by cases first

def Orderly (pool : Pool ops World) : PoolLabel ops → Prop
  | .start _ => True
  | .act _ exchange => Undisturbed pool.world exchange.op

variable {fields : Nat → Option Nat × UInt32 × UInt32} {labels : List (PoolLabel ops)}
  {pool : Pool ops World}

theorem linked_of_run (run : Run (timerSystem.keeping Orderly) (.new (.new fields)) labels pool) :
    Linked pool.world (phaseOf phases home labels) :=
  crew_invariant tasks_obey (linked_new fields)
    (fun _ _ _ _ _ _ linked allowed taken undisturbed => linked.step allowed taken undisturbed) run

/-- Between the calls, the table and the handles agree. -/
theorem slots_match_timers
    (run : Run (timerSystem.keeping Orderly) (.new (.new fields)) labels pool)
    (between : ∀ i, pool.world.calls i = none) : Tidy pool.world :=
  (linked_of_run run).tidy between

/-- The time does not pass, the worker starts, and a handler makes one call or none. -/
def answer (now : UInt64) (script : Option Call) (w : World) : (o : Op) → o.Reply × World
  | .inspect timer => (w.objects timer, w)
  | .readHandle timer => ((w.objects timer).timer, w)
  | .setHandle timer handle => ((), w.setObject timer { w.objects timer with timer := handle })
  | .setInterval timer interval => ((), w.setObject timer { w.objects timer with interval := interval })
  | .reset timer func data interval => ((), w.setObject timer ⟨0, some func, data, interval⟩)
  | .populate timer handler data interval =>
    ((), w.setObject timer ⟨(w.objects timer).timer, handler, data, interval⟩)
  | .ensureTimerWorker => (true, w)
  | .allocSlot => w.allocSlot
  | .register slot timer => ((), w.register slot timer)
  | .nowMs => (now, w)
  | .arm _ slot now interval => w.arm slot now interval
  | .disarm _ slot => w.disarm slot
  | .clear _ slot => ((), w.setSlot slot .empty)
  | .collect thread now => w.collect thread now
  | .readCallback timer => (w.callbackOf timer, w)
  | .plan => (1, w)
  | .nextCall => (script, w)
  | .enter thread call => ((), { w with calls := update w.calls thread (some call) })
  | .leave thread _ _ => ((), { w with calls := update w.calls thread none })
  | .dispatch thread _ _ =>
    ((), { w with batch := update w.batch thread (w.batch thread).tail })

theorem atom_answer (now : UInt64) (script : Option Call) (w : World) (o : Op) :
    Atom w o (answer now script w o).1 (answer now script w o).2 := by
  cases o with
  | _ => constructor

/-- Handlers and intervals that are good enough for every timer. -/
def someFields (_ : Nat) : Option Nat × UInt32 × UInt32 := (some 7, 0, 10)

/-- Only the first thread is in a call or has collected timers. -/
structure Alone (w : World) : Prop where
  calls : ∀ j, j ≠ 0 → w.calls j = none
  batch : ∀ j, j ≠ 0 → w.batch j = []

def Op.lone : Op → Bool
  | .enter thread _ | .leave thread _ _ | .collect thread _ | .dispatch thread _ _ => thread == 0
  | .reset _ _ _ _ => false
  | _ => true

theorem Alone.atom (alone : Alone w) (taken : Atom w o reply w') (lone : o.lone = true) :
    Undisturbed w o ∧ Alone w' := by
  obtain ⟨calls, batch⟩ := alone
  cases taken with
  | enter =>
    obtain rfl := beq_iff_eq.mp lone
    refine ⟨fun j _ other busy => ?_, fun j other => (update_of_ne other _ _).trans (calls j other), batch⟩
    rw [calls j other] at busy
    cases busy
  | leave =>
    obtain rfl := beq_iff_eq.mp lone
    exact ⟨trivial, fun j other => (update_of_ne other _ _).trans (calls j other), batch⟩
  | collect | dispatch =>
    obtain rfl := beq_iff_eq.mp lone
    exact ⟨trivial, calls, fun j other => (update_of_ne other _ _).trans (batch j other)⟩
  | reset => cases lone
  | allocSlot =>
    unfold allocSlot
    split <;> exact ⟨trivial, calls, batch⟩
  | arm _ slot now interval =>
    obtain ⟨sameCalls, sameBatch⟩ := w.arm_notes slot now interval
    exact ⟨trivial, sameCalls ▸ calls, sameBatch ▸ batch⟩
  | _ => exact ⟨trivial, calls, batch⟩

theorem alone_new (fields : Nat → Option Nat × UInt32 × UInt32) : Alone (.new fields) :=
  ⟨fun _ _ => rfl, fun _ _ => rfl⟩

def sequence (calls : List Call) : List (Nat × Task Unit) :=
  calls.map fun call => (0, Job.task 0 (.call call))

theorem sequence_given (calls : List Call) (job : Nat × Task Unit) (member : job ∈ sequence calls) :
    ∃ own : Job, job.2 = own.task job.1 := by
  obtain ⟨call, _, rfl⟩ := List.mem_map.mp member
  exact ⟨.call call, rfl⟩

/-- One timer is registered. -/
theorem registered_timer_is_tidy : ∃ (labels : List (PoolLabel ops)) (pool : Pool ops World),
      Run (timerSystem.keeping Orderly) (.new (.new someFields)) labels pool ∧
      (pool.world.slots ⟨0, by decide⟩).timer = 5 ∧ Tidy pool.world := by
  have complies : Complies Atom (answer 0 none) Orderly Alone (fun _ _ o => o.lone) False :=
    ⟨fun _ _ => trivial, fun _ _ w o _ alone lone =>
      ⟨atom_answer 0 none w o, alone.atom (atom_answer 0 none w o) lone⟩⟩
  have ended : Run (timerSystem.keeping Orderly) (.new (.new someFields)) _ _ ∧ _ :=
    serve_keeping complies 20 (sequence [.init 5]) (sequence_given _) _ (alone_new _) rfl
  refine ⟨_, _, ended.1, rfl, slots_match_timers ended.1 ?_⟩
  intro i
  cases i with
  | zero | succ => rfl

/-- A timer that is initialised again through the other constructor has two slots. When it is
destroyed, one of them stays for good. -/
theorem second_constructor_leaks_slot : (∃ (labels : List (PoolLabel ops)) (w : World),
      Run timerSystem (.new (.new someFields)) labels (.new w) ∧ (∀ i, w.calls i = none) ∧
      (w.slots ⟨0, by decide⟩).used = true ∧ (w.slots ⟨0, by decide⟩).timer = 5 ∧
      (w.slots ⟨1, by decide⟩).used = true ∧ (w.slots ⟨1, by decide⟩).timer = 5 ∧
      (w.objects 5).timer = 2 ∧ ¬Tidy w) ∧ ∃ (labels : List (PoolLabel ops)) (w : World),
      Run timerSystem (.new (.new someFields)) labels (.new w) ∧ (∀ i, w.calls i = none) ∧
      (w.slots ⟨0, by decide⟩).used = true ∧ (w.slots ⟨0, by decide⟩).timer = 5 ∧
      (w.objects 5).timer = 0 ∧ ¬Tidy w := by
  have run (calls : List Call)
      (ends : serves (answer 0 none) (fun _ _ _ => true) 20 (sequence calls) (.new someFields) = true) :
      Run timerSystem (.new (.new someFields)) _ _ :=
    run_serve (atom_answer 0 none) 20 (sequence calls) (sequence_given _) _ ends
  constructor
  · refine ⟨_, _, run [.init 5, .adaptInit 5 7 0 10] rfl, ?_, rfl, rfl, rfl, rfl, rfl, ?_⟩
    · intro i
      cases i with
      | zero | succ => rfl
    · intro tidy
      have same := tidy.single ⟨0, by decide⟩ ⟨1, by decide⟩ rfl rfl rfl
      cases same
  · refine ⟨_, _, run [.init 5, .adaptInit 5 7 0 10, .destroy 5] rfl, ?_, rfl, rfl, rfl, ?_⟩
    · intro i
      cases i with
      | zero | succ => rfl
    · intro tidy
      exact tidy.unnamed 5 ⟨0, by decide⟩ rfl rfl rfl

end HisiRf.Timer
