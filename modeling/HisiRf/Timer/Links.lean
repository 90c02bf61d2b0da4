import HisiRf.Timer.Calls

/-! Handles and slots name each other.

As long as the calls on one timer do not disturb each other and no timer is reset
while it is registered, a slot that is used belongs to exactly one timer, whose
handle leads back to it. In between, a call may have reserved a slot that no timer
names yet, or have cleared one that its timer still names.
-/

namespace HisiRf.Timer

open Interaction Function
open EventGroup (osalOk osalNok)

def Call.isMod : Call → Bool
  | .mod _ _ => true
  | .init _ | .adaptInit _ _ _ _ | .stop _ | .destroy _ => false

/-- Two calls that must not overlap. Only the arming of a timer may go on twice at a time. -/
def Conflict (first second : Call) : Prop :=
  first.timer = second.timer ∧ (first.isMod && second.isMod) = false

theorem Conflict.symm {first second : Call} (conflict : Conflict first second) :
    Conflict second first := ⟨conflict.1.symm, by rw [Bool.and_comm]; exact conflict.2⟩

theorem timer_ne_of_apart {first second : Call} (apart : ¬Conflict first second)
    (strict : first.isMod = false) : second.timer ≠ first.timer :=
  fun same => apart ⟨same.symm, by grind⟩

def World.handle (w : World) (timer : Nat) : Nat := (w.objects timer).timer

structure Owns (w : World) (timer : Nat) (slot : SlotIndex) : Prop where
  real : timer ≠ 0
  used : (w.slots slot).used = true
  timer : (w.slots slot).timer = timer

/-- A slot that a registration has taken and not yet given to its timer. -/
structure Vacant (w : World) (slot : SlotIndex) : Prop where
  used : (w.slots slot).used = true
  timer : (w.slots slot).timer = 0

def Progress.Fits (w : World) (call : Call) : Progress → Prop
  | .begun | .ended => True
  | .checked => call.registers = true ∧ call.timer ≠ 0 ∧ w.handle call.timer = 0
  | .allocated slot =>
    call.registers = true ∧ call.timer ≠ 0 ∧ w.handle call.timer = 0 ∧ Vacant w slot
  | .linked slot =>
    call.registers = true ∧ call.timer ≠ 0 ∧ w.handle call.timer = handleOf slot ∧ Vacant w slot
  | .holding slot =>
    call.registers = false ∧ w.handle call.timer = handleOf slot ∧ Owns w call.timer slot
  | .cleared slot =>
    call = .destroy call.timer ∧ w.handle call.timer = handleOf slot ∧
      ∀ other, ¬Owns w call.timer other

def Progress.reserves : Progress → Option SlotIndex
  | .allocated slot | .linked slot => some slot
  | .begun | .checked | .holding _ | .cleared _ | .ended => none

/-- The slot that the timer of the call names without owning it. -/
def Progress.names : Progress → Option SlotIndex
  | .linked slot | .cleared slot => some slot
  | .begun | .checked | .allocated _ | .holding _ | .ended => none

theorem handleOf_inj {slot other : SlotIndex} (same : handleOf slot = handleOf other) :
    slot = other := Fin.ext (Nat.succ.inj same)

theorem slotOf_handleOf (slot : SlotIndex) : slotOf (handleOf slot) = some slot := by
  unfold slotOf handleOf
  rw [dif_pos ⟨by omega, by omega⟩]
  rfl

variable {handle : Nat}

theorem eq_handleOf_of_slotOf {slot : SlotIndex} (found : slotOf handle = some slot) :
    handle = handleOf slot := by grind [slotOf, handleOf]

theorem slotOf_none_iff (bounded : handle ≤ maxTimers) :
    slotOf handle = none ↔ handle = 0 := by grind [slotOf]

structure Linked (w : World) (places : Nat → Phase) : Prop where
  thread : ∀ i, (places i).thread = i
  calls : ∀ i, w.calls i = (places i).doing.map Prod.fst
  batch : ∀ i, w.batch i = (places i).pending
  apart : ∀ i j call other, i ≠ j → w.calls i = some call → w.calls j = some other →
    ¬Conflict call other
  fits : ∀ i call progress, (places i).doing = some (call, progress) → progress.Fits w call
  named : ∀ timer slot, Owns w timer slot → w.handle timer = handleOf slot
  owned : ∀ timer slot, w.handle timer = handleOf slot → Owns w timer slot ∨
    ∃ i call progress, (places i).doing = some (call, progress) ∧ call.timer = timer ∧
      progress.names = some slot
  bounded : ∀ timer, w.handle timer ≤ maxTimers
  reserved : ∀ slot, Vacant w slot → (w.slots slot).active = false ∧
    ∃ i call progress, (places i).doing = some (call, progress) ∧ progress.reserves = some slot
  distinct : ∀ i j call other progress another slot, i ≠ j →
    (places i).doing = some (call, progress) → (places j).doing = some (other, another) →
    progress.reserves = some slot → another.reserves ≠ some slot

variable {w w' : World} {places : Nat → Phase} {i : Nat} {call : Call}

theorem vacant_of_reserves {progress : Progress} {slot : SlotIndex} (fits : progress.Fits w call)
    (reserves : progress.reserves = some slot) : Vacant w slot := by
  cases progress with
  | allocated other | linked other =>
    cases reserves
    exact fits.2.2.2
  | _ => cases reserves

/-- The owners, the reserved slots and the handles are as before. -/
structure SameTable (w w' : World) : Prop where
  used : ∀ slot, (w'.slots slot).used = (w.slots slot).used
  timer : ∀ slot, (w'.slots slot).timer = (w.slots slot).timer
  handle : ∀ timer, w'.handle timer = w.handle timer
  quiet : ∀ slot, Vacant w slot → (w.slots slot).active = false → (w'.slots slot).active = false

namespace SameTable

theorem refl (w : World) : SameTable w w := ⟨fun _ => rfl, fun _ => rfl, fun _ => rfl, fun _ _ off => off⟩

variable {slot : SlotIndex}

theorem owns (same : SameTable w w') {timer : Nat} : Owns w' timer slot ↔ Owns w timer slot := by
  constructor
  · intro owns
    exact ⟨owns.real, (same.used slot).symm.trans owns.used, (same.timer slot).symm.trans owns.timer⟩
  · intro owns
    exact ⟨owns.real, (same.used slot).trans owns.used, (same.timer slot).trans owns.timer⟩

theorem vacant (same : SameTable w w') : Vacant w' slot ↔ Vacant w slot := by
  constructor
  · intro vacant
    exact ⟨(same.used slot).symm.trans vacant.used, (same.timer slot).symm.trans vacant.timer⟩
  · intro vacant
    exact ⟨(same.used slot).trans vacant.used, (same.timer slot).trans vacant.timer⟩

theorem fits (same : SameTable w w') {progress : Progress} (fits : progress.Fits w call) :
    progress.Fits w' call := by
  cases progress with
  | begun | ended => trivial
  | checked => exact ⟨fits.1, fits.2.1, (same.handle _).trans fits.2.2⟩
  | allocated slot | linked slot =>
    exact ⟨fits.1, fits.2.1, (same.handle _).trans fits.2.2.1, same.vacant.mpr fits.2.2.2⟩
  | holding => exact ⟨fits.1, (same.handle _).trans fits.2.1, same.owns.mpr fits.2.2⟩
  | cleared =>
    exact ⟨fits.1, (same.handle _).trans fits.2.1, fun other owns => fits.2.2 other (same.owns.mp owns)⟩

end SameTable

/-- The thread keeps no slot that its timer does not own. -/
def Loose (phase : Phase) : Prop :=
  ∀ call progress, phase.doing = some (call, progress) →
    progress.names = none ∧ progress.reserves = none

variable {slot other : SlotIndex} {timer : Nat} {next : Slot} {progress : Progress}

theorem setSlot_of_ne (different : other ≠ slot) (next : Slot) :
    (w.setSlot slot next).slots other = w.slots other := update_of_ne different _ _

theorem setSlot_self (next : Slot) : (w.setSlot slot next).slots slot = next :=
  update_self _ _ _

theorem handle_setObject (timer other : Nat) (next : OsalTimer) :
    (w.setObject timer next).handle other = if other = timer then next.timer else w.handle other := by
  unfold World.setObject World.handle
  dsimp only
  by_cases same : other = timer
  · grind
  · grind

theorem Owns.setSlot (owns : Owns w timer other) (different : other ≠ slot) (next : Slot) :
    Owns (w.setSlot slot next) timer other :=
  ⟨owns.real, by rw [setSlot_of_ne different, owns.used], by rw [setSlot_of_ne different, owns.timer]⟩

theorem Owns.of_setSlot (owns : Owns (w.setSlot slot next) timer other) (different : other ≠ slot) :
    Owns w timer other := by
  obtain ⟨real, used, named⟩ := owns
  rw [setSlot_of_ne different] at used named
  exact ⟨real, used, named⟩

theorem Vacant.setSlot (vacant : Vacant w other) (different : other ≠ slot) (next : Slot) :
    Vacant (w.setSlot slot next) other :=
  ⟨by rw [setSlot_of_ne different, vacant.used], by rw [setSlot_of_ne different, vacant.timer]⟩

theorem Vacant.of_setSlot (vacant : Vacant (w.setSlot slot next) other) (different : other ≠ slot) :
    Vacant w other := by
  obtain ⟨used, timer⟩ := vacant
  rw [setSlot_of_ne different] at used timer
  exact ⟨used, timer⟩

theorem Progress.Fits.setSlot (fits : progress.Fits w call)
    (foreign : ∀ other, Owns w call.timer other ∨ progress.reserves = some other → other ≠ slot)
    (stays : ¬Owns (w.setSlot slot next) call.timer slot) :
    progress.Fits (w.setSlot slot next) call := by
  cases progress with
  | begun | ended => trivial
  | checked => exact fits
  | allocated other | linked other =>
    exact ⟨fits.1, fits.2.1, fits.2.2.1, fits.2.2.2.setSlot (foreign other (.inr rfl)) next⟩
  | holding other => exact ⟨fits.1, fits.2.1, fits.2.2.setSlot (foreign other (.inl fits.2.2)) next⟩
  | cleared =>
    refine ⟨fits.1, fits.2.1, fun k owns => ?_⟩
    by_cases same : k = slot
    · subst same
      exact stays owns
    · exact fits.2.2 k (owns.of_setSlot same)

theorem Progress.Fits.setObject {next : OsalTimer} (fits : progress.Fits w call)
    (foreign : call.timer ≠ timer) : progress.Fits (w.setObject timer next) call := by
  have same : (w.setObject timer next).handle call.timer = w.handle call.timer := by
    rw [handle_setObject, if_neg foreign]
  cases progress with
  | begun | ended => trivial
  | checked => exact ⟨fits.1, fits.2.1, same.trans fits.2.2⟩
  | allocated other | linked other =>
    exact ⟨fits.1, fits.2.1, same.trans fits.2.2.1, fits.2.2.2.used, fits.2.2.2.timer⟩
  | holding =>
    exact ⟨fits.1, same.trans fits.2.1, fits.2.2.real, fits.2.2.used, fits.2.2.timer⟩
  | cleared =>
    exact ⟨fits.1, same.trans fits.2.1,
      fun k owns => fits.2.2 k ⟨owns.real, owns.used, owns.timer⟩⟩

theorem unused_of_freeSlot (free : w.freeSlot = some slot) : (w.slots slot).used = false := by
  have found := List.find?_some free
  simpa using found

theorem strict_of_registers (registers : call.registers = true) : call.isMod = false := by
  cases call with
  | init | adaptInit => rfl
  | _ => cases registers

variable (linked : Linked w places)
include linked

theorem Linked.frame (same : SameTable w w') (phase : Phase) (thread : phase.thread = i)
    (calls : w'.calls = update w.calls i (phase.doing.map Prod.fst))
    (batch : w'.batch = update w.batch i phase.pending)
    (apart : ∀ j call other, j ≠ i → phase.doing.map Prod.fst = some call → w.calls j = some other
      → ¬Conflict call other)
    (fits : ∀ call progress, phase.doing = some (call, progress) → progress.Fits w call)
    (before : Loose (places i)) (after : Loose phase) : Linked w' (update places i phase) where
  thread j := by
    by_cases mine : j = i
    · grind
    · rw [update_of_ne mine, linked.thread]
  calls j := by
    rw [calls]
    by_cases mine : j = i
    · grind
    · rw [update_of_ne mine, update_of_ne mine, linked.calls]
  batch j := by
    rw [batch]
    by_cases mine : j = i
    · grind
    · rw [update_of_ne mine, update_of_ne mine, linked.batch]
  apart j k call other differ first second := by
    rw [calls] at first second
    by_cases mine : j = i
    · grind
    · rw [update_of_ne mine] at first
      by_cases his : k = i
      · subst his
        rw [update_self] at second
        exact fun conflict => apart j other call mine second first conflict.symm
      · rw [update_of_ne his] at second
        exact linked.apart j k call other differ first second
  fits j call progress doing := by
    by_cases mine : j = i
    · subst mine
      rw [update_self] at doing
      exact same.fits (fits call progress doing)
    · rw [update_of_ne mine] at doing
      exact same.fits (linked.fits j call progress doing)
  named timer slot owns := (same.handle timer).trans (linked.named timer slot (same.owns.mp owns))
  owned timer slot names := by
    rcases linked.owned timer slot ((same.handle timer).symm.trans names) with owns | between
    · exact .inl (same.owns.mpr owns)
    · obtain ⟨j, call, progress, doing, belongs, missing⟩ := between
      have other : j ≠ i := by
        intro mine
        rw [mine] at doing
        rw [(before call progress doing).1] at missing
        cases missing
      exact .inr ⟨j, call, progress, by grind, belongs, missing⟩
  bounded timer := (same.handle timer).symm ▸ linked.bounded timer
  reserved slot vacant := by
    have old := same.vacant.mp vacant
    obtain ⟨off, j, call, progress, doing, keeps⟩ := linked.reserved slot old
    have other : j ≠ i := by
      intro mine
      rw [mine] at doing
      rw [(before call progress doing).2] at keeps
      cases keeps
    exact ⟨same.quiet slot old off, j, call, progress, by grind, keeps⟩
  distinct j k call other progress another slot differ first second keeps := by
    by_cases mine : j = i
    · subst mine
      rw [update_self] at first
      rw [(after call progress first).2] at keeps
      cases keeps
    by_cases his : k = i
    · subst his
      rw [update_self] at second
      rw [(after other another second).2]
      nofun
    · rw [update_of_ne mine] at first
      rw [update_of_ne his] at second
      exact linked.distinct j k call other progress another slot differ first second keeps

/-- A step of a call that changes the table. What it must show is about its own timer and slot; the
other threads keep what they know as long as their calls do not conflict with this one. -/
theorem Linked.advance {old new : Progress} (doing : (places i).doing = some (call, old))
    (calls : w'.calls = w.calls) (batch : w'.batch = w.batch)
    (others : ∀ (other : Call) (progress : Progress), ¬Conflict call other → progress.Fits w other
      → (∀ slot, progress.reserves = some slot → old.reserves ≠ some slot) → progress.Fits w'
      other) (fits : new.Fits w' call)
    (named : ∀ timer slot, Owns w' timer slot → w'.handle timer = handleOf slot)
    (owned : ∀ timer slot, w'.handle timer = handleOf slot → Owns w' timer slot ∨ (call.timer =
      timer ∧ new.names = some slot) ∨ (w.handle timer = handleOf slot ∧ ¬Owns w timer slot ∧
      ¬(call.timer = timer ∧ old.names = some slot)))
    (bounded : ∀ timer, w'.handle timer ≤ maxTimers)
    (reserved : ∀ slot, Vacant w' slot → (new.reserves = some slot ∧ (w'.slots slot).active =
      false) ∨ (Vacant w slot ∧ old.reserves ≠ some slot ∧ (w'.slots slot).active = (w.slots
      slot).active))
    (distinct : ∀ slot, new.reserves = some slot → old.reserves = some slot ∨ ¬Vacant w slot) :
    Linked w' (update places i { places i with doing := some (call, new) }) where
  thread j := by
    by_cases mine : j = i
    · subst mine
      rw [update_self]
      exact linked.thread j
    · rw [update_of_ne mine, linked.thread]
  calls j := by
    rw [calls, linked.calls]
    by_cases mine : j = i
    · grind
    · grind
  batch j := by
    rw [batch, linked.batch]
    by_cases mine : j = i
    · grind
    · grind
  apart := by
    rw [calls]
    exact linked.apart
  fits j other progress busy := by
    by_cases mine : j = i
    · grind
    · rw [update_of_ne mine] at busy
      have first : w.calls i = some call := by rw [linked.calls, doing]; rfl
      have second : w.calls j = some other := by rw [linked.calls, busy]; rfl
      refine others other progress (linked.apart i j call other (Ne.symm mine) first second)
        (linked.fits j other progress busy) ?_
      intro slot keeps
      exact linked.distinct j i other call progress old slot mine busy doing keeps
  named := named
  owned timer slot names := by
    rcases owned timer slot names with owns | ⟨belongs, missing⟩ | ⟨named, disowned, notMine⟩
    · exact .inl owns
    · exact .inr ⟨i, call, new, by grind, belongs, missing⟩
    · rcases linked.owned timer slot named with owns | between
      · grind
      · obtain ⟨j, other, progress, busy, belongs, missing⟩ := between
        exact .inr ⟨j, other, progress, by grind, belongs, missing⟩
  bounded := bounded
  reserved slot vacant := by
    rcases reserved slot vacant with ⟨keeps, off⟩ | ⟨old, notMine, active⟩
    · exact ⟨off, i, call, new, by grind, keeps⟩
    · obtain ⟨off, j, other, progress, busy, keeps⟩ := linked.reserved slot old
      exact ⟨active.trans off, j, other, progress, by grind, keeps⟩
  distinct j k first second progress another slot differ busy also keeps := by
    -- Whoever keeps a slot knows that it is vacant.
    have known (j : Nat) (other : Call) (progress : Progress)
        (busy : (places j).doing = some (other, progress)) (keeps : progress.reserves = some slot) :
        Vacant w slot := vacant_of_reserves (linked.fits j other progress busy) keeps
    by_cases mine : j = i
    · subst mine
      rw [update_self] at busy
      rw [update_of_ne differ.symm] at also
      cases busy
      intro shared
      rcases distinct slot keeps with kept | taken
      · exact linked.distinct j k _ _ _ _ slot differ doing also kept shared
      · grind
    rw [update_of_ne mine] at busy
    by_cases his : k = i
    · subst his
      rw [update_self] at also
      cases also
      intro shared
      rcases distinct slot shared with kept | taken
      · exact linked.distinct j k _ _ _ _ slot differ busy doing keeps kept
      · grind
    · rw [update_of_ne his] at also
      exact linked.distinct j k first second progress another slot differ busy also keeps

theorem Linked.alloc (doing : (places i).doing = some (call, .checked))
    (free : w.freeSlot = some slot) : Linked (w.setSlot slot { Slot.empty with used := true })
      (update places i { places i with doing := some (call, .allocated slot) }) := by
  have unused := unused_of_freeSlot free
  have knows := linked.fits i call .checked doing
  have unowned (timer : Nat) (other : SlotIndex) (owns : Owns w timer other) : other ≠ slot := by
    intro same
    rw [same] at owns
    rw [owns.used] at unused
    cases unused
  have untaken (other : SlotIndex) (vacant : Vacant w other) : other ≠ slot := by
    intro same
    rw [same] at vacant
    rw [vacant.used] at unused
    cases unused
  have still (timer : Nat) (other : SlotIndex)
      (owns : Owns (w.setSlot slot { Slot.empty with used := true }) timer other) : other ≠ slot := by
    intro same
    rw [same] at owns
    exact owns.real (owns.timer.symm.trans (by rw [setSlot_self]; rfl))
  refine linked.advance doing rfl rfl ?_ ?_ ?_ ?_ linked.bounded ?_ ?_
  · intro other progress _ fits _
    refine fits.setSlot ?_ fun owns => still _ _ owns rfl
    intro k uses
    rcases uses with owns | keeps
    · exact unowned _ k owns
    · exact untaken k (vacant_of_reserves fits keeps)
  · exact ⟨knows.1, knows.2.1, knows.2.2, by rw [setSlot_self], by rw [setSlot_self]; rfl⟩
  · intro timer other owns
    exact linked.named timer other (owns.of_setSlot (still timer other owns))
  · intro timer other names
    by_cases owns : Owns w timer other
    · exact .inl (owns.setSlot (unowned timer other owns) _)
    · exact .inr (.inr ⟨names, owns, fun mine => by cases mine.2⟩)
  · intro other vacant
    by_cases same : other = slot
    · subst same
      exact .inl ⟨rfl, by rw [setSlot_self]; rfl⟩
    · exact .inr ⟨vacant.of_setSlot same, nofun, by rw [setSlot_of_ne same]⟩
  · intro other keeps
    cases keeps
    exact .inr fun vacant => untaken _ vacant rfl

theorem Linked.name {old new : Progress} (doing : (places i).doing = some (call, old))
    (strict : call.isMod = false) (ownless : ∀ other, ¬Owns w call.timer other)
    (bounded : handle ≤ maxTimers)
    (fits : new.Fits (w.setObject call.timer { w.objects call.timer with timer := handle }) call)
    (names : ∀ other, handle = handleOf other → new.names = some other)
    (reserves : new.reserves = old.reserves) :
    Linked (w.setObject call.timer { w.objects call.timer with timer := handle })
      (update places i { places i with doing := some (call, new) }) := by
  refine linked.advance doing rfl rfl ?_ fits ?_ ?_ ?_ ?_ ?_
  · intro other progress apart known _
    exact known.setObject (timer_ne_of_apart apart strict)
  · intro timer slot owns
    have before : Owns w timer slot := ⟨owns.real, owns.used, owns.timer⟩
    have foreign : timer ≠ call.timer := fun same => ownless slot (same ▸ before)
    rw [handle_setObject, if_neg foreign]
    exact linked.named timer slot before
  · intro timer slot named
    rw [handle_setObject] at named
    by_cases mine : timer = call.timer
    · grind
    · rw [if_neg mine] at named
      by_cases owns : Owns w timer slot
      · exact .inl ⟨owns.real, owns.used, owns.timer⟩
      · grind
  · intro timer
    rw [handle_setObject]
    split
    · exact bounded
    · exact linked.bounded timer
  · intro slot vacant
    have before : Vacant w slot := ⟨vacant.used, vacant.timer⟩
    by_cases mine : old.reserves = some slot
    · have off := (linked.reserved slot before).1
      exact .inl ⟨reserves.trans mine, off⟩
    · exact .inr ⟨before, mine, rfl⟩
  · grind

theorem Linked.ownless (null : w.handle timer = 0) (slot : SlotIndex) : ¬Owns w timer slot := by
  intro owns
  have named := linked.named timer slot owns
  rw [null] at named
  cases named

theorem Linked.link (doing : (places i).doing = some (call, .allocated slot)) :
    Linked (w.setObject call.timer { w.objects call.timer with timer := handleOf slot })
      (update places i { places i with doing := some (call, .linked slot) }) := by
  obtain ⟨registers, real, null, vacant⟩ := linked.fits i call _ doing
  refine linked.name doing (strict_of_registers registers) (linked.ownless null) slot.isLt ?_ ?_ rfl
  · refine ⟨registers, real, ?_, vacant.used, vacant.timer⟩
    rw [handle_setObject, if_pos rfl]
  · intro other same
    rw [handleOf_inj same]
    rfl

theorem Linked.register (doing : (places i).doing = some (call, .linked slot)) :
    Linked (w.register slot call.timer)
      (update places i { places i with doing := some (call, .ended) }) := by
  obtain ⟨registers, real, named, vacant⟩ := linked.fits i call _ doing
  have strict := strict_of_registers registers
  have unowned (timer : Nat) (other : SlotIndex) (owns : Owns w timer other) : other ≠ slot := by
    intro same
    rw [same] at owns
    exact owns.real (owns.timer.symm.trans vacant.timer)
  have given : Owns (w.register slot call.timer) call.timer slot := by
    refine ⟨real, ?_, ?_⟩
    · unfold World.register
      rw [setSlot_self]
      exact vacant.used
    · unfold World.register
      rw [setSlot_self]
  refine linked.advance doing rfl rfl ?_ trivial ?_ ?_ linked.bounded ?_ nofun
  · intro other progress apart fits free
    have foreign := timer_ne_of_apart apart strict
    refine fits.setSlot ?_ fun owns => foreign (owns.timer.symm.trans given.timer)
    intro k uses
    rcases uses with owns | keeps
    · exact unowned _ k owns
    · intro same
      exact free k keeps (same ▸ rfl)
  · intro timer other owns
    by_cases same : other = slot
    · subst same
      rw [← given.timer.symm.trans owns.timer]
      exact named
    · exact linked.named timer other (owns.of_setSlot same)
  · intro timer other names
    by_cases owns : Owns w timer other
    · exact .inl (owns.setSlot (unowned timer other owns) _)
    · by_cases mine : call.timer = timer ∧ slot = other
      · grind
      · refine .inr (.inr ⟨names, owns, fun both => mine ⟨both.1, Option.some.inj both.2⟩⟩)
  · intro other vacantNow
    by_cases same : other = slot
    · subst same
      exact absurd (given.timer.symm.trans vacantNow.timer) real
    · exact .inr ⟨vacantNow.of_setSlot same, fun keeps => same (Option.some.inj keeps).symm,
        by unfold World.register; rw [setSlot_of_ne same]⟩

theorem Linked.clear (doing : (places i).doing = some (.destroy timer, .holding slot)) :
    Linked (w.setSlot slot .empty)
      (update places i { places i with doing := some (.destroy timer, .cleared slot) }) := by
  obtain ⟨_, named, owner⟩ := linked.fits i _ _ doing
  have emptied (other : SlotIndex) (user : Nat) (owns : Owns (w.setSlot slot .empty) user other) :
      other ≠ slot := by
    intro same
    have used := owns.used
    rw [same, setSlot_self] at used
    cases used
  refine linked.advance doing rfl rfl ?_ ?_ ?_ ?_ linked.bounded ?_ nofun
  · intro other progress apart fits _
    have foreign : other.timer ≠ timer := timer_ne_of_apart apart rfl
    refine fits.setSlot ?_ fun owns => emptied slot _ owns rfl
    intro k uses same
    subst same
    rcases uses with owns | keeps
    · exact foreign (owns.timer.symm.trans owner.timer)
    · have vacant := vacant_of_reserves fits keeps
      exact owner.real (owner.timer.symm.trans vacant.timer)
  · refine ⟨rfl, named, fun other owns => ?_⟩
    have before := owns.of_setSlot (emptied other _ owns)
    have again := linked.named _ other before
    exact emptied other _ owns (handleOf_inj (again.symm.trans named))
  · intro user other owns
    exact linked.named user other (owns.of_setSlot (emptied other user owns))
  · intro user other names
    by_cases mine : timer = user ∧ slot = other
    · obtain ⟨rfl, rfl⟩ := mine
      exact .inr (.inl ⟨rfl, rfl⟩)
    · by_cases owns : Owns w user other
      · have different : other ≠ slot := by
          intro same
          subst same
          exact mine ⟨owner.timer.symm.trans owns.timer, rfl⟩
        exact .inl (owns.setSlot different _)
      · exact .inr (.inr ⟨names, owns, fun both => by cases both.2⟩)
  · intro other vacant
    by_cases same : other = slot
    · subst same
      have used := vacant.used
      rw [setSlot_self] at used
      cases used
    · exact .inr ⟨vacant.of_setSlot same, nofun, by rw [setSlot_of_ne same]⟩

theorem Linked.unlink (doing : (places i).doing = some (call, .cleared slot)) :
    Linked (w.setObject call.timer { w.objects call.timer with timer := 0 })
      (update places i { places i with doing := some (call, .ended) }) := by
  obtain ⟨destroys, _, ownless⟩ := linked.fits i call _ doing
  have strict : call.isMod = false := by rw [destroys]; rfl
  exact linked.name doing strict ownless (Nat.zero_le _) trivial (fun other same => by cases same) rfl

end HisiRf.Timer
