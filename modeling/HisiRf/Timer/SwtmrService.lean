import HisiRf.Timer.Silence
import HisiRf.Timer.SwtmrPhases

/-! What calls of LiteOS may rely on while the service goes on.

The calls on one timer do not overlap, and a timer is neither stopped nor deleted in
the middle of an expiry. Then a timer whose control block is free has no slot and is
not about to be fired, and a call knows of its timer what its stage says. No action
of the service changes this.
-/

namespace HisiRf.Swtmr

open Interaction Function Option Callback
open EventGroup (osalOk)
open Timer (Owns SlotIndex Linked Off)

/-- A sweep has collected the timer and has not returned from its handler yet. -/
def Expiring (w : World) (index : Index) : Prop :=
  ∃ j, runtime index ∈ w.osal.batch j ∨ w.current j = some (runtime index)

/-- The timer is not armed, and no handler of it is being called. -/
structure Dormant (w : World) (index : Index) : Prop where
  off : Off w.osal (runtime index)
  still : ¬Expiring w index

def Ownless (o : Timer.World) (timer : Nat) : Prop := ∀ slot, ¬Owns o timer slot

/-- What a call that is alone with its timer may rely on. -/
structure Knows (w : World) (index : Index) (stage : Stage) : Prop where
  live : stage.live = true → (w.cbs index).state ≠ 0
  silent : stage.silent = true → Dormant w index
  bare : stage.bare = true → Ownless w.osal (runtime index)
  cleared : stage = .cleared → (w.cbs index).state = 0

def Callback.Fits (callback : Callback) : Prop :=
  ∃ index, callback.timer = runtime index ∧ callback.data = index.val.toUInt32

structure Sound (w : World) (places : Nat → Phase) : Prop where
  linked : Linked w.osal fun k => (places k).osal
  calls : ∀ i, w.calls i = (places i).doing.map fun doing => (doing.request, doing.about)
  current : ∀ i, w.current i = (places i).current.map Callback.timer
  permitted : ∀ i call progress, (places i).osal.doing = some (call, progress) →
    (places i).permits call
  apart : ∀ i j doing other index, i ≠ j → (places i).doing = some doing →
    (places j).doing = some other → doing.about = some index → other.about ≠ some index
  shut : ∀ i doing index, (places i).doing = some doing → doing.about = some index →
    doing.request.silences = true → ¬Expiring w index
  knows : ∀ i doing index, (places i).doing = some doing → doing.about = some index →
    Knows w index doing.stage
  free : ∀ index, (w.cbs index).state = 0 → Dormant w index ∧ Ownless w.osal (runtime index)
  data : ∀ index, (w.cbs index).state ≠ 0 →
    (w.osal.objects (runtime index)).data = index.val.toUInt32 ∨
    ∃ i request, (places i).doing = some ⟨request, some index, .claimed⟩
  handlers : ∀ timer handler, (w.osal.objects timer).handler = some handler →
    ∃ index, timer = runtime index
  callbacks : ∀ i callback, (places i).read = some callback ∨ (places i).current = some callback →
    callback.Fits

variable {w w' : World} {places : Nat → Phase} {i j : Nat} {index : Index} {doing : Doing}

theorem osals_update (places : Nat → Phase) (i : Nat) (phase : Phase) :
    (fun k => (update places i phase k).osal) =
      update (fun k => (places k).osal) i phase.osal := by grind

variable {data : UInt32}

theorem indexOf_inj {other : Index} (same : data = other.val.toUInt32)
    (found : indexOf data.toNat = some index) : index = other := by
  rw [same, indexOf_data] at found
  exact (some.inj found).symm

variable {o : Timer.Op} {reply : o.Reply} {next : Timer.World} {call : Timer.Call}
  {request : Request} {stage : Stage} {phase : Phase} {before : Timer.World} {timer : Nat}

theorem stage_permits_cases (permits : stage.permits request index call) :
    call = .init (runtime index) ∧ (stage = .prepared ∨ stage = .registered) ∨
    (∃ interval, call = .mod (runtime index) interval) ∧ stage = .running ∧ request.starts = true ∨
    (call = .stop (runtime index) ∨ call = .destroy (runtime index)) ∧ request.silences = true := by
  cases stage with
  | prepared => exact .inl ⟨permits, .inl rfl⟩
  | registered => exact .inl ⟨permits, .inr rfl⟩
  | running => exact .inr (.inl ⟨permits.2, rfl, permits.1⟩)
  | allocated | stopped => exact .inr (.inr ⟨.inl permits.2, permits.1⟩)
  | begun | destroyed => exact .inr (.inr ⟨.inr permits.2, permits.1⟩)
  | claimed | refused | cleared => exact permits.elim

/-- The service is called for timers of LiteOS only, and never with the other constructor. -/
theorem shape_of_permits (permits : stage.permits request index call) : call.timer = runtime index ∧
      ∀ timer func data interval, call ≠ .adaptInit timer func data interval := by
  rcases stage_permits_cases permits with ⟨rfl, _⟩ | ⟨⟨_, rfl⟩, _⟩ | ⟨rfl | rfl, _⟩ <;>
    exact ⟨rfl, nofun⟩

theorem phase_permits (permits : phase.permits call) : ∃ index, call.timer = runtime index ∧
      ∀ timer func data interval, call ≠ .adaptInit timer func data interval := by
  unfold Phase.permits at permits
  cases now : phase.doing with
  | some =>
    rw [now] at permits
    obtain ⟨index, _, permitted⟩ := permits
    exact ⟨index, shape_of_permits permitted⟩
  | none =>
    rw [now] at permits
    obtain ⟨index, interval, _, rfl⟩ := permits
    exact ⟨index, rfl, nofun⟩

theorem stage_permits_after (exchange : Exchange Timer.ops)
    (permits : stage.permits request index call) :
    (stage.after exchange).permits request index call := by
  obtain ⟨o, reply⟩ := exchange
  cases stage with
  | prepared => cases o <;> exact permits
  | allocated | begun =>
    cases o with
    | readHandle =>
      unfold Stage.after
      dsimp only
      split <;> exact permits
    | _ => exact permits
  | _ => exact permits

theorem phase_permits_after (permits : phase.permits call)
    (outside : ∀ thread timer, o ≠ .dispatch thread timer true) :
    (phase.afterOsal ⟨o, reply⟩).permits call := by
  unfold Phase.permits at permits ⊢
  unfold Phase.afterOsal
  cases now : phase.doing with
  | some =>
    rw [now] at permits
    obtain ⟨index, about, permitted⟩ := permits
    exact ⟨index, about, stage_permits_after _ permitted⟩
  | none =>
    rw [now] at permits
    obtain ⟨index, interval, ⟨callback, current, fires⟩, arms⟩ := permits
    refine ⟨index, interval, ⟨callback, ?_, fires⟩, arms⟩
    cases o with
    | dispatch => grind
    | _ => exact current

theorem doing_before {exchange : Exchange Timer.ops} {after : Doing}
    (now : (update places i ((places i).afterOsal exchange) j).doing = some after) :
    ∃ doing, (places j).doing = some doing ∧ after.request = doing.request ∧
      after.about = doing.about ∧
      after.stage = if j = i then doing.stage.after exchange else doing.stage := by
  by_cases mine : j = i
  · subst mine
    rw [update_self] at now
    obtain ⟨doing, before, rfl⟩ := map_eq_some_iff.mp now
    exact ⟨doing, before, rfl, rfl, (if_pos rfl).symm⟩
  · grind

section

variable (ownless : Ownless before timer)
include ownless

theorem Ownless.setSlot {slot : SlotIndex} {changed : Timer.Slot}
    (harmless : changed.used = true → changed.timer = timer → timer = 0) :
    Ownless (before.setSlot slot changed) timer := by
  intro other owns
  by_cases same : other = slot
  · subst same
    have used := owns.used
    have named := owns.timer
    rw [Timer.setSlot_self] at used named
    exact owns.real (harmless used named)
  · exact ownless other (owns.of_setSlot same)

theorem Ownless.same {after : Timer.World}
    (same : after.slots = before.slots) : Ownless after timer := by
  intro slot owns
  exact ownless slot ⟨owns.real, by rw [← same, owns.used], by rw [← same, owns.timer]⟩

theorem Ownless.step (taken : Timer.Atom before o reply next)
    (others : ∀ slot, o ≠ .register slot timer) : Ownless next timer := by
  -- A slot that keeps its owner does not belong to the timer.
  have kept {slot : SlotIndex} {changed : Timer.Slot} (used : changed.used = (before.slots slot).used)
      (named : changed.timer = (before.slots slot).timer) :
        Ownless (before.setSlot slot changed) timer := by
    refine ownless.setSlot fun busy mine => ?_
    by_contra real
    exact ownless slot ⟨real, used ▸ busy, named ▸ mine⟩
  cases taken with
  | allocSlot =>
    unfold Timer.World.allocSlot
    cases before.freeSlot with
    | none => exact ownless
    | some => exact ownless.setSlot fun _ null => null.symm
  | register slot => exact ownless.setSlot fun _ same => absurd (same ▸ rfl) (others slot)
  | arm =>
    unfold Timer.World.arm
    split
    next => exact kept rfl rfl
    next => exact ownless
  | disarm => exact kept rfl rfl
  | clear => exact ownless.setSlot (by nofun)
  | collect thread now =>
    intro slot owns
    exact ownless slot ((Timer.sameTable_collect before thread now).owns.mp owns)
  | _ => exact ownless.same rfl

end

def afterService (w : World) (o : Timer.Op) (next : Timer.World) : World :=
  { w with osal := next, current := noteCurrent w.current o }

variable (sound : Sound w places)
include sound

theorem Sound.in_use (expiring : Expiring w index) :
    (w.cbs index).state ≠ 0 := fun free => (sound.free index free).1.still expiring

theorem Sound.current_of_fires (fires : (places i).fires index) :
    w.current i = some (runtime index) := by
  obtain ⟨callback, now, _, found⟩ := fires
  obtain ⟨other, timer, data⟩ := sound.callbacks i callback (.inr now)
  obtain rfl := indexOf_inj data found
  rw [sound.current, now, map_some, timer]

theorem Sound.expiring_of_fires (fires : (places i).fires index) :
    Expiring w index := ⟨i, .inr (sound.current_of_fires fires)⟩

/-- Who calls the service for a timer: a call of LiteOS that deals with it, or its expiry. -/
theorem Sound.permits_cases (permits : (places i).permits call) (mine : call.timer = runtime index) :
    (∃ doing, (places i).doing = some doing ∧ doing.about = some index ∧
      doing.stage.permits doing.request index call) ∨
    w.current i = some (runtime index) ∧ call.isMod = true := by
  unfold Phase.permits at permits
  cases now : (places i).doing with
  | some doing =>
    rw [now] at permits
    obtain ⟨other, about, permitted⟩ := permits
    obtain rfl := runtime_inj (mine.symm.trans (shape_of_permits permitted).1)
    exact .inl ⟨doing, rfl, about, permitted⟩
  | none =>
    rw [now] at permits
    obtain ⟨other, interval, fires, rfl⟩ := permits
    obtain rfl := runtime_inj mine
    exact .inr ⟨sound.current_of_fires fires, rfl⟩

/-- In the middle of an expiry a call of LiteOS can only arm the timer. -/
theorem Sound.mod_of_expiring (now : (places i).doing = some doing)
    (about : doing.about = some index) (permits : doing.stage.permits doing.request index call)
    (expiring : Expiring w index) : call.isMod = true := by
  have knows := sound.knows i doing index now about
  rcases stage_permits_cases permits with ⟨_, stage | stage⟩ | ⟨⟨_, rfl⟩, _⟩ | ⟨_, silences⟩
  · exact absurd expiring (knows.silent (by rw [stage]; rfl)).still
  · exact absurd expiring (knows.silent (by rw [stage]; rfl)).still
  · rfl
  · exact absurd expiring (sound.shut i doing index now about silences)

/-- Two threads do not call the service for one timer, except to arm it. -/
theorem Sound.no_conflict {other : Timer.Call} (differ : i ≠ j) (first : (places i).permits call)
    (second : (places j).permits other) : ¬Timer.Conflict call other := by
  rintro ⟨same, strict⟩
  obtain ⟨index, mine, _⟩ := phase_permits first
  have both : call.isMod = true ∧ other.isMod = true := by
    rcases sound.permits_cases first mine with ⟨doing, now, about, permits⟩ | ⟨now, arms⟩
    · rcases sound.permits_cases second (same.symm.trans mine) with ⟨his, then_, also, _⟩ | ⟨then_, arms⟩
      · exact absurd also (sound.apart i j doing his index differ now then_ about)
      · exact ⟨sound.mod_of_expiring now about permits ⟨j, .inr then_⟩, arms⟩
    · rcases sound.permits_cases second (same.symm.trans mine) with ⟨his, then_, also,
        permits⟩ | ⟨_, arming⟩
      · exact ⟨arms, sound.mod_of_expiring then_ also permits ⟨i, .inr now⟩⟩
      · exact ⟨arms, arming⟩
  rw [both.1, both.2] at strict
  cases strict

theorem Sound.no_reset {func : Nat} {interval : UInt32}
    (allowed : phases.allows (places i) (.inl (.reset timer func data interval))) : False := by
  rcases Timer.allows_cases allowed.1 with ⟨_, turn⟩ | ⟨call, progress, doing, turn⟩
  · exact turn
  cases progress with
  | begun =>
    obtain ⟨_, _, never⟩ := phase_permits (sound.permitted i call _ doing)
    exact never timer func data interval turn
  | _ => exact turn

theorem Sound.register_cases {slot : SlotIndex}
    (allowed : phases.allows (places i) (.inl (.register slot (runtime index)))) :
    ∃ doing, (places i).doing = some doing ∧ doing.about = some index ∧
      (doing.stage = .prepared ∨ doing.stage = .registered) := by
  obtain ⟨call, busy, mine⟩ := Timer.register_place allowed.1
  have registers := (sound.linked.fits i call _ busy).1
  have permits := sound.permitted i _ _ busy
  rcases sound.permits_cases permits mine.symm with ⟨doing, now, about, permits⟩ | ⟨_, arms⟩
  · rcases stage_permits_cases permits with ⟨_, early⟩ | ⟨⟨_, rfl⟩, _⟩ | ⟨rfl | rfl, _⟩
    · exact ⟨doing, now, about, early⟩
    all_goals cases registers
  · cases call with
    | mod => cases registers
    | _ => cases arms

/-- The handler of a timer that was collected is `swtmr_fire`, with its own number. -/
theorem Sound.fits_of_read {handler : Nat}
    (allowed : phases.allows (places i) (.inl (.readCallback timer)))
    (found : w.osal.callbackOf timer = some (handler, data)) : Fits ⟨timer, handler, data⟩ := by
  obtain ⟨rest, pending⟩ := allowed.2
  obtain ⟨known, present, same⟩ := map_eq_some_iff.mp found
  obtain ⟨index, rfl⟩ := sound.handlers timer known present
  have expiring : Expiring w index := by
    refine ⟨i, .inl ?_⟩
    rw [sound.linked.batch, pending]
    exact List.mem_cons_self
  refine ⟨index, rfl, ?_⟩
  rcases sound.data index (sound.in_use expiring) with right | ⟨j, request, now⟩
  · grind
  · exact absurd expiring ((sound.knows j _ index now rfl).silent rfl).still

variable {progress : Timer.Progress}

section

variable (now : (places i).doing = some doing) (about : doing.about = some index)
include now about

theorem Sound.inner_call (inside : (places i).osal.doing = some (call, progress)) :
    doing.stage.permits doing.request index call := by
  have permits := sound.permitted i call progress inside
  unfold Phase.permits at permits
  rw [now] at permits
  obtain ⟨other, same, permitted⟩ := permits
  obtain rfl : other = index := some.inj (same.symm.trans about)
  exact permitted

theorem Sound.ownless_of_handle (allowed : phases.allows (places i) (.inl (.readHandle timer)))
    (null : (Timer.slotOf (w.osal.objects timer).timer).isNone = true) :
    (∃ call, doing.stage.permits doing.request index call) ∧ Ownless w.osal (runtime index) := by
  rcases Timer.allows_cases allowed.1 with ⟨_, never⟩ | ⟨call, progress, inside, turn⟩
  · exact never.elim
  have permits := sound.inner_call now about inside
  refine ⟨⟨call, permits⟩, ?_⟩
  cases progress with
  | begun =>
    rw [turn.2.1, (shape_of_permits permits).1] at null
    exact sound.linked.ownless
      ((Timer.slotOf_none_iff (sound.linked.bounded _)).mp (isNone_iff_eq_none.mp null))
  | _ => exact turn.elim

end

variable (allowed : phases.allows (places i) (.inl o))
include allowed

theorem Sound.undisturbed : Timer.Undisturbed w.osal o := by
  cases o with
  | enter thread call =>
    intro j other differ busy
    have mine : thread = i := by
      rcases Timer.allows_cases allowed.1 with ⟨_, turn⟩ | ⟨call, progress, _, turn⟩
      · exact Eq.trans turn (sound.linked.thread i)
      · cases progress <;> exact turn.elim
    rw [sound.linked.calls, map_eq_some_iff] at busy
    obtain ⟨⟨_, progress⟩, doing, rfl⟩ := busy
    exact sound.no_conflict (mine ▸ differ.symm) allowed.2 (sound.permitted j _ progress doing)
  | reset => exact (sound.no_reset allowed).elim
  | _ => trivial

theorem Sound.arms_cases (arms : Timer.Arms (runtime index) ⟨o, reply⟩) :
    (∃ doing, (places i).doing = some doing ∧ doing.about = some index ∧ doing.stage = .running ∧
      doing.request.starts = true) ∨ w.current i = some (runtime index) := by
  cases o with
  | arm timer slot now =>
    have permits := sound.permitted i _ _ (Timer.arm_place allowed.1)
    rcases sound.permits_cases permits arms.1 with ⟨doing, busy, about, permits⟩ | ⟨now, _⟩
    · rcases stage_permits_cases permits with ⟨init, _⟩ | ⟨_, running⟩ | ⟨stop | destroy, _⟩
      · cases init
      · exact .inl ⟨doing, busy, about, running⟩
      · cases stop
      · cases destroy
    · exact .inr now
  | _ => exact arms.elim

theorem Sound.noted (noted : noteCurrent w.current o j = some timer) :
    w.current j = some timer ∨ ∃ k, timer ∈ w.osal.batch k := by
  cases o with
  | dispatch thread other called =>
    cases called with
    | false => exact .inl noted
    | true =>
      obtain ⟨_, rest, pending⟩ := Timer.dispatch_place allowed.1
      change update w.current thread (some other) j = some timer at noted
      by_cases mine : j = thread
      · subst mine
        rw [update_self] at noted
        cases noted
        refine .inr ⟨i, ?_⟩
        rw [sound.linked.batch, pending]
        exact List.mem_cons_self
      · grind
  | _ => exact .inl noted

theorem Sound.not_registering (now : (places i).doing = some doing)
    (differs : doing.stage ≠ .prepared ∧ doing.stage ≠ .registered) (slot : SlotIndex) :
    o ≠ .register slot (runtime index) := by
  rintro rfl
  obtain ⟨other, same, _, fits⟩ := sound.register_cases allowed
  cases now.symm.trans same
  exact fits.elim differs.1 differs.2

theorem Sound.permitted_after
    (inside : ((places i).afterOsal ⟨o, reply⟩).osal.doing = some (call, progress)) :
    ((places i).afterOsal ⟨o, reply⟩).permits call := by
  change (Timer.phases.after (places i).osal ⟨o, reply⟩).doing = some (call, progress) at inside
  rcases Timer.allows_cases allowed.1 with ⟨before, _⟩ | ⟨known, old, before, turn⟩
  · rw [Timer.after_outside before] at inside
    cases o with
    | enter =>
      obtain ⟨rfl, _⟩ := Prod.mk.inj (some.inj inside)
      exact phase_permits_after allowed.2 (by nofun)
    | _ => cases before.symm.trans inside
  have outside (thread timer : Nat) : o ≠ .dispatch thread timer true := by
    rintro rfl
    cases old <;> exact turn.elim
  cases leaves : o.leaves with
  | true =>
    cases o with
    | leave =>
      rw [Timer.after_leave before] at inside
      cases inside
    | _ => cases leaves
  | false =>
    rw [Timer.after_inside before leaves] at inside
    obtain ⟨rfl, _⟩ := Prod.mk.inj (some.inj inside)
    exact phase_permits_after (sound.permitted i known old before) outside

theorem Sound.current_after (j : Nat) : noteCurrent w.current o j =
      (update places i ((places i).afterOsal ⟨o, reply⟩) j).current.map Callback.timer := by
  have kept (same : noteCurrent w.current o = w.current)
      (still : ((places i).afterOsal ⟨o, reply⟩).current = (places i).current) :
      noteCurrent w.current o j =
        (update places i ((places i).afterOsal ⟨o, reply⟩) j).current.map timer := by
    rw [same, sound.current j]
    by_cases mine : j = i
    · grind
    · grind
  cases o with
  | dispatch thread timer called =>
    cases called with
    | false => exact kept rfl rfl
    | true =>
      obtain ⟨own, _⟩ := Timer.dispatch_place allowed.1
      obtain rfl : thread = i := own.trans (sound.linked.thread i)
      obtain ⟨callback, read, rfl⟩ := allowed.2
      change update w.current thread (some callback.timer) j = _
      by_cases mine : j = thread
      · rw [mine, update_self, update_self]
        exact (congrArg (Option.map timer) read).symm
      · rw [update_of_ne mine, update_of_ne mine]
        exact sound.current j
  | _ => exact kept rfl rfl

variable (taken : Timer.Atom w.osal o reply next)
include taken

theorem Sound.expiring_before (expiring : Expiring (afterService w o next) index) :
    Expiring w index ∨ Timer.Collects (runtime index) ⟨o, reply⟩ := by
  obtain ⟨j, batched | noted⟩ := expiring
  · rcases Timer.batch_before taken batched with before | collected
    · exact .inl ⟨j, .inl before⟩
    · exact .inr collected
  · rcases sound.noted allowed noted with before | ⟨k, member⟩
    · exact .inl ⟨j, .inr before⟩
    · exact .inl ⟨k, .inl member⟩

/-- A dormant timer stays so unless it is armed by a call that starts it. -/
theorem Sound.dormant (dormant : Dormant w index)
    (others : ∀ doing, (places i).doing = some doing → doing.about = some index →
      doing.stage = .running → doing.request.starts = false) :
    Dormant (afterService w o next) index where
  off := by
    refine dormant.off.step sound.linked allowed.1 taken fun arms => ?_
    rcases sound.arms_cases allowed arms with ⟨doing, now, about, running, starts⟩ | now
    · grind
    · exact dormant.still ⟨i, .inr now⟩
  still expiring := by
    rcases sound.expiring_before allowed taken expiring with before | collected
    · exact dormant.still before
    · exact dormant.off.not_collected taken collected

theorem Sound.ownless (ownless : Ownless w.osal (runtime index))
    (others : ∀ doing, (places i).doing = some doing → doing.about = some index →
      doing.stage ≠ .prepared ∧ doing.stage ≠ .registered) :
    Ownless next (runtime index) := by
  refine ownless.step taken ?_
  rintro slot rfl
  obtain ⟨doing, now, about, prepared | registered⟩ := sound.register_cases allowed <;> grind

/-- No action of the service changes the handler or the data of a timer. -/
theorem Sound.objects_kept (timer : Nat) :
    (next.objects timer).handler = (w.osal.objects timer).handler ∧
      (next.objects timer).data = (w.osal.objects timer).data := by
  have set {other : Nat} {object : Timer.OsalTimer}
      (handler : object.handler = (w.osal.objects other).handler)
      (data : object.data = (w.osal.objects other).data) :
      ((w.osal.setObject other object).objects timer).handler = (w.osal.objects timer).handler ∧
        ((w.osal.setObject other object).objects timer).data = (w.osal.objects timer).data := by
    unfold Timer.World.setObject
    dsimp only
    by_cases same : timer = other
    · grind
    · grind
  cases taken with
  | setHandle | setInterval => exact set rfl rfl
  | reset => exact (sound.no_reset allowed).elim
  | populate => exact allowed.2.elim
  | arm =>
    unfold Timer.World.arm
    split <;> exact ⟨rfl, rfl⟩
  | allocSlot =>
    unfold Timer.World.allocSlot
    cases w.osal.freeSlot <;> exact ⟨rfl, rfl⟩
  | _ => exact ⟨rfl, rfl⟩

section

variable (now : (places i).doing = some doing) (about : doing.about = some index)
include now about

/-- A timer that is neither armed nor in an expiry when it is stopped or deleted. -/
theorem Sound.dormant_of_off (silences : doing.request.silences = true)
    (off : Off next (runtime index)) (early : ¬Timer.Collects (runtime index) ⟨o, reply⟩) :
    Dormant (afterService w o next) index := by
  refine ⟨off, fun expiring => ?_⟩
  rcases sound.expiring_before allowed taken expiring with before | collected
  · exact sound.shut i doing index now about silences before
  · exact early collected

theorem Sound.knows_still
    (unregistered : doing.stage.bare = true → ∀ slot, o ≠ .register slot (runtime index)) :
    Knows (afterService w o next) index doing.stage := by
  have knows := sound.knows i doing index now about
  refine ⟨knows.live, fun silent => ?_, fun bare => ?_, knows.cleared⟩
  · refine sound.dormant allowed taken (knows.silent silent) fun other same _ running => ?_
    cases now.symm.trans same
    rw [running] at silent
    cases silent
  · exact (knows.bare bare).step taken (unregistered bare)

omit allowed taken in
theorem Sound.knows_stopped {slot : SlotIndex}
    (allowed : phases.allows (places i) (.inl (.disarm timer slot))) (stage : doing.stage = .allocated) :
    Knows (afterService w (.disarm timer slot) (w.osal.disarm slot).2) index .stopped := by
  have knows := sound.knows i doing index now about
  refine ⟨fun _ => knows.live (by rw [stage]; rfl), fun _ => ?_, nofun, nofun⟩
  rcases Timer.allows_cases allowed.1 with ⟨_, never⟩ | ⟨call, progress, inside, turn⟩
  · exact never.elim
  have fits := sound.linked.fits i call progress inside
  have permits := sound.inner_call now about inside
  cases progress with
  | holding =>
    obtain ⟨_, rfl⟩ := turn
    rw [stage] at permits
    obtain ⟨silences, rfl⟩ := permits
    have off := Timer.off_of_disarm sound.linked fits.2.2
    exact sound.dormant_of_off allowed (.disarm timer slot) now about silences off id
  | _ => exact turn.elim

omit allowed taken in
theorem Sound.knows_destroyed {handle : Nat}
    (allowed : phases.allows (places i) (.inl (.setHandle timer handle)))
    (taken : Timer.Atom w.osal (.setHandle timer handle) () next) (stage : doing.stage = .begun) :
    Knows (afterService w (.setHandle timer handle) next) index .destroyed := by
  have bare : doing.request.silences = true ∧ Ownless next (runtime index) := by
    rcases Timer.allows_cases allowed.1 with ⟨_, never⟩ | ⟨call, progress, inside, turn⟩
    · exact never.elim
    have fits := sound.linked.fits i call progress inside
    have permits := sound.inner_call now about inside
    rw [stage] at permits
    obtain ⟨silences, rfl⟩ := permits
    cases progress with
    | cleared =>
      refine ⟨silences, Ownless.step ?_ taken (by nofun)⟩
      exact fits.2.2
    | allocated => cases fits.1
    | _ => exact turn.elim
  refine ⟨nofun, fun _ => ?_, fun _ => bare.2, nofun⟩
  exact sound.dormant_of_off allowed taken now about bare.1 (Timer.off_of_ownless bare.2) id

theorem Sound.knows_own : Knows (afterService w o next) index (doing.stage.after ⟨o, reply⟩) := by
  have knows := sound.knows i doing index now about
  have still (unregistered : doing.stage.bare = true → ∀ slot, o ≠ .register slot (runtime index)) :=
    sound.knows_still allowed taken now about unregistered
  cases stage : doing.stage with
  | registered | running | stopped | refused =>
    rw [stage] at still
    exact still nofun
  | prepared =>
    rw [stage] at still
    cases o with
    | register =>
      refine ⟨fun _ => knows.live (by rw [stage]; rfl), fun _ => ?_, nofun, nofun⟩
      refine sound.dormant allowed taken (knows.silent (by rw [stage]; rfl)) fun other same _ => ?_
      cases now.symm.trans same
      rw [stage]
      nofun
    | _ => exact still fun _ => nofun
  | allocated =>
    rw [stage] at still
    cases o with
    | disarm =>
      cases taken with
      | disarm => exact sound.knows_stopped now about allowed stage
    | readHandle timer =>
      cases taken with
      | readHandle =>
        unfold Stage.after
        dsimp only
        split
        next null =>
          obtain ⟨⟨call, permits⟩, ownless⟩ := sound.ownless_of_handle now about allowed null
          rw [stage] at permits
          refine ⟨fun _ => knows.live (by rw [stage]; rfl), fun _ => ?_, nofun, nofun⟩
          exact sound.dormant_of_off allowed (.readHandle timer) now about permits.1
            (Timer.off_of_ownless ownless) id
        next => exact still nofun
    | _ => exact still nofun
  | begun =>
    rw [stage] at still
    cases o with
    | setHandle =>
      exact sound.knows_destroyed now about allowed taken stage
    | readHandle timer =>
      cases taken with
      | readHandle =>
        unfold Stage.after
        dsimp only
        split
        next null =>
          obtain ⟨⟨call, permits⟩, ownless⟩ := sound.ownless_of_handle now about allowed null
          rw [stage] at permits
          refine ⟨nofun, fun _ => ?_, fun _ => ownless, nofun⟩
          exact sound.dormant_of_off allowed (.readHandle timer) now about permits.1
            (Timer.off_of_ownless ownless) id
        next => exact still nofun
    | _ => exact still nofun
  | _ =>
    rw [stage] at still
    exact still fun _ => sound.not_registering allowed now ⟨by rw [stage]; nofun, by rw [stage]; nofun⟩

end

theorem Sound.callbacks_after {callback : Callback}
    (known : ((places i).afterOsal ⟨o, reply⟩).read = some callback ∨
      ((places i).afterOsal ⟨o, reply⟩).current = some callback) :
    callback.Fits := by
  cases o with
  | readCallback =>
    rcases known with read | current
    · obtain ⟨both, found, rfl⟩ := map_eq_some_iff.mp read
      cases taken with
      | readCallback => exact sound.fits_of_read allowed found
    · exact sound.callbacks i callback (.inr current)
  | dispatch thread timer called =>
    cases called with
    | true => exact sound.callbacks i callback (.inl (known.elim id id))
    | false => exact sound.callbacks i callback known
  | _ => exact sound.callbacks i callback known

theorem Sound.service
    (timely : ∀ j doing index, (places j).doing = some doing → doing.about = some index →
      doing.request.silences = true → ¬Timer.Collects (runtime index) ⟨o, reply⟩) :
    Sound (afterService w o next) (update places i ((places i).afterOsal ⟨o, reply⟩)) where
  linked := by
    rw [osals_update]
    exact sound.linked.step allowed.1 taken (sound.undisturbed allowed)
  calls j := by
    refine (sound.calls j).trans ?_
    by_cases mine : j = i
    · rw [mine, update_self]
      unfold Phase.afterOsal
      rw [map_map]
      rfl
    · grind
  current := sound.current_after allowed
  permitted j call progress inside := by
    by_cases mine : j = i
    · subst mine
      rw [update_self] at inside ⊢
      exact sound.permitted_after allowed inside
    · rw [update_of_ne mine] at inside ⊢
      exact sound.permitted j call progress inside
  apart j k doing other index differ one two about := by
    obtain ⟨first, now, _, same, _⟩ := doing_before one
    obtain ⟨second, then_, _, also, _⟩ := doing_before two
    rw [also]
    exact sound.apart j k first second index differ now then_ (same ▸ about)
  shut j doing index now about silences expiring := by
    obtain ⟨before, was, request, same, _⟩ := doing_before now
    rw [same] at about
    rw [request] at silences
    rcases sound.expiring_before allowed taken expiring with earlier | collected
    · exact sound.shut j before index was about silences earlier
    · grind
  knows j doing index now about := by
    obtain ⟨before, was, _, same, stage⟩ := doing_before now
    rw [same] at about
    rw [stage]
    by_cases mine : j = i
    · subst mine
      rw [if_pos rfl]
      exact sound.knows_own allowed taken was about
    -- The thread that acts deals with another timer.
    rw [if_neg mine]
    have knows := sound.knows j before index was about
    have apart (own : Doing) (his : (places i).doing = some own) : own.about ≠ some index :=
      sound.apart j i before own index mine was his about
    refine ⟨knows.live, fun silent => ?_, fun bare => ?_, knows.cleared⟩
    · exact sound.dormant allowed taken (knows.silent silent) fun own his also =>
        absurd also (apart own his)
    · exact sound.ownless allowed taken (knows.bare bare) fun own his also =>
        absurd also (apart own his)
  free index free := by
    obtain ⟨dormant, ownless⟩ := sound.free index free
    have idle (own : Doing) (now : (places i).doing = some own) (about : own.about = some index) :
        own.stage.live ≠ true := fun live => (sound.knows i own index now about).live live free
    constructor
    · refine sound.dormant allowed taken dormant fun own now about running => ?_
      exact absurd (by rw [running]; rfl) (idle own now about)
    · refine sound.ownless allowed taken ownless fun own now about => ⟨fun stage => ?_, fun stage => ?_⟩ <;>
        exact idle own now about (by rw [stage]; rfl)
  data index busy := by
    refine (sound.data index busy).imp (fun right => ?_) fun claimed => ?_
    · exact (sound.objects_kept allowed taken _).2.trans right
    · obtain ⟨j, request, now⟩ := claimed
      refine ⟨j, request, ?_⟩
      by_cases mine : j = i
      · subst mine
        rw [update_self]
        exact congrArg (Option.map _) now
      · grind
  handlers timer handler present :=
    sound.handlers timer handler ((sound.objects_kept allowed taken timer).1.symm.trans present)
  callbacks j callback known := by
    by_cases mine : j = i
    · subst mine
      rw [update_self] at known
      exact sound.callbacks_after allowed taken known
    · rw [update_of_ne mine] at known
      exact sound.callbacks j callback known

end HisiRf.Swtmr
