import HisiRf.Timer.SwtmrService

/-! Runs of threads that call LiteOS at the same time.

Each action of LiteOS changes at most one control block and the stage of one call.
-/

namespace HisiRf.Swtmr

open Interaction Function
open Timer (Owns SlotIndex Linked Off)

variable {w : World} {places : Nat → Phase} {i : Nat} {index : Index} {doing after : Doing} {cb : Cb}

theorem Dormant.congr {w' : World} (dormant : Dormant w index) (osal : w'.osal = w.osal)
    (current : w'.current = w.current) : Dormant w' index := by
  obtain ⟨off, still⟩ := dormant
  unfold Expiring at still
  rw [← osal, ← current] at still
  exact ⟨osal.symm ▸ off, still⟩

theorem setCb_zero_iff (same : cb.state = 0 ↔ (w.cbs index).state = 0) (other : Index) :
    ((w.setCb index cb).cbs other).state = 0 ↔ (w.cbs other).state = 0 := by
  by_cases mine : other = index
  · rw [mine, setCb_self, same]
  · rw [setCb_of_ne mine]

theorem setCb_same (w : World) (index : Index) : w.setCb index (w.cbs index) = w := by
  unfold World.setCb
  rw [update_eq_self]

theorem Linked.prepare {o : Timer.World} {spots : Nat → Timer.Phase} (linked : Linked o spots)
    (idle : (spots i).doing = none) {timer : Nat} {object : Timer.OsalTimer}
    (same : object.timer = o.handle timer) : Linked (o.setObject timer object) spots := by
  have kept := linked.idle (Timer.sameTable_setObject same) rfl idle
    (show (o.setObject timer object).batch = update o.batch i (spots i).pending by
      rw [← linked.batch, update_eq_self]
      rfl)
  have same : update spots i { spots i with pending := (spots i).pending } = spots :=
    update_eq_self i spots
  rw [same] at kept
  exact kept

/-- Calls on one timer do not overlap, and a timer is neither stopped nor deleted in the middle of an
expiry. -/
def Separate (w : World) : (o : ops.Op) → ops.Reply o → Prop
  | .inl (.collect _ _), due => ∀ index j request, w.calls j = some (request, some index) →
      request.silences = true → runtime index ∉ due
  | .inr (.enter _ request), _ => ∀ index, request.names = some index →
      (∀ j other, w.calls j ≠ some (other, some index)) ∧
      (request.silences = true → ¬Expiring w index)
  | .inr (.claimCb _ _ _ _ _), some index => ∀ j other, w.calls j ≠ some (other, some index)
  | _, _ => True

variable {w' : World}

section

variable (sound : Sound w places)
include sound

/-- A control block that stays in use, or stays free, may be changed by anyone. -/
theorem Sound.setCb (same : cb.state = 0 ↔ (w.cbs index).state = 0) :
    Sound (w.setCb index cb) places := by
  have zero := setCb_zero_iff same
  refine { sound with knows := ?_, free := ?_, data := ?_, shut := ?_ }
  · exact sound.shut
  · intro i doing other now about
    obtain ⟨live, silent, bare, cleared⟩ := sound.knows i doing other now about
    refine ⟨fun alive => ?_, fun quiet => ?_, bare, fun done => (zero other).mpr (cleared done)⟩
    · grind
    · exact (silent quiet).congr rfl rfl
  · intro other free
    obtain ⟨dormant, ownless⟩ := sound.free other ((zero other).mp free)
    exact ⟨dormant.congr rfl rfl, ownless⟩
  · intro other busy
    exact sound.data other fun free => busy ((zero other).mpr free)

theorem Sound.calls_of {j : Nat} (now : (places j).doing = some doing)
    (about : doing.about = some index) : w.calls j = some (doing.request, some index) := by
  rw [sound.calls, now, Option.map_some, about]

section

variable (now : (places i).doing = some doing) (about : doing.about = some index)
include now about

theorem Sound.alone {j : Nat} {other : Doing} (differ : j ≠ i) (his : (places j).doing = some other) :
    other.about ≠ some index :=
  sound.apart i j doing other index differ.symm now his about

/-- Once the timer is filled in, it says which control block it belongs to. -/
theorem Sound.data_of (unclaimed : doing.stage ≠ .claimed) (busy : (w.cbs index).state ≠ 0) :
    (w.osal.objects (runtime index)).data = index.val.toUInt32 := by
  refine (sound.data index busy).resolve_right ?_
  rintro ⟨j, request, his⟩
  by_cases mine : j = i
  · grind
  · exact sound.alone now about mine his rfl

end

section

variable (idle : (places i).osal.doing = none)
include idle

/-- A thread goes on with its call. It may change control blocks with which nobody else deals. -/
theorem Sound.goes_on (next : Option Doing) (cbs : Index → Cb)
    (others : ∀ j other index, j ≠ i → (places j).doing = some other → other.about = some index →
      ((cbs index).state = 0 ↔ (w.cbs index).state = 0))
    (alone : ∀ doing index, next = some doing → doing.about = some index → ∀ j other, j ≠ i →
      (places j).doing = some other → other.about ≠ some index)
    (shut : ∀ doing index, next = some doing → doing.about = some index →
      doing.request.silences = true → ¬Expiring w index)
    (knows : ∀ doing index, next = some doing → doing.about = some index →
      Knows { w with cbs := cbs } index doing.stage)
    (free : ∀ index, (cbs index).state = 0 → Dormant w index ∧ Ownless w.osal (runtime index))
    (data : ∀ index, (cbs index).state ≠ 0 →
      (w.osal.objects (runtime index)).data = index.val.toUInt32 ∨
      (∃ request, next = some ⟨request, some index, .claimed⟩) ∨
      ∃ j request, j ≠ i ∧ (places j).doing = some ⟨request, some index, .claimed⟩) :
    Sound { w with
        cbs := cbs
        calls := update w.calls i (next.map fun doing => (doing.request, doing.about)) }
      (update places i { places i with doing := next }) where
  linked := by
    rw [osals_update, update_eq_self]
    exact sound.linked
  calls j := by
    dsimp only
    by_cases mine : j = i
    · grind
    · rw [update_of_ne mine, update_of_ne mine]
      exact sound.calls j
  current j := by
    by_cases mine : j = i
    · rw [mine, update_self]
      exact sound.current i
    · rw [update_of_ne mine]
      exact sound.current j
  permitted j call progress inside := by
    by_cases mine : j = i
    · grind
    · rw [update_of_ne mine] at inside ⊢
      exact sound.permitted j call progress inside
  apart j k doing other index differ one two about := by
    by_cases first : j = i
    · grind
    · rw [update_of_ne first] at one
      by_cases second : k = i
      · grind
      · rw [update_of_ne second] at two
        exact sound.apart j k doing other index differ one two about
  shut j doing index now about silences := by
    by_cases mine : j = i
    · rw [mine, update_self] at now
      exact shut doing index now about silences
    · rw [update_of_ne mine] at now
      exact sound.shut j doing index now about silences
  knows j doing index now about := by
    by_cases mine : j = i
    · rw [mine, update_self] at now
      obtain ⟨live, silent, bare, cleared⟩ := knows doing index now about
      exact ⟨live, fun quiet => (silent quiet).congr rfl rfl, bare, cleared⟩
    · rw [update_of_ne mine] at now
      have zero := others j doing index mine now about
      obtain ⟨live, silent, bare, cleared⟩ := sound.knows j doing index now about
      refine ⟨fun alive free => live alive (zero.mp free), fun quiet => ?_, bare, fun done => ?_⟩
      · exact (silent quiet).congr rfl rfl
      · grind
  free index zero := by
    obtain ⟨dormant, ownless⟩ := free index zero
    exact ⟨dormant.congr rfl rfl, ownless⟩
  data index busy := by
    rcases data index busy with right | ⟨request, now⟩ | ⟨j, request, differ, now⟩
    · exact .inl right
    · refine .inr ⟨i, request, ?_⟩
      rw [update_self]
      exact now
    · refine .inr ⟨j, request, ?_⟩
      rw [update_of_ne differ]
      exact now
  handlers := sound.handlers
  callbacks j callback known := by
    by_cases mine : j = i
    · rw [mine, update_self] at known
      exact sound.callbacks i callback known
    · rw [update_of_ne mine] at known
      exact sound.callbacks j callback known

theorem Sound.enter (before : (places i).doing = none) (request : Request)
    (alone : ∀ index, request.names = some index → ∀ j other, (places j).doing = some other →
      other.about ≠ some index)
    (shut : ∀ index, request.names = some index → request.silences = true → ¬Expiring w index) :
    Sound { w with calls := update w.calls i (some (request, request.names)) }
      (update places i { places i with doing := some ⟨request, request.names, .begun⟩ }) := by
  refine sound.goes_on idle (some ⟨request, request.names, .begun⟩) w.cbs (fun _ _ _ _ _ _ => .rfl)
    ?_ ?_ ?_ sound.free fun index busy => ?_
  · grind
  · grind
  · intro doing index now about
    cases now
    exact ⟨nofun, nofun, nofun, nofun⟩
  · refine (sound.data index busy).imp id fun claimed => .inr ?_
    obtain ⟨j, other, now⟩ := claimed
    refine ⟨j, other, ?_, now⟩
    rintro rfl
    rw [before] at now
    cases now

theorem Sound.returned : Sound { w with current := update w.current i none }
      (update places i { places i with read := none, current := none }) := by
  have fewer {index : Index}
      (expiring : Expiring { w with current := update w.current i none } index) :
      Expiring w index := by
    obtain ⟨j, batched | current⟩ := expiring
    · exact ⟨j, .inl batched⟩
    · refine ⟨j, .inr ?_⟩
      dsimp only at current
      by_cases mine : j = i
      · grind
      · grind
  have dormant {index : Index} (dormant : Dormant w index) :
      Dormant { w with current := update w.current i none } index :=
    ⟨dormant.off, fun expiring => dormant.still (fewer expiring)⟩
  have doing_same (j : Nat) : (update places i
      { places i with read := none, current := none } j).doing = (places j).doing := by
    by_cases mine : j = i
    · grind
    · grind
  exact {
    linked := by
      rw [osals_update, update_eq_self]
      exact sound.linked
    calls := fun j => by
      rw [doing_same]
      exact sound.calls j
    current := fun j => by
      dsimp only
      by_cases mine : j = i
      · grind
      · rw [update_of_ne mine, update_of_ne mine]
        exact sound.current j
    permitted := fun j call progress inside => by
      by_cases mine : j = i
      · grind
      · rw [update_of_ne mine] at inside ⊢
        exact sound.permitted j call progress inside
    apart := fun j k doing other index differ one two => by
      rw [doing_same] at one two
      exact sound.apart j k doing other index differ one two
    shut := fun j doing index now about silences expiring => by
      rw [doing_same] at now
      exact sound.shut j doing index now about silences (fewer expiring)
    knows := fun j doing index now about => by
      rw [doing_same] at now
      obtain ⟨live, silent, bare, cleared⟩ := sound.knows j doing index now about
      exact ⟨live, fun quiet => dormant (silent quiet), bare, cleared⟩
    free := fun index zero => ⟨dormant (sound.free index zero).1, (sound.free index zero).2⟩
    data := fun index busy => by
      refine (sound.data index busy).imp id fun claimed => ?_
      obtain ⟨j, request, now⟩ := claimed
      refine ⟨j, request, ?_⟩
      rw [doing_same]
      exact now
    handlers := sound.handlers
    callbacks := fun j callback known => by
      by_cases mine : j = i
      · grind
      · rw [update_of_ne mine] at known
        exact sound.callbacks j callback known }

variable (now : (places i).doing = some doing)
include now

theorem Sound.leave (done : doing.stage ≠ .claimed) :
    Sound { w with calls := update w.calls i none }
      (update places i { places i with doing := none }) := by
  refine sound.goes_on idle none w.cbs (fun _ _ _ _ _ _ => .rfl) nofun nofun nofun sound.free
    fun index busy => ?_
  refine (sound.data index busy).imp id fun claimed => .inr ?_
  obtain ⟨j, other, his⟩ := claimed
  refine ⟨j, other, ?_, his⟩
  rintro rfl
  cases now.symm.trans his
  exact done rfl

theorem Sound.change (mine : ∀ other, doing.about = some other → other = index) {stage : Stage}
    (alone : ∀ j other, j ≠ i → (places j).doing = some other → other.about ≠ some index)
    (shut : doing.request.silences = true → ¬Expiring w index)
    (knows : Knows (w.setCb index cb) index stage)
    (free : cb.state = 0 → Dormant w index ∧ Ownless w.osal (runtime index))
    (data : cb.state ≠ 0 → (w.osal.objects (runtime index)).data = index.val.toUInt32 ∨ stage = .claimed) :
    Sound { w.setCb index cb with calls := update w.calls i (some (doing.request, some index)) }
      (update places i { places i with doing := some ⟨doing.request, some index, stage⟩ }) := by
  refine sound.goes_on idle (some ⟨doing.request, some index, stage⟩) (w.setCb index cb).cbs
    ?_ ?_ ?_ ?_ ?_ ?_
  · intro j other another differ his about
    have away : another ≠ index := by
      rintro rfl
      exact alone j other differ his about
    rw [setCb_of_ne away]
  · grind
  · grind
  · intro after another same about
    cases same
    cases about
    exact knows
  · grind [free, setCb_self, setCb_of_ne]
  intro another busy
  by_cases same : another = index
  · subst same
    rw [setCb_self] at busy
    refine (data busy).imp id fun claimed => .inl ?_
    rw [claimed]
    exact ⟨_, rfl⟩
  · rw [setCb_of_ne same] at busy
    refine (sound.data another busy).imp id fun claimed => .inr ?_
    obtain ⟨j, other, his⟩ := claimed
    refine ⟨j, other, ?_, his⟩
    rintro rfl
    cases now.symm.trans his
    exact same (mine another rfl)

omit now in
theorem Sound.claim {request : Request} (now : (places i).doing = some ⟨request, none, .begun⟩)
    (loud : request.silences = false) (free : w.freeIndex = some index)
    (alone : ∀ j other, w.calls j ≠ some (other, some index)) (cb : Cb) (used : cb.state ≠ 0) :
    Sound { w.setCb index cb with
      calls := update w.calls i ((w.calls i).map fun call => (call.1, some index)) }
      (update places i { places i with doing := some ⟨request, some index, .claimed⟩ }) := by
  obtain ⟨dormant, ownless⟩ := sound.free index (state_of_freeIndex free)
  rw [sound.calls, now]
  refine sound.change idle now nofun ?_ ?_ ?_ (fun zero => absurd zero used) fun _ => .inr rfl
  · intro j other _ his about
    exact alone j other.request (sound.calls_of his about)
  · grind
  · refine ⟨fun _ => ?_, fun _ => dormant.congr rfl rfl, fun _ => ownless, nofun⟩
    rw [setCb_self]
    exact used

variable (about : doing.about = some index)
include about

/-- A timer without a slot with which nobody else deals has a null handle. -/
theorem Sound.handle_null (stage : doing.stage = .claimed) : w.osal.handle (runtime index) = 0 := by
  have knows := sound.knows i doing index now about
  rw [stage] at knows
  refine (Timer.slotOf_none_iff (sound.linked.bounded _)).mp ?_
  cases found : Timer.slotOf (w.osal.handle (runtime index)) with
  | none => rfl
  | some slot =>
    rcases sound.linked.owned _ slot (Timer.eq_handleOf_of_slotOf found) with owns | half
    · exact absurd owns (knows.bare rfl slot)
    obtain ⟨j, call, progress, inside, mine, _⟩ := half
    rcases sound.permits_cases (sound.permitted j call progress inside) mine with
      ⟨other, his, also, _⟩ | ⟨current, _⟩
    · have differ : j ≠ i := by
        rintro rfl
        rw [idle] at inside
        cases inside
      exact absurd about (sound.apart j i other doing index differ his now also)
    · exact absurd ⟨j, .inr current⟩ (knows.silent rfl).still

theorem Sound.prepare (stage : doing.stage = .claimed) (interval : UInt32) :
    Sound (w.prepare index interval) places := by
  have null := sound.handle_null idle now about stage
  have objects (timer : Nat) : ((w.prepare index interval).osal.objects timer).handler =
      (w.osal.objects timer).handler ∧ ∀ other : Index, timer = runtime other →
        (w.osal.objects timer).data = other.val.toUInt32 →
        ((w.prepare index interval).osal.objects timer).data = other.val.toUInt32 := by
    unfold World.prepare Timer.World.setObject
    dsimp only
    by_cases same : timer = runtime index
    · subst same
      rw [update_self]
      exact ⟨rfl, fun other same _ => by rw [runtime_inj same]⟩
    · grind
  exact {
    linked := Linked.prepare sound.linked idle null.symm
    calls := sound.calls
    current := sound.current
    permitted := sound.permitted
    apart := sound.apart
    shut := sound.shut
    knows := fun j other another his also => by
      obtain ⟨live, silent, bare, cleared⟩ := sound.knows j other another his also
      exact ⟨live, fun quiet => ⟨(silent quiet).off.same_slots rfl, (silent quiet).still⟩,
        fun none => (bare none).same rfl, cleared⟩
    free := fun another zero => by
      obtain ⟨dormant, ownless⟩ := sound.free another zero
      exact ⟨⟨dormant.off.same_slots rfl, dormant.still⟩, ownless.same rfl⟩
    data := fun another busy =>
      (sound.data another busy).imp ((objects (runtime another)).2 another rfl) id
    handlers := fun timer handler present =>
      sound.handlers timer handler ((objects timer).1.symm.trans present)
    callbacks := sound.callbacks }

theorem Sound.proceed (stage : Stage) (knows : Knows (w.setCb index cb) index stage)
    (free : cb.state = 0 → Dormant w index ∧ Ownless w.osal (runtime index))
    (data : cb.state ≠ 0 → (w.osal.objects (runtime index)).data = index.val.toUInt32) :
    Sound (w.setCb index cb) (update places i { places i with
      doing := (places i).doing.map fun doing => { doing with stage := stage } }) := by
  have changed := sound.change idle now (fun other same => Option.some.inj (same.symm.trans about))
    (fun j other differ his => sound.alone now about differ his)
    (sound.shut i doing index now about) knows free fun used => .inl (data used)
  have calls : update w.calls i (some (doing.request, some index)) = w.calls := by
    rw [← sound.calls_of now about, update_eq_self]
  rw [calls] at changed
  rw [now, Option.map_some, about]
  exact changed

end

theorem Sound.own {o : Op} {reply : o.Reply} (allowed : phases.allows (places i) (.inr o))
    (taken : Atom w (.inr o) reply w') (separate : Separate w (.inr o) reply) :
    Sound w' (update places i ((places i).afterOwn ⟨o, reply⟩)) := by
  obtain ⟨idle, allowed⟩ := allowed
  have unmoved {v : World} (sound : Sound v places) : Sound v (update places i (places i)) := by
    rwa [update_eq_self]
  have two : (2 : UInt8) ≠ 0 := by decide
  have three : (3 : UInt8) ≠ 0 := by decide
  cases taken with
  | claimCb thread =>
    obtain ⟨own, request, now, loud, _⟩ := allowed
    obtain rfl : thread = i := own.trans (sound.linked.thread i)
    unfold World.claimCb at separate ⊢
    cases free : w.freeIndex with
    | none => exact unmoved sound
    | some =>
      rw [free] at separate
      unfold Phase.afterOwn
      rw [now]
      exact sound.claim idle now loud free separate _ two
  | prepare index interval =>
    obtain ⟨request, now⟩ := allowed
    have filled := sound.prepare idle now rfl rfl interval
    have knows := filled.knows i _ index now rfl
    have data : ((w.prepare index interval).osal.objects (runtime index)).data = index.val.toUInt32 := by
      unfold World.prepare Timer.World.setObject
      dsimp only
      rw [update_self]
    rw [← setCb_same (w.prepare index interval) index]
    refine filled.proceed idle now rfl .prepared ?_ (fun zero => filled.free index zero) fun _ => data
    rw [setCb_same]
    exact ⟨fun _ => knows.live rfl, fun _ => knows.silent rfl, fun _ => knows.bare rfl, nofun⟩
  | clearCb index =>
    obtain ⟨request, stage, now, silent, bare⟩ := allowed
    have knows := sound.knows i _ index now rfl
    refine sound.proceed idle now rfl .cleared ?_ (fun _ => ⟨knows.silent silent, knows.bare bare⟩)
      fun used => absurd rfl used
    refine ⟨nofun, fun _ => (knows.silent silent).congr rfl rfl, fun _ => knows.bare bare, fun _ => ?_⟩
    rw [setCb_self]
    rfl
  | startCb =>
    obtain ⟨request, now⟩ := allowed
    unfold World.startCb
    split
    next => exact unmoved sound
    next busy =>
      refine sound.proceed idle now rfl .running ?_ (fun zero => absurd zero three) fun _ =>
        sound.data_of now rfl nofun busy
      refine ⟨fun _ => ?_, nofun, nofun, nofun⟩
      rw [setCb_self]
      exact three
  | isAllocated index =>
    obtain ⟨request, now⟩ := allowed
    have moved (stage : Stage) (knows : Knows w index stage) :
        Sound w (update places i { places i with
          doing := (places i).doing.map fun doing => { doing with stage := stage } }) := by
      rw [← setCb_same w index] at knows
      have done := sound.proceed idle now rfl stage knows (sound.free index)
        (sound.data_of now rfl nofun)
      rwa [setCb_same] at done
    by_cases free : (w.cbs index).state = 0
    · rw [free]
      exact moved .refused ⟨nofun, fun _ => (sound.free index free).1, nofun, nofun⟩
    · rw [show ((w.cbs index).state != 0) = true from bne_iff_ne.mpr free]
      exact moved .allocated ⟨fun _ => free, nofun, nofun, nofun⟩
  | stopCb index =>
    obtain ⟨request, now⟩ := allowed
    refine unmoved (sound.setCb ⟨fun zero => absurd zero two, fun zero => ?_⟩)
    exact absurd zero ((sound.knows i _ index now rfl).live rfl)
  | beginFire =>
    refine unmoved (sound.setCb ⟨fun zero => ?_, fun zero => ?_⟩)
    · grind
    · exact absurd zero (sound.in_use (sound.expiring_of_fires allowed.2))
  | setPeriod | endFire =>
    exact unmoved (sound.setCb .rfl)
  | enter thread request =>
    obtain ⟨own, before⟩ := allowed
    obtain rfl : thread = i := own.trans (sound.linked.thread i)
    refine sound.enter idle before request (fun index names j other his about => ?_)
      fun index names => (separate index names).2
    exact (separate index names).1 j other.request (sound.calls_of his about)
  | leave thread =>
    obtain ⟨own, doing, now, _, leaves⟩ := allowed
    obtain rfl : thread = i := own.trans (sound.linked.thread i)
    exact sound.leave idle now leaves.1
  | returned thread =>
    obtain rfl : thread = i := Eq.trans allowed (sound.linked.thread i)
    exact sound.returned idle
  | _ => exact unmoved sound

theorem Sound.step {o : ops.Op} {reply : ops.Reply o} (allowed : phases.allows (places i) o)
    (taken : Atom w o reply w') (separate : Separate w o reply) :
    Sound w' (update places i (phases.after (places i) ⟨o, reply⟩)) := by
  cases o with
  | inr => exact sound.own allowed taken separate
  | inl o =>
    cases taken with
    | osal step =>
      refine sound.service allowed step fun j doing index now about silences collected => ?_
      cases o with
      | collect =>
        exact separate index j doing.request (sound.calls_of ‹_› about) silences
          (List.mem_filter.mp collected).1
      | _ => exact collected.elim

end

theorem sound_new : Sound .new home where
  linked := Timer.linked_new runtimeFields
  calls _ := rfl
  current _ := rfl
  permitted _ _ _ inside := by cases inside
  apart _ _ _ _ _ _ now := by cases now
  shut _ _ _ now := by cases now
  knows _ _ _ now := by cases now
  free index _ := by
    have ownless : Ownless (Timer.World.new runtimeFields) (runtime index) := by
      intro slot owns
      cases owns.used
    refine ⟨⟨Timer.off_of_ownless ownless, ?_⟩, ownless⟩
    rintro ⟨j, batched | current⟩
    · cases batched
    · cases current
  data _ busy := absurd rfl busy
  handlers timer handler present := by
    change (runtimeFields timer).1 = some handler at present
    unfold runtimeFields at present
    split at present
    next inside =>
      refine ⟨⟨timer - 1, by omega⟩, ?_⟩
      unfold runtime
      dsimp only
      omega
    next => cases present
  callbacks _ _ known := by
    rcases known with read | current
    · cases read
    · cases current

def Orderly (pool : Pool ops World) : PoolLabel ops → Prop
  | .start _ => True
  | .act _ exchange => Separate pool.world exchange.op exchange.reply

variable {labels : List (PoolLabel ops)} {pool : Pool ops World}

theorem sound_of_run (run : Run (swtmrSystem.keeping Orderly) (.new .new) labels pool) :
    Sound pool.world (phaseOf phases home labels) :=
  crew_invariant tasks_obey sound_new
    (fun _ _ _ _ _ _ sound allowed taken separate => sound.step allowed taken separate) run

end HisiRf.Swtmr
