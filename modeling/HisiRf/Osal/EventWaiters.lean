import HisiRf.Interaction.Ownership
import HisiRf.Osal.EventRead

/-! Who waits in an event group, and who still has to be woken.

A reader owns the semaphore it waits on, from its initialisation to its
destruction; a writer owes an increment to each semaphore it has noted. The
table of the group holds exactly the readers that wait.
-/

namespace HisiRf.EventGroup

open Interaction Storage Function List World Option

inductive Phase where
  | owing (semaphores : List Nat)
  | holding (semaphore : Nat)
  | waiting (semaphore : Nat) (mask mode : UInt32)
  | woken (semaphore : Nat) (mask mode : UInt32)

open Phase

/-- What a thread may do that has no semaphore and owes nothing. -/
def Op.unencumbered : Op → Prop
  | .jiffies | .look _ _ | .initSemaphore | .write _ | .clear _ | .enterRead _ _ _ | .leaveRead _ => True
  | _ => False

def Phase.allows : Phase → Op → Prop
  | .owing [], o => o.unencumbered
  | .owing (semaphore :: _), o => o = .up semaphore
  | .holding semaphore, o => o = .destroy semaphore ∨ ∃ mask mode, o = .register semaphore mask mode
  | .waiting semaphore _ _, o => ∃ remaining, o = .downTimeout semaphore remaining
  | .woken semaphore _ _, o => o = .unregister semaphore

def Phase.after : Phase → Exchange ops → Phase
  | _, ⟨.register semaphore mask mode, .waiting⟩ => .waiting semaphore mask mode
  | .owing _, ⟨.write _, pointers⟩ => .owing pointers
  | .owing _, ⟨.initSemaphore, some semaphore⟩ => .holding semaphore
  | .owing semaphores, ⟨.up _, true⟩ => .owing semaphores.tail
  | .owing _, ⟨.up _, false⟩ => .owing []
  | .holding _, ⟨.destroy _, _⟩ => .owing []
  | .waiting semaphore mask mode, ⟨.downTimeout _ _, _⟩ => .woken semaphore mask mode
  | .woken semaphore _ _, ⟨.unregister _, _⟩ => .holding semaphore
  | phase, _ => phase

def watch : Protocol ops Phase := ⟨allows, after⟩

variable {A : Type} {phase : Phase} {mask mode : UInt32}

/-- A routine that starts and ends with no semaphore and nothing owed. -/
def Clean (p : Task A) : Prop := p.Obeys watch (fun _ phase => phase = .owing []) (.owing [])

theorem Clean.bind {B : Type} {p : Task A} {k : A → Task B} (first : Clean p)
    (rest : ∀ a, Clean (k a)) : Clean (p.bind k) := first.on rest

variable (forever : Bool)

theorem timeLeft_clean (deadline : UInt64) : Clean (timeLeft forever deadline) := by
  unfold timeLeft
  split
  · rfl
  · exact ⟨trivial, fun _ => rfl⟩

theorem afterRegistration_clean (semaphore : Nat) (remaining : UInt32) (registration : Registration) :
    (afterRegistration semaphore remaining registration).Obeys watch
      (fun _ phase => phase = .owing [])
      (watch.after (.holding semaphore) ⟨.register semaphore mask mode, registration⟩) := by
  cases registration with
  | matched | full => exact ⟨.inl rfl, fun _ => rfl⟩
  | waiting =>
    refine obeys_atom.mpr ⟨⟨remaining, rfl⟩, fun wait => ?_⟩
    refine obeys_atom.mpr ⟨rfl, fun _ => ?_⟩
    exact obeys_atom.mpr ⟨.inl rfl, fun _ => rfl⟩

theorem afterTime_clean (remaining : Option UInt32) : Clean (afterTime mask mode remaining) := by
  cases remaining with
  | none => rfl
  | some remaining =>
    refine obeys_atom.mpr ⟨trivial, fun semaphore => ?_⟩
    cases semaphore with
    | none => rfl
    | some semaphore =>
      refine obeys_atom.mpr ⟨.inr ⟨mask, mode, rfl⟩, fun registration => ?_⟩
      exact afterRegistration_clean semaphore remaining registration

theorem readRound_clean (deadline : UInt64) : Clean (readRound mask mode forever deadline) := by
  refine obeys_atom.mpr ⟨trivial, fun matched => ?_⟩
  cases matched with
  | some => rfl
  | none => exact (timeLeft_clean forever deadline).bind fun remaining => afterTime_clean remaining

theorem readLoop_clean (deadline : UInt64) (rounds : Nat) :
    Clean (readLoop mask mode forever deadline rounds) := by
  induction rounds with
  | zero => rfl
  | succ rounds ih =>
    refine (readRound_clean forever deadline).bind fun result => ?_
    cases result with
    | some => rfl
    | none => exact ih

theorem raise_clean (semaphores : List Nat) :
    (raise semaphores).Obeys watch (fun _ phase => phase = .owing []) (.owing semaphores) := by
  induction semaphores with
  | nil => rfl
  | cons semaphore rest ih =>
    refine obeys_atom.mpr ⟨rfl, fun raised => ?_⟩
    cases raised with
    | true => exact ih
    | false => rfl

theorem job_clean (job : Job) : Clean job.task := by
  cases job with
  | read present mask timeoutMs mode rounds =>
    refine obeys_atom.mpr ⟨trivial, fun _ => ?_⟩
    have reads : Clean (osalEventRead present mask timeoutMs mode rounds) := by
      unfold osalEventRead
      split
      · exact ⟨trivial, fun _ => readLoop_clean _ _ rounds⟩
      · rfl
    refine reads.bind fun result => ?_
    cases result with
    | none => rfl
    | some => exact ⟨trivial, fun _ => rfl⟩
  | write present mask =>
    cases present with
    | false => rfl
    | true =>
      have raises : Clean (osalEventWrite true mask) :=
        obeys_atom.mpr ⟨trivial, fun pointers => raise_clean pointers⟩
      exact raises.bind fun _ => rfl
  | clear present =>
    cases present with
    | false => rfl
    | true => exact ⟨trivial, fun _ => rfl⟩

def place (labels : List (PoolLabel ops)) : Nat → Phase := phaseOf watch (fun _ => .owing []) labels

variable {labels : List (PoolLabel ops)} {pool after : Pool ops World}

theorem crew_of_events (run : Run eventSystem (.new .new) labels pool) :
    Run (crewSystem Atom watch) ⟨.new, fun _ => .owing []⟩ labels ⟨pool.world, place labels⟩ ∧
      ∀ i, (pool.threads i).Obeys watch (fun _ phase => phase = .owing []) (place labels i) := by
  refine crew_of_run ?_ run
  rintro i _ ⟨job, rfl⟩
  exact job_clean job

variable {w w' : World}

variable {o : Op} {reply : o.Reply}

/-- The actions that leave the table and the semaphores alone, and add no bits. -/
def Op.calm : Op → Prop
  | .jiffies | .look _ _ | .initSemaphore | .register _ _ _ | .clear _ | .enterRead _ _ _
  | .leaveRead _ => True
  | _ => False

inductive Move (w : World) : Phase → Exchange ops → World → Phase → Prop where
  | calm {phase : Phase} {exchange : Exchange ops} {group : Group} (kept : UInt32) :
      Op.calm exchange.op → (∀ semaphore mask mode, phase ≠ .waiting semaphore mask mode) →
      group.waiters = w.group.waiters →
      group.bits = w.group.bits &&& kept → Move w phase exchange ⟨group, w.semaphores⟩ phase
  | init (semaphore : Nat) : w.semaphores semaphore = none →
      Move w (.owing []) ⟨.initSemaphore, some semaphore⟩ (w.setSemaphore semaphore (some 0))
        (.holding semaphore)
  | enrol (semaphore : Nat) (mask mode : UInt32) {group : Group} : group.bits = w.group.bits →
      Waiter.satisfied w.group.bits ⟨semaphore, mask, mode⟩ = false →
      group.waiters.live.Perm (⟨semaphore, mask, mode⟩ :: w.group.waiters.live) →
      Move w (.holding semaphore) ⟨.register semaphore mask mode, .waiting⟩ ⟨group, w.semaphores⟩
        (.waiting semaphore mask mode)
  | wake (semaphore : Nat) (mask mode remaining : UInt32) (outcome : WaitOutcome)
      {raised : Option Nat} : (raised = none ↔ w.semaphores semaphore = none) →
      Move w (.waiting semaphore mask mode) ⟨.downTimeout semaphore remaining, outcome⟩
        (w.setSemaphore semaphore raised) (.woken semaphore mask mode)
  | retire (semaphore : Nat) (mask mode : UInt32) :
      Move w (.woken semaphore mask mode) ⟨.unregister semaphore, ()⟩
        { w with group := w.group.unregisterWaiter semaphore } (.holding semaphore)
  | destroy (semaphore : Nat) :
      Move w (.holding semaphore) ⟨.destroy semaphore, ()⟩ (w.setSemaphore semaphore none) (.owing [])
  | write (mask : UInt32) :
      Move w (.owing []) ⟨.write mask, (w.group.write mask).1⟩
        { w with group := (w.group.write mask).2 } (.owing (w.group.write mask).1)
  | raise (semaphore : Nat) (rest : List Nat) {raised : Option Nat} :
      raised = (w.semaphores semaphore).map (· + 1) →
      Move w (.owing (semaphore :: rest)) ⟨.up semaphore, true⟩ (w.setSemaphore semaphore raised)
        (.owing rest)
  | giveUp (semaphore : Nat) (rest : List Nat) :
      Move w (.owing (semaphore :: rest)) ⟨.up semaphore, false⟩ w (.owing [])

theorem setSemaphore_self (w : World) (semaphore : Nat) :
    w.setSemaphore semaphore (w.semaphores semaphore) = w := by
  unfold setSemaphore
  rw [update_eq_self]

theorem move_of_unencumbered (free : o.unencumbered) (taken : Atom w o reply w') :
    Move w (.owing []) ⟨o, reply⟩ w' (watch.after (.owing []) ⟨o, reply⟩) := by
  have all : w.group.bits = w.group.bits &&& ~~~0 := by simp
  cases taken with
  | look mask mode =>
    obtain ⟨waiters, kept, bits⟩ := look_spec w.group mask mode
    exact .calm kept trivial nofun waiters bits
  | initSemaphore semaphore _ absent => exact .init semaphore absent
  | write mask => exact .write mask
  | clear mask => exact .calm (~~~mask) trivial nofun rfl rfl
  | jiffies | initFailed | enterRead | leaveRead => exact .calm (~~~0) trivial nofun rfl all
  | _ => exact free.elim

theorem move_of_atom (allowed : watch.allows phase o) (taken : Atom w o reply w') :
    Move w phase ⟨o, reply⟩ w' (watch.after phase ⟨o, reply⟩) := by
  cases phase with
  | owing semaphores =>
    cases semaphores with
    | nil => exact move_of_unencumbered allowed taken
    | cons semaphore rest =>
      obtain rfl : o = .up semaphore := allowed
      cases taken with
      | up _ raised present =>
        refine .raise semaphore rest ?_
        rw [present, map_some]
      | upFailed => exact .giveUp semaphore rest
      | upDangling _ reply absent =>
        cases reply with
        | false => exact .giveUp semaphore rest
        | true =>
          have raised : w.semaphores semaphore = (w.semaphores semaphore).map (· + 1) := by
            rw [absent, map_none]
          have same := Move.raise (w := w) semaphore rest raised
          rwa [setSemaphore_self] at same
  | holding semaphore =>
    rcases allowed with rfl | ⟨mask, mode, rfl⟩
    · cases taken
      exact .destroy semaphore
    cases taken
    rcases register_cases w.group semaphore mask mode with
      ⟨waiting, wanting, bits, live⟩ | ⟨decided, waiters, kept, bits⟩
    · rw [waiting]
      exact .enrol semaphore mask mode bits wanting live
    have still : watch.after (.holding semaphore)
        ⟨.register semaphore mask mode, (w.group.register semaphore mask mode).1⟩ =
        .holding semaphore := by
      cases reply : (w.group.register semaphore mask mode).1 with
      | waiting => grind
      | matched | full => rfl
    rw [still]
    exact .calm kept trivial nofun waiters bits
  | waiting semaphore mask mode =>
    obtain ⟨remaining, rfl⟩ := allowed
    cases taken with
    | acquired _ raised _ present =>
      refine .wake semaphore mask mode remaining .acquired ?_
      simp [present]
    | unacquired =>
      have same := Move.wake (w := w) semaphore mask mode remaining reply Iff.rfl
      rwa [setSemaphore_self] at same
  | woken semaphore mask mode =>
    obtain rfl : o = .unregister semaphore := allowed
    cases taken
    exact .retire semaphore mask mode

variable {phases : Nat → Phase} {i : Nat} {exchange : Exchange ops} {next : Phase}

variable {j : Nat} {waiter : Waiter} {semaphore : Nat}

def Phase.holds : Phase → Option Nat
  | .owing _ => none
  | .holding semaphore | .waiting semaphore _ _ | .woken semaphore _ _ => some semaphore

def Phase.entry : Phase → Option Waiter
  | .waiting semaphore mask mode | .woken semaphore mask mode => some ⟨semaphore, mask, mode⟩
  | _ => none

def heldBy (phases : Nat → Phase) (i : Nat) : Option Nat := (phases i).holds

def enteredBy (phases : Nat → Phase) (i : Nat) : Option Waiter := (phases i).entry

theorem heldBy_update : heldBy (update phases i next) = update (heldBy phases) i next.holds := by
  funext j
  exact apply_update (fun _ => holds) phases i next j

theorem enteredBy_update : enteredBy (update phases i next) =
    update (enteredBy phases) i next.entry := by
  funext j
  exact apply_update (fun _ => entry) phases i next j

theorem heldBy_of_entered (entered : enteredBy phases i = some waiter) :
    heldBy phases i = some waiter.semaphore := by
  unfold enteredBy at entered
  unfold heldBy
  cases phase : phases i with
  | owing | holding =>
    rw [phase] at entered
    cases entered
  | waiting | woken =>
    rw [phase] at entered
    cases entered
    rfl

/-- Semaphores on stacks are initialised and apart, and the table holds the readers that wait, each
of them once. -/
structure Sound (w : World) (phases : Nat → Phase) : Prop where
  live : ∀ i semaphore, heldBy phases i = some semaphore → w.semaphores semaphore ≠ none
  apart : Apart (heldBy phases)
  listed : ∀ waiter, waiter ∈ w.group.waiters.live ↔ ∃ i, enteredBy phases i = some waiter
  once : (w.group.waiters.live.map Waiter.semaphore).Nodup

theorem Sound.new : Sound .new fun _ => .owing [] := by
  refine ⟨nofun, nofun, ?_, ?_⟩
  · intro waiter
    simp [World.new, Group.new, enteredBy, entry]
  · simp [World.new, Group.new]

variable {raised : Option Nat}

section

variable (sound : Sound w phases)
include sound

/-- Nothing of this changes as long as the thread keeps its semaphore and its entry. -/
theorem Sound.keep (held : next.holds = (phases i).holds) (entered : next.entry = (phases i).entry)
    (live : ∀ semaphore, w'.semaphores semaphore = none → w.semaphores semaphore = none)
    (waiters : w'.group.waiters = w.group.waiters) : Sound w' (update phases i next) := by
  have sameHeld : heldBy (update phases i next) = heldBy phases := by
    rw [heldBy_update, held]
    exact update_eq_self i (heldBy phases)
  have sameEntered : enteredBy (update phases i next) = enteredBy phases := by
    rw [enteredBy_update, entered]
    exact update_eq_self i (enteredBy phases)
  refine ⟨?_, sameHeld ▸ sound.apart, ?_, waiters ▸ sound.once⟩
  · intro j semaphore holds gone
    rw [sameHeld] at holds
    exact sound.live j semaphore holds (live semaphore gone)
  · intro waiter
    rw [waiters, sameEntered]
    exact sound.listed waiter

theorem Sound.trade (unentered : (phases i).entry = none) (still : next.entry = none)
    (fresh : ∀ j, j ≠ i → heldBy phases j ≠ some semaphore)
    (holds : next.holds = none ∨ next.holds = some semaphore ∧ raised ≠ none) :
    Sound (w.setSemaphore semaphore raised) (update phases i next) := by
  have sameEntered : enteredBy (update phases i next) = enteredBy phases := by
    rw [enteredBy_update, still, ← unentered]
    exact update_eq_self i (enteredBy phases)
  refine ⟨?_, ?_, ?_, sound.once⟩
  · intro j other held
    rw [heldBy_update] at held
    by_cases here : j = i
    · rw [here, update_self] at held
      rcases holds with nothing | ⟨one, present⟩
      · grind
      · cases one.symm.trans held
        simpa [setSemaphore] using present
    · rw [update_of_ne here] at held
      have elsewhere : other ≠ semaphore := fun same => fresh j here (same ▸ held)
      simp only [setSemaphore, update_of_ne elsewhere]
      exact sound.live j other held
  · rw [heldBy_update]
    refine sound.apart.update fun j other same => ?_
    rcases holds with nothing | ⟨one, _⟩
    · exact nothing
    · grind
  · intro waiter
    rw [sameEntered]
    exact sound.listed waiter

theorem Sound.enrol {group : Group} (holding : phases i = .holding semaphore)
    (live : group.waiters.live.Perm (⟨semaphore, mask, mode⟩ :: w.group.waiters.live)) :
    Sound ⟨group, w.semaphores⟩ (update phases i (.waiting semaphore mask mode)) := by
  have mine : heldBy phases i = some semaphore := by rw [heldBy, holding, holds]
  have sameHeld : heldBy (update phases i (.waiting semaphore mask mode)) = heldBy phases := by
    rw [heldBy_update, holds, ← mine]
    exact update_eq_self i (heldBy phases)
  have unentered : enteredBy phases i = none := by simp [enteredBy, holding, entry]
  refine ⟨?_, sameHeld ▸ sound.apart, ?_, ?_⟩
  · intro j other held
    exact sound.live j other (sameHeld ▸ held)
  · intro waiter
    rw [live.mem_iff, mem_cons, enteredBy_update, exists_update, sound.listed]
    constructor
    · rintro (rfl | ⟨j, entered⟩)
      · exact .inl rfl
      · grind
    · rintro (here | ⟨j, _, entered⟩)
      · exact .inl (some.inj here).symm
      · grind
  refine (live.map Waiter.semaphore).nodup_iff.mpr ?_
  rw [map_cons, nodup_cons]
  refine ⟨?_, sound.once⟩
  intro member
  obtain ⟨other, inside, same⟩ := mem_map.mp member
  obtain ⟨j, entered⟩ := (sound.listed other).mp inside
  have held : heldBy phases j = some semaphore :=
    (heldBy_of_entered entered).trans (congrArg some same)
  obtain rfl := sound.apart i j semaphore mine held
  rw [unentered] at entered
  cases entered

theorem Sound.retire (woken : phases i = .woken semaphore mask mode) :
    Sound { w with group := w.group.unregisterWaiter semaphore }
      (update phases i (.holding semaphore)) := by
  have mine : heldBy phases i = some semaphore := by rw [heldBy, woken, holds]
  have entered : enteredBy phases i = some ⟨semaphore, mask, mode⟩ := by
    rw [enteredBy, woken, entry]
  have sameHeld : heldBy (update phases i (.holding semaphore)) = heldBy phases := by
    rw [heldBy_update, holds, ← mine]
    exact update_eq_self i (heldBy phases)
  -- The search finds the entry of this thread, since nobody else has this semaphore.
  obtain ⟨rest, whole, left⟩ : ∃ rest,
      w.group.waiters.live.Perm (⟨semaphore, mask, mode⟩ :: rest) ∧
      (w.group.unregisterWaiter semaphore).waiters.live.Perm rest := by
    have inside := (sound.listed _).mpr ⟨i, entered⟩
    rcases w.group.waiters.find_cases (fun waiter => waiter.semaphore == semaphore) with
      ⟨_, absent⟩ | ⟨found, _, _, search, _, _, _⟩
    · grind
    · obtain ⟨fits, rest, whole, altered⟩ := Slots.perm_alter search
      have known := (sound.listed found).mp (whole.mem_iff.mpr mem_cons_self)
      obtain ⟨j, other⟩ := known
      have same : found.semaphore = semaphore := by simpa using fits
      obtain rfl := sound.apart i j semaphore mine (same ▸ heldBy_of_entered other)
      cases entered.symm.trans other
      exact ⟨rest, whole, altered fun _ => none⟩
  have distinct := (whole.map Waiter.semaphore).nodup_iff.mp sound.once
  refine ⟨?_, sameHeld ▸ sound.apart, ?_, ?_⟩
  · intro j other held
    exact sound.live j other (sameHeld ▸ held)
  · intro waiter
    rw [left.mem_iff, enteredBy_update, exists_update]
    have split := sound.listed waiter
    rw [whole.mem_iff, mem_cons] at split
    constructor
    · grind
    · rintro (nothing | ⟨j, other, there⟩)
      · cases nothing
      · rcases split.mpr ⟨j, there⟩ with rfl | inRest
        · exact absurd (sound.apart j i semaphore (heldBy_of_entered there) mine) other
        · exact inRest
  · grind

end

theorem setSemaphore_ne_none (same : raised = none → w.semaphores semaphore = none) (other : Nat)
    (gone : (w.setSemaphore semaphore raised).semaphores other = none) :
    w.semaphores other = none := by
  by_cases here : other = semaphore
  · subst here
    simp only [setSemaphore, update_self] at gone
    exact same gone
  · simpa only [setSemaphore, update_of_ne here] using gone

theorem Sound.move (sound : Sound w phases) (move : Move w (phases i) exchange w' next) :
    Sound w' (update phases i next) := by
  generalize here : phases i = phase at move
  cases move with
  | calm kept _ _ waiters =>
    exact sound.keep (by rw [here]) (by rw [here]) (fun _ gone => gone) waiters
  | init semaphore absent =>
    refine sound.trade (by rw [here]; rfl) rfl ?_ (.inr ⟨rfl, nofun⟩)
    intro j _ held
    exact sound.live j semaphore held absent
  | enrol semaphore mask mode _ _ live => exact sound.enrol here live
  | wake semaphore mask mode remaining outcome same =>
    exact sound.keep (by rw [here]; rfl) (by rw [here]; rfl) (setSemaphore_ne_none same.mp) rfl
  | retire => exact sound.retire here
  | destroy semaphore =>
    refine sound.trade (by rw [here]; rfl) rfl ?_ (.inl rfl)
    intro j other held
    have mine : heldBy phases i = some semaphore := by rw [heldBy, here, holds]
    exact other (sound.apart j i semaphore held mine)
  | write => exact sound.keep (by rw [here]; rfl) (by rw [here]; rfl) (fun _ gone => gone) rfl
  | raise semaphore rest raised =>
    refine sound.keep (by rw [here]; rfl) (by rw [here]; rfl) (setSemaphore_ne_none ?_) rfl
    rw [raised]
    exact map_eq_none_iff.mp
  | giveUp =>
    exact sound.keep (by rw [here]; rfl) (by rw [here]; rfl) (fun _ gone => gone) rfl

/-- Who waits for what is there has been woken, or someone still owes it. -/
def Attended (w : World) (phases : Nat → Phase) : Prop :=
  ∀ i semaphore mask mode, phases i = .waiting semaphore mask mode →
    Waiter.satisfied w.group.bits ⟨semaphore, mask, mode⟩ = true →
    (∃ raised, w.semaphores semaphore = some (raised + 1)) ∨
      ∃ j semaphores, phases j = .owing semaphores ∧ semaphore ∈ semaphores

theorem Attended.new : Attended .new fun _ => .owing [] := nofun

theorem Attended.keep (attended : Attended w phases) (sound : Sound w phases)
    (fewer : ∀ waiter, Waiter.satisfied w'.group.bits waiter = true →
      Waiter.satisfied w.group.bits waiter = true)
    (waits : ∀ semaphore mask mode, next = .waiting semaphore mask mode →
      Waiter.satisfied w'.group.bits ⟨semaphore, mask, mode⟩ = false)
    (raised : ∀ k semaphore, k ≠ i → heldBy phases k = some semaphore →
      w'.semaphores semaphore = w.semaphores semaphore ∨
        ∃ raised, w'.semaphores semaphore = some (raised + 1))
    (owed : ∀ semaphores semaphore, phases i = .owing semaphores → semaphore ∈ semaphores →
      w.semaphores semaphore ≠ none → (∃ raised, w'.semaphores semaphore = some (raised + 1)) ∨
        ∃ left, next = .owing left ∧ semaphore ∈ left) : Attended w' (update phases i next) := by
  intro k semaphore mask mode waiting satisfied
  by_cases mover : k = i
  · grind
  rw [update_of_ne mover] at waiting
  have held : heldBy phases k = some semaphore := by rw [heldBy, waiting, holds]
  rcases attended k semaphore mask mode waiting (fewer _ satisfied) with
    ⟨count, woken⟩ | ⟨j, semaphores, owing, member⟩
  · grind
  · by_cases here : j = i
    · subst here
      rcases owed semaphores semaphore owing member (sound.live k semaphore held) with
        more | ⟨left, still, inside⟩
      · exact .inl more
      · exact .inr ⟨j, left, by grind, inside⟩
    · exact .inr ⟨j, semaphores, by grind, member⟩

theorem Attended.write (sound : Sound w phases) (mask : UInt32) :
    Attended { w with group := (w.group.write mask).2 }
      (update phases i (.owing (w.group.write mask).1)) := by
  intro k semaphore wanted mode waiting satisfied
  right
  refine ⟨i, (w.group.write mask).1, update_self _ _ _, ?_⟩
  by_cases mover : k = i
  · grind
  · rw [update_of_ne mover] at waiting
    have listed := (sound.listed ⟨semaphore, wanted, mode⟩).mpr
      ⟨k, by rw [enteredBy, waiting, entry]⟩
    exact mem_map.mpr ⟨_, mem_filter.mpr ⟨listed, satisfied⟩, rfl⟩

theorem setSemaphore_other {other : Nat} (apart : other ≠ semaphore) :
    (w.setSemaphore semaphore raised).semaphores other = w.semaphores other := by
  simp only [setSemaphore, update_of_ne apart]

theorem Attended.move (attended : Attended w phases) (sound : Sound w phases)
    (served : ∀ semaphore, exchange ≠ ⟨.up semaphore, false⟩)
    (move : Move w (phases i) exchange w' next) : Attended w' (update phases i next) := by
  generalize here : phases i = phase at move
  -- What this thread holds is not what another one waits on.
  have apart {semaphore : Nat} (mine : phase.holds = some semaphore) (k other : Nat) (mover : k ≠ i)
      (held : heldBy phases k = some other) : other ≠ semaphore := by
    rintro rfl
    refine mover (sound.apart k i other held ?_)
    rw [heldBy, here, mine]
  cases move with
  | calm kept _ still waiters bits =>
    refine attended.keep sound ?_ ?_ (fun _ _ _ _ => .inl rfl) ?_
    · intro waiter satisfied
      exact satisfied_of_and kept (bits ▸ satisfied)
    · grind
    · grind
  | init semaphore absent =>
    refine attended.keep sound (fun _ satisfied => satisfied) nofun ?_ ?_
    · intro k other _ held
      refine .inl (setSemaphore_other ?_)
      rintro rfl
      exact sound.live k other held absent
    · grind
  | enrol semaphore mask mode bits =>
    refine attended.keep sound (fun _ satisfied => bits ▸ satisfied) ?_ (fun _ _ _ _ => .inl rfl) ?_ <;>
      grind
  | retire =>
    refine attended.keep sound (fun _ satisfied => satisfied) nofun (fun _ _ _ _ => .inl rfl) ?_
    intro semaphores other owing
    rw [here] at owing
    cases owing
  | wake | destroy =>
    refine attended.keep sound (fun _ satisfied => satisfied) nofun ?_ ?_
    · intro k other mover held
      exact .inl (setSemaphore_other (apart rfl k other mover held))
    · grind
  | write mask => exact .write sound mask
  | raise semaphore rest raised =>
    have higher (other : Nat) (present : w.semaphores other ≠ none) (same : other = semaphore) :
        ∃ count, (w.setSemaphore semaphore ((w.semaphores semaphore).map (· + 1))).semaphores other
          = some (count + 1) := by
      subst same
      obtain ⟨count, known⟩ := ne_none_iff_exists'.mp present
      refine ⟨count, ?_⟩
      simp only [setSemaphore, update_self, known, map_some]
    subst raised
    refine attended.keep sound (fun _ satisfied => satisfied) nofun ?_ ?_
    · intro k other _ held
      by_cases same : other = semaphore
      · exact .inr (higher other (sound.live k other held) same)
      · exact .inl (setSemaphore_other same)
    · grind
  | giveUp => grind

theorem place_act (labels : List (PoolLabel ops)) (i : Nat) (exchange : Exchange ops) :
    place (labels ++ [.act i exchange]) =
      update (place labels) i (watch.after (place labels i) exchange) :=
  phaseOf_act i exchange

section

variable (run : Run eventSystem (.new .new) labels pool)
include run

theorem move_of_step (step : eventSystem.step pool (.act i exchange) after) :
    Move pool.world (place labels i) exchange after.world
      (watch.after (place labels i) exchange) := by
  have threads := (crew_of_events run).2 i
  cases step with
  | act waiting taken =>
    rw [waiting] at threads
    exact move_of_atom threads.1 taken

theorem place_start (step : eventSystem.step pool (.start i) after) :
    place (labels ++ [.start i]) = place labels := by
  have threads := (crew_of_events run).2 i
  cases step with
  | start idle =>
    rw [idle] at threads
    exact phaseOf_start threads

theorem sound_of_run : Sound pool.world (place labels) := by
  induction run with
  | start => exact .new
  | @next earlier before after label run step ih =>
    cases label with
    | start =>
      rw [place_start run step]
      cases step
      exact ih
    | act =>
      rw [place_act]
      exact ih.move (move_of_step run step)

theorem attended_of_run (served : ∀ i semaphore, .act i ⟨.up semaphore, false⟩ ∉ labels) :
    Attended pool.world (place labels) := by
  induction run with
  | start => exact .new
  | @next earlier before after label run step ih =>
    have attended := ih fun i semaphore member => served i semaphore (mem_append_left _ member)
    cases label with
    | start =>
      rw [place_start run step]
      cases step
      exact attended
    | act i =>
      rw [place_act]
      refine attended.move (sound_of_run run) ?_ (move_of_step run step)
      rintro semaphore rfl
      exact served i semaphore (by simp)

/-- A thread that waits on a semaphore is in the table with the mask and the mode of its call. -/
theorem waiting_of_blocked {remaining : UInt32} {next : WaitOutcome → Program ops Unit}
    (blocked : pool.threads i = .call (.downTimeout semaphore remaining) next) :
    ∃ mask timeoutMs mode rest, acts i labels = begun mask timeoutMs mode :: rest ∧
      place labels i = .waiting semaphore mask mode := by
  have guarded := obeys_acts jobs_told run i
  rw [blocked] at guarded
  obtain ⟨⟨mask, timeoutMs, mode, rest, known⟩, _⟩ := guarded
  refine ⟨mask, timeoutMs, mode, _, known, ?_⟩
  -- The last thing it did was to register, which is what its phase remembers.
  rw [place, phaseOf, known, foldl_concat]
  cases (begun mask timeoutMs mode :: rest).foldl watch.after (.owing []) <;> rfl

theorem unfinished_of_owing {semaphores : List Nat} (owing : place labels i = .owing semaphores)
    (member : semaphore ∈ semaphores) : pool.threads i ≠ .done () := by
  intro finished
  have resting := (crew_of_events run).2 i
  rw [finished] at resting
  obtain rfl := Phase.owing.inj (owing.symm.trans resting)
  cases member

end

/-- Who waits for what is there has been woken, or a writer still owes it: whoever is blocked stands
in the table with the mask and the mode of its call, and if the bits satisfy it then its semaphore
has been raised or is on the list of a writer that has not finished. -/
theorem satisfied_reader_is_woken (run : Run eventSystem (.new .new) labels pool)
    (served : ∀ i semaphore, .act i ⟨.up semaphore, false⟩ ∉ labels) {semaphore : Nat}
    {remaining : UInt32} {next : WaitOutcome → Program ops Unit}
    (blocked : pool.threads i = .call (.downTimeout semaphore remaining) next) :
    ∃ mask timeoutMs mode rest, acts i labels = begun mask timeoutMs mode :: rest ∧
      ⟨semaphore, mask, mode⟩ ∈ pool.world.group.waiters.live ∧
      (Waiter.satisfied pool.world.group.bits ⟨semaphore, mask, mode⟩ = true →
        (∃ raised, pool.world.semaphores semaphore = some (raised + 1)) ∨
        ∃ j semaphores, place labels j = .owing semaphores ∧ semaphore ∈ semaphores ∧
          pool.threads j ≠ .done ()) := by
  obtain ⟨mask, timeoutMs, mode, rest, known, waiting⟩ := waiting_of_blocked run blocked
  refine ⟨mask, timeoutMs, mode, rest, known, ?_, ?_⟩
  · refine ((sound_of_run run).listed _).mpr ⟨i, ?_⟩
    rw [enteredBy, waiting, entry]
  · intro satisfied
    rcases attended_of_run run served i semaphore mask mode waiting satisfied with
      woken | ⟨j, semaphores, owing, member⟩
    · exact .inl woken
    · exact .inr ⟨j, semaphores, owing, member, unfinished_of_owing run owing member⟩

def refused : PoolLabel ops → Bool
  | .act _ ⟨.up _, raised⟩ => !raised
  | _ => false

theorem unrefused (calm : ∀ label ∈ labels, refused label = false) (j semaphore : Nat) :
    .act j ⟨.up semaphore, false⟩ ∉ labels := fun member => by cases calm _ member

/-- A reader waits for a bit, which a writer has set without having raised the reader yet. -/
theorem writer_owes_the_reader :
    ∃ (labels : List (PoolLabel ops)) (pool : Pool ops World) (next : WaitOutcome → Program ops Unit),
      Run eventSystem (.new .new) labels pool ∧
      pool.threads 0 = .call (.downTimeout 4 10) next ∧ pool.world.semaphores 4 = some 0 ∧
      ∃ j semaphores, place labels j = .owing semaphores ∧ 4 ∈ semaphores ∧
        pool.threads j ≠ .done () := by
  have blocked : Run eventSystem (.new .new) _ _ :=
    run_job plainAnswer_fits 6 (i := 0) ⟨.read true 1 10 0 1, rfl⟩ rfl
  have written := blocked.trans (run_job plainAnswer_fits 1 (i := 1) ⟨.write true 1, rfl⟩ rfl)
  refine ⟨_, _, _, written, rfl, rfl, ?_⟩
  obtain ⟨mask, timeoutMs, mode, rest, _, listed, woken⟩ :=
    satisfied_reader_is_woken (i := 0) written (unrefused (by decide)) rfl
  have entry : (⟨4, mask, mode⟩ : Waiter) = ⟨4, 1, 0⟩ := mem_singleton.mp listed
  cases entry
  rcases woken rfl with ⟨raised, more⟩ | owed
  · cases more
  · exact owed

end HisiRf.EventGroup
