import HisiRf.Osal.EventWaiters

/-! Whose semaphores a writer raises.

A writer uses the addresses it has noted after it has left its critical section.
A reader that leaves its wait in between takes its semaphore with it. As long as
no reader does, every semaphore that is raised is one that is still in use, and
the one that was noted.
-/

namespace HisiRf.EventGroup

open Interaction Function List

variable {w w' : World} {phase next : Phase} {exchange : Exchange ops} {waiter : Waiter}
  {labels : List (PoolLabel ops)} {pool after : Pool ops World} {i j semaphore : Nat}

theorem Move.entry (move : Move w phase exchange w' next) (entered : phase.entry = some waiter) :
    next.entry = some waiter ∨ exchange = ⟨.unregister waiter.semaphore, ()⟩ := by
  cases move with
  | calm | wake => exact .inl entered
  | retire =>
    cases entered
    exact .inr rfl
  | _ => cases entered

theorem owing_of_up (allowed : watch.allows phase (.up semaphore)) :
    ∃ rest, phase = .owing (semaphore :: rest) := by
  cases phase with
  | owing semaphores =>
    cases semaphores with
    | nil => exact allowed.elim
    | cons head rest =>
      cases allowed
      exact ⟨rest, rfl⟩
  | holding => rcases allowed with none | ⟨_, _, none⟩ <;> cases none
  | waiting => cases allowed.choose_spec
  | woken => cases allowed

theorem Move.holding_of_destroy (move : Move w phase ⟨.destroy semaphore, ()⟩ w' next) :
    phase = .holding semaphore := by
  cases move with
  | calm _ calm => exact calm.elim
  | destroy => rfl

variable {semaphores : List Nat} {label : PoolLabel ops} {k : Nat}

theorem Move.owing (move : Move w phase exchange w' (.owing semaphores))
    (member : semaphore ∈ semaphores) : (∃ earlier, phase = .owing earlier ∧ semaphore ∈ earlier) ∨
      phase = .owing [] ∧
        ∃ mask, exchange = ⟨.write mask, semaphores⟩ ∧ semaphores = (w.group.write mask).1 := by
  cases move with
  | calm => exact .inl ⟨semaphores, rfl, member⟩
  | write mask => exact .inr ⟨rfl, mask, rfl, rfl⟩
  | raise raised => exact .inl ⟨_, rfl, mem_cons_of_mem raised member⟩
  | destroy | giveUp => cases member

/-- A semaphore that was noted and has not been destroyed since. -/
def NotedBy (labels : List (PoolLabel ops)) (j semaphore : Nat) : Prop :=
  ∃ early mask pointers between, labels = early ++ .act j ⟨.write mask, pointers⟩ :: between ∧
    semaphore ∈ pointers ∧ ∀ k, .act k ⟨.destroy semaphore, ()⟩ ∉ between

theorem NotedBy.snoc (noted : NotedBy labels j semaphore)
    (spared : ∀ k, label ≠ .act k ⟨.destroy semaphore, ()⟩) :
    NotedBy (labels ++ [label]) j semaphore := by
  obtain ⟨early, mask, pointers, between, rfl, member, undestroyed⟩ := noted
  refine ⟨early, mask, pointers, between ++ [label], by simp, member, ?_⟩
  intro k destroyed
  rcases mem_append.mp destroyed with earlier | last
  · exact undestroyed k earlier
  · exact spared k (mem_singleton.mp last).symm

/-- The semaphore is the one that was noted, and its reader still stands in the table. -/
def InUse (labels : List (PoolLabel ops)) (j semaphore : Nat) : Prop :=
  NotedBy labels j semaphore ∧
    ∃ i waiter, enteredBy (place labels) i = some waiter ∧ waiter.semaphore = semaphore

def Outstanding (labels : List (PoolLabel ops)) : Prop :=
  ∀ j semaphores semaphore, place labels j = .owing semaphores → semaphore ∈ semaphores →
    InUse labels j semaphore

/-- No reader leaves its wait while a writer that has noted its semaphore has still to raise it. -/
def Patient (labels : List (PoolLabel ops)) : Prop :=
  ∀ early i semaphore late, labels = early ++ .act i ⟨.unregister semaphore, ()⟩ :: late →
    ∀ j semaphores, place early j = .owing semaphores → semaphore ∉ semaphores

theorem Patient.earlier (patient : Patient (labels ++ [label])) :
    Patient labels := fun early i semaphore late split =>
  patient early i semaphore (late ++ [label]) (by rw [split, append_assoc]; rfl)

section

variable (run : Run eventSystem (.new .new) labels pool)
include run

/-- The entry of someone who is owed an increment outlasts a step of any thread. -/
theorem entry_after_step (patient : Patient (labels ++ [.act i exchange]))
    (step : eventSystem.step pool (.act i exchange) after)
    (owing : place labels j = .owing semaphores) (member : waiter.semaphore ∈ semaphores)
    (entered : enteredBy (place labels) k = some waiter) :
    enteredBy (place (labels ++ [.act i exchange])) k = some waiter := by
  rw [place_act, enteredBy_update]
  by_cases mover : k = i
  · subst mover
    rw [update_self]
    rcases (move_of_step run step).entry entered with still | rfl
    · exact still
    · exact absurd member (patient labels k waiter.semaphore [] rfl j semaphores owing)
  · rw [update_of_ne mover, entered]

theorem spared_of_entry (step : eventSystem.step pool (.act i exchange) after)
    (entered : enteredBy (place labels) k = some waiter) :
    exchange ≠ ⟨.destroy waiter.semaphore, ()⟩ := by
  rintro rfl
  have holding := (move_of_step run step).holding_of_destroy
  have mine : heldBy (place labels) i = some waiter.semaphore := by
    rw [heldBy, holding, Phase.holds]
  obtain rfl := (sound_of_run run).apart k i _ (heldBy_of_entered entered) mine
  rw [enteredBy, holding] at entered
  cases entered

theorem Outstanding.carry (known : Outstanding labels)
    (patient : Patient (labels ++ [.act i exchange]))
    (step : eventSystem.step pool (.act i exchange) after)
    (owing : place labels j = .owing semaphores) (member : semaphore ∈ semaphores) :
    InUse (labels ++ [.act i exchange]) j semaphore := by
  obtain ⟨noted, k, waiter, entered, rfl⟩ := known j semaphores semaphore owing member
  refine ⟨noted.snoc ?_, k, waiter, entry_after_step run patient step owing member entered, rfl⟩
  intro other destroyed
  cases destroyed
  exact spared_of_entry run step entered rfl

theorem inUse_of_write {mask : UInt32} {pointers : List Nat} (resting : place labels i = .owing [])
    (noted : pointers = (pool.world.group.write mask).1) (member : semaphore ∈ pointers) :
    InUse (labels ++ [.act i ⟨.write mask, pointers⟩]) i semaphore := by
  refine ⟨⟨labels, mask, pointers, [], rfl, member, nofun⟩, ?_⟩
  rw [noted] at member
  obtain ⟨waiter, listed, rfl⟩ := mem_map.mp member
  obtain ⟨k, entered⟩ := ((sound_of_run run).listed waiter).mp (mem_filter.mp listed).1
  refine ⟨k, waiter, ?_, rfl⟩
  have other : k ≠ i := by
    rintro rfl
    rw [enteredBy, resting] at entered
    cases entered
  rw [place_act, enteredBy_update, update_of_ne other, entered]

theorem outstanding_of_run (patient : Patient labels) : Outstanding labels := by
  induction run with
  | start =>
    intro j semaphores semaphore owing member
    obtain rfl := Phase.owing.inj owing
    cases member
  | @next earlier before after label run step ih =>
    have known := ih patient.earlier
    intro j semaphores semaphore owing member
    cases label with
    | start =>
      rw [place_start run step] at owing
      obtain ⟨noted, entry⟩ := known j semaphores semaphore owing member
      refine ⟨noted.snoc nofun, ?_⟩
      rw [place_start run step]
      exact entry
    | act i =>
      rw [place_act] at owing
      by_cases mover : j = i
      · subst mover
        rw [update_self] at owing
        have move := move_of_step run step
        rw [owing] at move
        rcases move.owing member with ⟨owed, before, still⟩ | ⟨resting, mask, rfl, noted⟩
        · exact known.carry run patient step before still
        · exact inUse_of_write run resting noted member
      · rw [update_of_ne mover] at owing
        exact known.carry run patient step owing member

end

/-! ## Every raise -/

/-- If no reader leaves while it is owed an increment, then every semaphore that a write raises is
initialised, and it is the one that the write has noted. -/
theorem write_raises_semaphores_in_use {reply : Bool}
    (run : Run eventSystem (.new .new) labels pool) (patient : Patient labels)
    (step : eventSystem.step pool (.act j ⟨.up semaphore, reply⟩) after) :
    pool.world.semaphores semaphore ≠ none ∧ NotedBy labels j semaphore := by
  have threads := (crew_of_events run).2 j
  have owing : ∃ rest, place labels j = .owing (semaphore :: rest) := by
    cases step with
    | act waiting =>
      rw [waiting] at threads
      exact owing_of_up threads.1
  obtain ⟨rest, owing⟩ := owing
  obtain ⟨noted, k, waiter, entered, rfl⟩ :=
    outstanding_of_run run patient j _ semaphore owing mem_cons_self
  exact ⟨(sound_of_run run).live k _ (heldBy_of_entered entered), noted⟩

def leaves : PoolLabel ops → Bool
  | .act _ ⟨.unregister _, _⟩ => true
  | _ => false

theorem patient_of_stayed (stayed : ∀ label ∈ labels, leaves label = false) : Patient labels := by
  intro early i semaphore late split
  have stays := stayed (.act i ⟨.unregister semaphore, ()⟩) (by simp [split])
  cases stays

/-- A reader waits, a writer notes its semaphore and raises it. -/
theorem raise_after_note : ∃ (labels : List (PoolLabel ops)) (pool after : Pool ops World),
      Run eventSystem (.new .new) labels pool ∧ eventSystem.step pool (.act 1 ⟨.up 4, true⟩) after ∧
      pool.world.semaphores 4 ≠ none ∧ NotedBy labels 1 4 := by
  have blocked : Run eventSystem (.new .new) _ _ :=
    run_job plainAnswer_fits 6 (i := 0) ⟨.read true 1 10 0 1, rfl⟩ rfl
  have written := blocked.trans (run_job plainAnswer_fits 1 (i := 1) ⟨.write true 1, rfl⟩ rfl)
  refine ⟨_, _, _, written, .act rfl (.up 4 0 rfl), ?_⟩
  exact write_raises_semaphores_in_use written (patient_of_stayed (by decide))
    (.act rfl (.up 4 0 rfl))

/-- A reader times out and destroys its semaphore after a writer has noted it. The writer then raises
what is no longer there. -/
theorem write_raises_destroyed_semaphore :
    ∃ (labels : List (PoolLabel ops)) (pool after : Pool ops World),
      Run eventSystem (.new .new) labels pool ∧ eventSystem.step pool (.act 1 ⟨.up 4, true⟩) after ∧
      pool.world.semaphores 4 = none ∧ .act 0 ⟨.destroy 4, ()⟩ ∈ labels := by
  have blocked : Run eventSystem (.new .new) _ _ :=
    run_job plainAnswer_fits 6 (i := 0) ⟨.read true 1 10 0 1, rfl⟩ rfl
  have written := blocked.trans (run_job plainAnswer_fits 1 (i := 1) ⟨.write true 1, rfl⟩ rfl)
  have left := written.trans (run_drive plainAnswer_fits 3 0 _ _ rfl)
  refine ⟨_, _, _, left, .act rfl (.upDangling 4 true rfl), rfl, ?_⟩
  exact mem_append_right _ (.tail _ (.tail _ (.head _)))

end HisiRf.EventGroup
