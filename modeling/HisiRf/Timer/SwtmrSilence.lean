import HisiRf.Timer.SwtmrAgreement
import HisiRf.Timer.SwtmrRuns

/-! When the handler of a LiteOS timer is called.

A timer that was just created, stopped or deleted is asleep: it is not armed, it is not
about to be fired, and nobody is starting it. Only a call that starts it wakes it up.
-/

namespace HisiRf.Swtmr

open Interaction Function World
open EventGroup (osalOk)

section Exchanges

variable (index : Index)

def Starts : Exchange ops → Prop
  | ⟨.inr (.enter _ request), _⟩ => request.starts = true ∧ request.names = some index
  | _ => False

def Creates : Exchange ops → Prop
  | ⟨.inr (.claimCb _ _ _ _ _), found⟩ => found = some index
  | _ => False

def Silences : Exchange ops → Prop
  | ⟨.inr (.leave _ request _), _⟩ => request.silences = true ∧ request.names = some index
  | _ => False

def Deletes : Exchange ops → Prop
  | ⟨.inr (.leave _ request _), _⟩ => request.deletes = true ∧ request.names = some index
  | _ => False

def Fires : Exchange ops → Prop
  | ⟨.inr (.callHandler _ fired _ _), _⟩ => fired = index
  | _ => False

end Exchanges

structure Asleep (index : Index) (w : World) (places : Nat → Phase) : Prop where
  dormant : Dormant w index
  unstarted : ∀ j doing, (places j).doing = some doing → doing.about = some index →
    doing.request.starts = false

variable {w w' : World} {places : Nat → Phase} {i : Nat} {index : Index}

theorem Asleep.service {o : Timer.Op} {reply : o.Reply} {next : Timer.World}
    (asleep : Asleep index w places) (sound : Sound w places)
    (allowed : phases.allows (places i) (.inl o)) (taken : Timer.Atom w.osal o reply next) :
    Asleep index (afterService w o next) (update places i ((places i).afterOsal ⟨o, reply⟩)) where
  dormant := sound.dormant allowed taken asleep.dormant fun doing now about _ =>
    asleep.unstarted i doing now about
  unstarted j after now about := by
    obtain ⟨doing, before, request, same, _⟩ := doing_before now
    rw [request]
    exact asleep.unstarted j doing before (same.symm.trans about)

variable {o : Op}

theorem Dormant.own {reply : o.Reply} (dormant : Dormant w index) (taken : Atom w (.inr o) reply w') :
    Dormant w' index := by
  cases taken with
  | claimCb =>
    unfold claimCb
    cases w.freeIndex with
    | none => exact dormant
    | some => exact dormant.congr rfl rfl
  | startCb =>
    unfold startCb
    split
    next => exact dormant
    next => exact dormant.congr rfl rfl
  | prepare => exact ⟨dormant.off.same_slots rfl, dormant.still⟩
  | returned thread =>
    refine ⟨dormant.off, fun expiring => dormant.still ?_⟩
    obtain ⟨j, batched | current⟩ := expiring
    · exact ⟨j, .inl batched⟩
    · refine ⟨j, .inr ?_⟩
      dsimp only at current
      by_cases mine : j = thread
      · grind
      · rwa [update_of_ne mine] at current
  | _ => exact dormant.congr rfl rfl

theorem doing_own {reply : o.Reply} {after : Doing} (allowed : phases.allows (places i) (.inr o))
    (now : ((places i).afterOwn ⟨o, reply⟩).doing = some after) (about : after.about = some index) :
    (∃ doing, (places i).doing = some doing ∧ doing.about = some index ∧
      after.request = doing.request) ∨
    after.request.starts = false ∨ Starts index ⟨.inr o, reply⟩ := by
  obtain ⟨_, allowed⟩ := allowed
  have staged {stage : Doing → Stage} (mapped : (places i).doing.map
      (fun doing => { doing with stage := stage doing }) = some after) :
      ∃ doing, (places i).doing = some doing ∧ doing.about = some index ∧
        after.request = doing.request := by
    obtain ⟨doing, before, rfl⟩ := Option.map_eq_some_iff.mp mapped
    exact ⟨doing, before, about, rfl⟩
  cases o with
  | claimCb =>
    obtain ⟨_, request, before, _, unstarting⟩ := allowed
    cases reply with
    | none => exact .inl ⟨after, now, about, rfl⟩
    | some =>
      unfold Phase.afterOwn at now
      rw [before] at now
      cases now
      exact .inr (.inl unstarting)
  | startCb =>
    cases reply with
    | none => exact .inl ⟨after, now, about, rfl⟩
    | some => exact .inl (staged now)
  | prepare | clearCb | isAllocated => exact .inl (staged now)
  | enter thread request =>
    cases now
    cases starts : request.starts with
    | false => exact .inr (.inl rfl)
    | true => exact .inr (.inr ⟨starts, about⟩)
  | leave => cases now
  | _ => exact .inl ⟨after, now, about, rfl⟩

section

variable {o : ops.Op} {reply : ops.Reply o} (asleep : Asleep index w places)
  (sound : Sound w places) (allowed : phases.allows (places i) o)
include asleep sound allowed

theorem Asleep.step (taken : Atom w o reply w') (unstarted : ¬Starts index ⟨o, reply⟩) :
    Asleep index w' (update places i (phases.after (places i) ⟨o, reply⟩)) := by
  cases o with
  | inl =>
    cases taken with
    | osal step => exact asleep.service sound allowed step
  | inr =>
    refine ⟨asleep.dormant.own taken, fun j after now about => ?_⟩
    by_cases mine : j = i
    · subst mine
      rw [update_self] at now
      rcases doing_own allowed now about with ⟨doing, before, same, request⟩ | unstarting | starts
      · rw [request]
        exact asleep.unstarted j doing before same
      · exact unstarting
      · exact absurd starts unstarted
    · rw [update_of_ne mine] at now
      exact asleep.unstarted j after now about

theorem Asleep.silent : ¬Fires index ⟨o, reply⟩ := by
  intro fires
  cases o with
  | inl => exact fires.elim
  | inr o =>
    cases o with
    | callHandler thread fired =>
      obtain rfl : fired = index := fires
      exact asleep.dormant.still (sound.expiring_of_fires allowed.2.2)
    | _ => exact fires.elim

end

/-- The call that stopped or deleted the timer was the only one that dealt with it. -/
theorem asleep_of_silences {o : ops.Op} {reply : ops.Reply o} (sound : Sound w places)
    (allowed : phases.allows (places i) o) (taken : Atom w o reply w')
    (silences : Silences index ⟨o, reply⟩) :
    Asleep index w' (update places i (phases.after (places i) ⟨o, reply⟩)) := by
  cases o with
  | inl => exact silences.elim
  | inr o =>
    cases o with
    | leave =>
      obtain ⟨_, _, doing, now, rfl, leaves⟩ := allowed
      obtain ⟨about, silent⟩ := (leaves.2 index silences.2).1 silences.1
      refine ⟨((sound.knows i doing index now about).silent silent).own taken, ?_⟩
      intro j other his same
      by_cases mine : j = i
      · rw [mine, update_self] at his
        cases his
      · rw [update_of_ne mine] at his
        exact absurd same (sound.alone now about mine his)
    | _ => exact silences.elim

theorem claimCb_fst (w : World) {thread : Nat} {interval handler arg : UInt32} {mode : UInt8} :
    (w.claimCb thread interval mode handler arg).1 = w.freeIndex := by
  unfold claimCb
  cases w.freeIndex with
  | none | some => rfl

section

variable {o : ops.Op} {reply : ops.Reply o} (sound : Sound w places)
  (allowed : phases.allows (places i) o) (taken : Atom w o reply w')
include sound allowed taken

theorem asleep_of_creates (separate : Separate w o reply) (creates : Creates index ⟨o, reply⟩) :
    Asleep index w' (update places i (phases.after (places i) ⟨o, reply⟩)) := by
  cases o with
  | inl => exact creates.elim
  | inr o =>
    cases o with
    | claimCb =>
      obtain rfl : reply = some index := creates
      have alone (j : Nat) (other : Doing) (his : (places j).doing = some other) :
          other.about ≠ some index := fun about =>
        separate j other.request (sound.calls_of his about)
      have free : w.freeIndex = some index := by
        generalize (some index : Option Index) = found at taken ⊢
        cases taken
        exact (claimCb_fst w).symm
      have dormant := (sound.free index (state_of_freeIndex free)).1
      refine ⟨dormant.own taken, fun j after now about => ?_⟩
      by_cases mine : j = i
      · subst mine
        rw [update_self] at now
        rcases doing_own allowed now about with ⟨doing, before, same, _⟩ | unstarting | starts
        · exact absurd same (alone j doing before)
        · exact unstarting
        · exact starts.elim
      · grind
    | _ => exact creates.elim

/-- A control block that is free stays so until it is given to a call. -/
theorem Sound.still_free (free : (w.cbs index).state = 0) (uncreated : ¬Creates index ⟨o, reply⟩) :
    (w'.cbs index).state = 0 := by
  have elsewhere {other : Index} {cb : Cb} (busy : other = index → cb.state = 0) :
      ((w.setCb other cb).cbs index).state = 0 := by
    by_cases mine : index = other
    · rw [mine, setCb_self]
      exact busy mine.symm
    · rw [setCb_of_ne mine]
      exact free
  cases taken with
  | claimCb =>
    unfold claimCb at uncreated ⊢
    cases found : w.freeIndex with
    | none => exact free
    | some =>
      rw [found] at uncreated
      exact elsewhere fun same => absurd (congrArg some same) uncreated
  | startCb =>
    unfold startCb
    split
    next => exact free
    next busy => grind
  | stopCb =>
    obtain ⟨_, request, now⟩ := allowed
    refine elsewhere fun same => ?_
    subst same
    exact absurd free ((sound.knows i _ _ now rfl).live rfl)
  | beginFire =>
    refine elsewhere fun same => ?_
    subst same
    exact absurd free (sound.in_use (sound.expiring_of_fires allowed.2.2))
  | clearCb => exact elsewhere fun _ => rfl
  | setPeriod | endFire =>
    refine elsewhere fun same => ?_
    rw [same]
    exact free
  | osal | _ => exact free

theorem free_of_deletes (deletes : Deletes index ⟨o, reply⟩) : (w'.cbs index).state = 0 := by
  cases taken with
  | leave thread request =>
    obtain ⟨_, _, doing, now, rfl, leaves⟩ := allowed
    obtain ⟨quiet, cleared⟩ := leaves.2 index deletes.2
    have silences : doing.request.silences = true := by
      cases request : doing.request with
      | delete => rfl
      | _ =>
        rw [request] at deletes
        cases deletes.1
    exact (sound.knows i doing index now (quiet silences).1).cleared (cleared deletes.1)
  | _ => exact deletes.elim

end

variable {labels first between rest : List (PoolLabel ops)} {pool : Pool ops World}
  {exchange : Exchange ops}

theorem asleep_since (quiet : Silences index exchange ∨ Creates index exchange)
    (run : Run (swtmrSystem.keeping Orderly) (.new .new) (first ++ .act i exchange :: between) pool)
    (unstarted : ∀ k later, .act k later ∈ between → ¬Starts index later) :
    Asleep index pool.world (phaseOf phases home (first ++ .act i exchange :: between)) := by
  refine crew_since tasks_obey ?_ ?_ run unstarted
  · intro before after earlier step
    have sound := sound_of_run earlier
    obtain ⟨allowed, taken⟩ := allowed_of_step tasks_obey earlier.unruled step.1
    rw [phaseOf_act]
    rcases quiet with silences | creates
    · exact asleep_of_silences sound allowed taken silences
    · exact asleep_of_creates sound allowed taken step.2 creates
  · intro labels before k o reply after earlier asleep allowed taken _ unstarted
    exact asleep.step (sound_of_run earlier) allowed taken unstarted

theorem free_since (deletes : Deletes index exchange)
    (run : Run (swtmrSystem.keeping Orderly) (.new .new) (first ++ .act i exchange :: rest) pool)
    (uncreated : ∀ k later, .act k later ∈ rest → ¬Creates index later) :
    (pool.world.cbs index).state = 0 := by
  let free (w : World) (_ : Nat → Phase) : Prop := (w.cbs index).state = 0
  have since : free pool.world (phaseOf phases home (first ++ .act i exchange :: rest)) := by
    refine crew_since tasks_obey ?_ ?_ run uncreated
    · intro before after earlier step
      obtain ⟨allowed, taken⟩ := allowed_of_step tasks_obey earlier.unruled step.1
      exact free_of_deletes (sound_of_run earlier) allowed taken deletes
    · intro labels before k o reply after earlier free allowed taken _ uncreated
      exact (sound_of_run earlier).still_free allowed taken free uncreated
  exact since

/-- If the calls on a timer and its expiries keep apart, a timer that was stopped, deleted or created
is not fired before it is started, and one that was deleted is free until it is created. -/
theorem handler_silent_until_started
    (run : Run (swtmrSystem.keeping Orderly) (.new .new) labels pool) :
    (∀ first between rest i j quiet fires index,
      labels = first ++ .act i quiet :: between ++ .act j fires :: rest →
      Silences index quiet ∨ Creates index quiet → Fires index fires →
      ∃ k starts, .act k starts ∈ between ∧ Starts index starts) ∧
    ∀ first rest i deletes index, labels = first ++ .act i deletes :: rest → Deletes index deletes →
      (∀ k later, .act k later ∈ rest → ¬Creates index later) → (pool.world.cbs index).state = 0 := by
  constructor
  · intro first between rest i j quiet fires index ends quieted fired
    subst ends
    by_contra missing
    obtain ⟨before, after, past, step, _⟩ := run.step_at
    have asleep := asleep_since quieted past fun k later member starts =>
      missing ⟨k, later, member, starts⟩
    obtain ⟨allowed, _⟩ := allowed_of_step tasks_obey past.unruled step.1
    exact asleep.silent (sound_of_run past) allowed fired
  · intro first rest i deletes index ends deleted uncreated
    subst ends
    exact free_since deleted run uncreated

/-- Only the first thread makes calls and calls handlers. -/
structure Alone (w : World) : Prop where
  osal : Timer.Alone w.osal
  calls : ∀ j, j ≠ 0 → w.calls j = none
  current : ∀ j, j ≠ 0 → w.current j = none

/-- An action of the first thread, between its calls if the rule is about it. -/
def separate (w : World) : ops.Op → Bool
  | .inl (.collect thread _) => thread = 0 ∧ w.calls 0 = none
  | .inl o => o.lone
  | .inr (.enter thread _) =>
    thread = 0 ∧ w.calls 0 = none ∧ w.osal.batch 0 = [] ∧ w.current 0 = none
  | .inr (.claimCb thread _ _ _ _) => thread = 0 ∧ (w.calls 0).bind Prod.snd = none
  | .inr (.leave thread _ _) | .inr (.returned thread) => thread = 0
  | _ => true

variable {o : ops.Op} {reply : ops.Reply o}

theorem Alone.atom (alone : Alone w) (taken : Atom w o reply w') (fits : separate w o = true) :
    Separate w o reply ∧ Alone w' := by
  obtain ⟨osal, calls, current⟩ := alone
  have others {A : Type} {f : Nat → Option A} (unset : ∀ j, j ≠ 0 → f j = none) (a : Option A) (j : Nat)
      (other : j ≠ 0) : update f 0 a j = none := (update_of_ne other _ _).trans (unset j other)
  have all {A : Type} {f : Nat → A} {a : A} (rest : ∀ j, j ≠ 0 → f j = a) (first : f 0 = a) (j : Nat) :
      f j = a := by
    cases j with
    | zero => exact first
    | succ => exact rest _ (Nat.succ_ne_zero _)
  cases taken with
  | @osal o _ _ inner =>
    cases o with
    | collect =>
      obtain ⟨rfl, first⟩ := of_decide_eq_true fits
      refine ⟨fun index j request busy => ?_, (osal.atom inner rfl).2, calls, current⟩
      rw [all calls first] at busy
      cases busy
    | dispatch thread timer called =>
      obtain rfl := beq_iff_eq.mp fits
      refine ⟨trivial, (osal.atom inner rfl).2, calls, ?_⟩
      cases called with
      | true => exact others current _
      | false => exact current
    | _ => exact ⟨trivial, (osal.atom inner fits).2, calls, current⟩
  | claimCb =>
    obtain ⟨rfl, unnamed⟩ := of_decide_eq_true fits
    unfold claimCb
    split
    · exact ⟨trivial, osal, calls, current⟩
    · refine ⟨fun j other busy => ?_, osal, others calls _, current⟩
      have same : (w.calls j).bind Prod.snd = none :=
        all (f := fun j => (w.calls j).bind Prod.snd) (fun j other => by rw [calls j other]; rfl) unnamed j
      rw [busy] at same
      cases same
  | enter =>
    obtain ⟨rfl, first, batch, resting⟩ := of_decide_eq_true fits
    refine ⟨fun index _ => ⟨fun j other busy => ?_, fun _ expiring => ?_⟩, osal, others calls _, current⟩
    · rw [all calls first] at busy
      cases busy
    · obtain ⟨j, batched | expired⟩ := expiring
      · rw [all osal.batch batch] at batched
        cases batched
      · rw [all current resting] at expired
        cases expired
  | leave =>
    obtain rfl := of_decide_eq_true fits
    exact ⟨trivial, osal, others calls _, current⟩
  | returned =>
    obtain rfl := of_decide_eq_true fits
    exact ⟨trivial, osal, calls, others current _⟩
  | startCb =>
    unfold startCb
    split <;> exact ⟨trivial, osal, calls, current⟩
  | prepare => exact ⟨trivial, ⟨osal.calls, osal.batch⟩, calls, current⟩
  | _ => exact ⟨trivial, osal, calls, current⟩

theorem complies_orderly (now : UInt64) :
    Complies Atom (answer now none) Orderly Alone (fun _ => separate) False :=
  ⟨fun _ _ => trivial, fun _ _ w o _ alone fits =>
    ⟨atom_answer now none w o, alone.atom (atom_answer now none w o) fits⟩⟩

def sequence (requests : List Request) : List (Nat × Task Unit) :=
  requests.map fun request => (0, Job.task 0 (.request request))

theorem sequence_given (requests : List Request) (job : Nat × Task Unit)
    (member : job ∈ sequence requests) : ∃ own : Job, job.2 = own.task job.1 := by
  obtain ⟨request, _, rfl⟩ := List.mem_map.mp member
  exact ⟨.request request, rfl⟩

def quietLabel : PoolLabel ops → Bool
  | .act _ ⟨.inr (.enter _ _), _⟩ | .act _ ⟨.inr (.claimCb _ _ _ _ _), _⟩ => false
  | _ => true

theorem quiet_labels (quiet : labels.all quietLabel = true) (index : Index) (k : Nat)
    (exchange : Exchange ops) (member : .act k exchange ∈ labels) :
    ¬Starts index exchange ∧ ¬Creates index exchange := by
  have said := List.all_eq_true.mp quiet _ member
  obtain ⟨o, reply⟩ := exchange
  cases o with
  | inl => exact ⟨id, id⟩
  | inr o =>
    cases o with
    | enter | claimCb => cases said
    | _ => exact ⟨id, id⟩

/-- A timer is stopped and fires after it was started again. Another one is deleted, and is not in use
after the next sweep. -/
theorem started_timer_fires : (∃ (first between : List (PoolLabel ops)) (pool : Pool ops World),
      Run (swtmrSystem.keeping Orderly) (.new .new)
        (first ++ .act 0 ⟨.inr (.leave 0 (.stop 0) ok), ()⟩ :: between ++
          .act 0 ⟨.inr (.callHandler 0 firstIndex 9 0), ()⟩ :: []) pool ∧
      ∃ k starts, .act k starts ∈ between ∧ Starts firstIndex starts) ∧
    ∃ (first rest : List (PoolLabel ops)) (pool : Pool ops World),
      Run (swtmrSystem.keeping Orderly) (.new .new)
        (first ++ .act 0 ⟨.inr (.leave 0 (.delete 0) ok), ()⟩ :: rest) pool ∧ rest ≠ [] ∧
      (pool.world.cbs firstIndex).state = 0 := by
  have new : Alone .new := ⟨Timer.alone_new _, fun _ _ => rfl, fun _ _ => rfl⟩
  constructor
  · have started : Run (swtmrSystem.keeping Orderly) (.new .new) _ _ ∧ _ := serve_keeping
      (complies_orderly 0) 30 (sequence [.create 5 2 9 true 0, .stop 0, .start 0])
        (sequence_given _) _ new rfl
    have fired := started.1.trans
      (job_keeping (complies_orderly 100) 6 (i := 0) ⟨.sweep, rfl⟩ rfl False.elim started.2 rfl).1
    have run : Run (swtmrSystem.keeping Orderly) _ (_ ++ .act 0 ⟨.inr (.leave 0 (.stop 0) ok), ()⟩ :: _ ++
      .act 0 ⟨.inr (.callHandler 0 firstIndex 9 0), ()⟩ :: []) _ := fired.parted 21 rfl rfl
    exact ⟨_, _, _, run,
      (handler_silent_until_started run).1 _ _ [] 0 0 _ _ firstIndex rfl (.inl ⟨rfl, rfl⟩) rfl⟩
  · have deleted : Run (swtmrSystem.keeping Orderly) (.new .new) _ _ ∧ _ := serve_keeping
      (complies_orderly 0) 30 (sequence [.create 5 2 9 true 0, .delete 0]) (sequence_given _) _ new rfl
    have swept := deleted.1.trans
      (job_keeping (complies_orderly 100) 6 (i := 0) ⟨.sweep, rfl⟩ rfl False.elim deleted.2 rfl).1
    have run : Run (swtmrSystem.keeping Orderly) _
      (_ ++ .act 0 ⟨.inr (.leave 0 (.delete 0) ok), ()⟩ :: _) _ := swept.at_place 21 rfl
    refine ⟨_, _, _, run, nofun, (handler_silent_until_started run).2 _ _ 0 _ firstIndex rfl ⟨rfl, rfl⟩ ?_⟩
    exact fun k later member => (quiet_labels rfl firstIndex k later member).2

/-- A periodic timer is stopped by its own handler, armed again after the handler has returned, and
fired once more. A timer that is deleted in the middle of a batch is in use again when the sweep comes
to it. -/
theorem stopped_periodic_timer_fires :
    (∃ (first between : List (PoolLabel ops)) (pool : Pool ops World), Run swtmrSystem (.new .new)
        (first ++ .act 0 ⟨.inr (.leave 0 (.stop 0) ok), ()⟩ :: between ++
          .act 0 ⟨.inr (.callHandler 0 firstIndex 9 0), ()⟩ :: []) pool ∧
      ∀ k later, .act k later ∈ between → ¬Starts firstIndex later ∧ ¬Creates firstIndex later) ∧
    ∃ (first rest : List (PoolLabel ops)) (pool : Pool ops World) (index : Index),
      Run swtmrSystem (.new .new)
        (first ++ .act 0 ⟨.inr (.leave 0 (.delete 1) ok), ()⟩ :: rest) pool ∧
      indexOf 1 = some index ∧ (∀ k later, .act k later ∈ rest → ¬Creates index later) ∧
      (pool.world.cbs index).state = 2 := by
  have run (requests : List Request)
      (ends : serves (answer 0 none) (fun _ _ _ => true) 30 (sequence requests) .new = true) :
      Run swtmrSystem (.new .new) _ _ :=
    run_serve (atom_answer 0 none) 30 (sequence requests) (sequence_given _) _ ends
  constructor
  · have swept := (run [.create 5 1 9 true 0, .start 0] rfl).trans
      (run_job (atom_answer 100 (some (.stop 0))) 30 (i := 0) ⟨.sweep, rfl⟩ rfl)
    have again := swept.trans (run_job (atom_answer 200 none) 6 (i := 0) ⟨.sweep, rfl⟩ rfl)
    exact ⟨_, _, _, again.parted 39 rfl rfl, quiet_labels rfl firstIndex⟩
  have swept := (run [.create 5 1 9 true 0, .create 5 1 9 true 0, .start 0, .start 1] rfl).trans
    (run_job (atom_answer 100 (some (.delete 1))) 30 (i := 0) ⟨.sweep, rfl⟩ rfl)
  exact ⟨_, _, _, ⟨1, by decide⟩, swept.at_place 62 rfl, rfl, fun k later member =>
    (quiet_labels rfl ⟨1, by decide⟩ k later member).2, rfl⟩

end HisiRf.Swtmr
