import HisiRf.Worker.WaitSignals

/-! A poll of the wait bridge that is pending has lost no wake-up.

A poll is told apart by its record: which waker it has registered, which sources
it waits for, and what its last look has found. From the moment that look began
nothing was pending, and the callbacks that come later wake what is registered.
-/

namespace HisiRf.WaitSignals

open Interaction Machine Function List PoolLabel

variable {waker : Waker}

variable {sources ready : WaitSet} {deadlineUs : Option UInt64} {past : List (Exchange ops)}

def opening (waker : Waker) (sources : WaitSet) (deadlineUs : Option UInt64) : List (Exchange ops) :=
  [⟨.enterPoll waker sources deadlineUs, ()⟩, ⟨.countDiagnostic .pollCalls, ()⟩,
    ⟨.register waker, ()⟩]

/-- Nothing was taken, and each subscribed source was found empty. -/
structure FoundNothing (sources : WaitSet) (look : List (Exchange ops)) : Prop where
  untouched : ∀ source, ⟨.takeOne source, true⟩ ∉ look
  empty : ∀ source, sources.contains source = true → ⟨.takeOne source, false⟩ ∈ look

def Unregistered (talk : List (Exchange ops)) : Prop := ∀ next, ⟨.register next, ()⟩ ∉ talk

/-- A poll goes to sleep after a look, later than its registration, that found nothing. -/
def told (past : List (Exchange ops)) : Op → Prop
  | .takeOne source => ∃ waker sources deadlineUs rest,
      past = opening waker sources deadlineUs ++ rest ∧ sources.contains source = true
  | .leavePoll none => ∃ waker sources deadlineUs first look, Unregistered first ∧
      past = opening waker sources deadlineUs ++ first ++ look ∧ FoundNothing sources look
  | _ => True

def Op.looks (sources : WaitSet) : Op → Prop
  | .takeOne source => sources.contains source = true
  | .rxReady | .monotonicUs | .timerDeadline | .installTimer _ | .clearTimer | .pollTimerFuture => True
  | _ => False

def Opened (waker : Waker) (sources : WaitSet) (deadlineUs : Option UInt64)
    (past : List (Exchange ops)) : Prop :=
  ∃ first, Unregistered first ∧ past = opening waker sources deadlineUs ++ first

theorem Unregistered.append {first second : List (Exchange ops)} (one : Unregistered first)
    (two : Unregistered second) : Unregistered (first ++ second) := fun next member =>
  (mem_append.mp member).elim (one next) (two next)

/-- A look that has found nothing ready, after whatever came before it. -/
def Asleep (waker : Waker) (sources : WaitSet) (deadlineUs : Option UInt64)
    (past : List (Exchange ops)) : Prop :=
  ∃ first look, Unregistered first ∧ past = opening waker sources deadlineUs ++ first ++ look ∧
    FoundNothing sources look

section

variable (opened : Opened waker sources deadlineUs past)
include opened

theorem Opened.look {A : Type} {p : Task A} (only : p.Only (Op.looks sources)) :
    p.Obeys (recorded told) (fun _ => Opened waker sources deadlineUs) past := by
  refine Program.Obeys.of_only only ?_ ?_ opened
  · rintro o past looks ⟨first, _, rfl⟩
    cases o with
    | takeOne => exact ⟨waker, sources, deadlineUs, first, rfl, looks⟩
    | leavePoll => exact looks.elim
    | _ => trivial
  · rintro o past reply looks ⟨first, unregistered, rfl⟩
    refine ⟨first ++ [⟨o, reply⟩], ?_, append_assoc _ _ _⟩
    exact unregistered.append fun next member => by
      cases mem_singleton.mp member
      exact looks

end

variable {labels : List (PoolLabel ops)} {pool after : Pool ops World}

variable {earlier later : List (PoolLabel ops)} {thread : Nat} {exchange : Exchange ops}
  {label : PoolLabel ops}

def takes (source : Source) : PoolLabel ops → Bool
  | .act _ ⟨.takeOne other, true⟩ => other == source
  | _ => false

variable {source : Source}

def registeredNext (waker : Waker) : PoolLabel ops → Waker
  | .act _ ⟨.register next, _⟩ => next
  | _ => waker

def registeredAfter (waker : Waker) (labels : List (PoolLabel ops)) : Waker :=
  labels.foldl registeredNext waker

def Owes (waker : Waker) (thread : Nat) (later : List (PoolLabel ops)) (pool : Pool ops World) :
    Prop :=
  (∃ between rest, later =
      between ++ .act thread ⟨.wake, some (registeredAfter waker between)⟩ :: rest) ∨
    .start thread ∉ later ∧
      ∃ crew, Manned watch Rests pool crew ∧ crew.phases thread = .signalling true

theorem not_resting (other : thread ≠ 0) : ¬ Rests thread (.signalling true) := by
  unfold Rests
  rw [if_neg other]
  decide

theorem Owes.step (owes : Owes waker thread later pool) (other : thread ≠ 0)
    (registered : pool.world.waker = some (registeredAfter waker later))
    (step : waitSystem.step pool label after) : Owes waker thread (later ++ [label]) after := by
  rcases owes with ⟨between, rest, rfl⟩ | ⟨unstarted, crew, manned, phase⟩
  · exact .inl ⟨between, rest ++ [label], by simp⟩
  obtain ⟨next, taken, now⟩ := manned.step waitTasks_watched step
  cases step with
  | @start i task idle =>
    by_cases same : i = thread
    · subst same
      have resting := manned.threads i
      rw [idle, phase] at resting
      exact absurd resting (not_resting other)
    · cases taken
      refine .inr ⟨?_, crew, now, phase⟩
      simp [unstarted, Ne.symm same]
  | @act i =>
    by_cases same : i = thread
    · subst same
      cases taken with
      | act allowed effect =>
        rw [phase] at allowed
        cases effect with
        | wake =>
          left
          rw [manned.world, registered]
          exact ⟨later, [], rfl⟩
        | countDiagnostic | countPending =>
          refine .inr ⟨by simp [unstarted], _, now, ?_⟩
          simp [phase, watch, Phase.after]
        | _ => exact allowed.elim
    · refine .inr ⟨by simp [unstarted], next, now, ?_⟩
      cases taken
      simpa [update_of_ne (Ne.symm same)] using phase

section

variable (reached : Run waitSystem (.new .new) earlier pool)
include reached

end

end HisiRf.WaitSignals
