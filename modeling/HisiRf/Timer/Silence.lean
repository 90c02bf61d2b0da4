import HisiRf.Timer.Tidy

/-! After a timer was stopped, its handler is not called until it is armed again.

A timer is quiet if no slot of it is active and no sweep has it in its batch. Only
an arming ends this. A call that stops or destroys a timer leaves its slots
inactive, but it can do nothing about a batch that was collected before.
-/

namespace HisiRf.Timer

open Interaction Function
open EventGroup (osalOk osalNok)

variable {phase : Phase} {timer thread : Nat} {slot : SlotIndex}

theorem arm_place {now : UInt64} {interval : UInt32}
    (allowed : phases.allows phase (.arm timer slot now interval)) :
    phase.doing = some (.mod timer interval, .holding slot) := by
  rcases allows_cases allowed with ⟨_, never⟩ | ⟨call, progress, doing, turn⟩
  · exact never.elim
  cases progress with
  | holding =>
    obtain ⟨rfl, rfl⟩ := turn
    exact doing
  | _ => exact turn.elim

theorem register_place (allowed : phases.allows phase (.register slot timer)) :
    ∃ call, phase.doing = some (call, .linked slot) ∧ timer = call.timer := by
  rcases allows_cases allowed with ⟨_, never⟩ | ⟨call, progress, doing, turn⟩
  · exact never.elim
  cases progress with
  | linked =>
    obtain ⟨rfl, named⟩ := turn
    exact ⟨call, doing, named⟩
  | _ => exact turn.elim

theorem dispatch_place {called : Bool} (allowed : phases.allows phase (.dispatch thread timer called)) :
    thread = phase.thread ∧ ∃ rest, phase.pending = timer :: rest := by
  rcases allows_cases allowed with ⟨_, turn⟩ | ⟨call, progress, doing, turn⟩
  · exact turn
  · cases progress <;> exact turn.elim

theorem leave_place {call : Call} {status : Int32}
    (allowed : phases.allows phase (.leave thread call status)) :
    phase.doing = some (call, .ended) ∨ (call.silences = true → call.timer = 0) := by
  rcases allows_cases allowed with ⟨_, never⟩ | ⟨other, progress, doing, turn⟩
  · exact never.elim
  cases progress with
  | begun =>
    obtain ⟨_, rfl, nothing⟩ := turn
    exact .inr nothing
  | ended =>
    obtain ⟨_, rfl⟩ := turn
    exact .inl doing
  | _ => exact turn.elim

def Arms (timer : Nat) : Exchange ops → Prop
  | ⟨.arm other _ _ _, status⟩ => other = timer ∧ status = osalOk
  | _ => False

def Off (w : World) (timer : Nat) : Prop :=
  ∀ slot, Owns w timer slot → (w.slots slot).active = false

variable {w w' : World} {places : Nat → Phase} {i : Nat} {o : Op} {reply : o.Reply}

section

variable (off : Off w timer)
include off

theorem Off.same_slots (same : w'.slots = w.slots) : Off w' timer := by
  intro slot owns
  rw [same]
  refine off slot ⟨owns.real, ?_, ?_⟩
  · rw [← same, owns.used]
  · rw [← same, owns.timer]

/-- A change of a slot that does not belong to the timer, or that is not active afterwards. -/
theorem Off.setSlot {next : Slot}
    (harmless : next.used = true → next.timer = timer → timer ≠ 0 → next.active = false) :
    Off (w.setSlot slot next) timer := by
  intro other owns
  by_cases same : other = slot
  · subst same
    have used := owns.used
    have named := owns.timer
    rw [setSlot_self] at used named ⊢
    exact harmless used named owns.real
  · rw [setSlot_of_ne same]
    exact off other (owns.of_setSlot same)

theorem Off.collect (thread : Nat) (now : UInt64) :
    Off (w.collect thread now).2 timer := by
  intro slot owns
  exact collect_inactive thread now (off slot ((sameTable_collect w thread now).owns.mp owns))

theorem Off.uncollected (thread : Nat) (now : UInt64) :
    timer ∉ (w.collect thread now).1.filter (· ≠ 0) := by
  intro member
  obtain ⟨collected, real⟩ := List.mem_filter.mp member
  obtain ⟨slot, found, named⟩ := List.mem_map.mp collected
  have due : w.isDue now slot = true := (List.mem_filter.mp found).2
  unfold World.isDue at due
  simp only [Bool.and_eq_true] at due
  have inactive := off slot ⟨by simpa using real, due.1.1, named⟩
  rw [due.1.2] at inactive
  cases inactive

def Collects (timer : Nat) : Exchange ops → Prop
  | ⟨.collect _ _, due⟩ => timer ∈ due.filter (· ≠ 0)
  | _ => False

theorem Off.not_collected (taken : Atom w o reply w') : ¬Collects timer ⟨o, reply⟩ := by
  intro collected
  cases taken with
  | collect thread now => exact off.uncollected thread now collected
  | _ => exact collected.elim

end

/-- Calls that have stopped or destroyed their timer and not returned yet. -/
def Silenced (w : World) (places : Nat → Phase) : Prop :=
  ∀ j call, (places j).doing = some (call, .ended) → call.silences = true → Off w call.timer

/-- No slot of the timer is active, and no sweep is about to call its handler. -/
structure Quiet (w : World) (timer : Nat) : Prop where
  unbatched : ∀ j, timer ∉ w.batch j
  off : Off w timer

theorem off_of_ownless (ownless : ∀ slot, ¬Owns w timer slot) : Off w timer :=
  fun slot owns => absurd owns (ownless slot)

theorem off_of_disarm (linked : Linked w places) (owner : Owns w timer slot) :
    Off (w.disarm slot).2 timer := by
  intro other owns
  have before := (sameTable_disarm w slot).owns.mp owns
  have same : other = slot :=
    handleOf_inj ((linked.named timer other before).symm.trans (linked.named timer slot owner))
  subst same
  unfold World.disarm
  rw [setSlot_self]

variable {call : Call}

theorem loud_of_registers (registers : call.registers = true) : call.silences = false := by
  cases call with
  | init | adaptInit => rfl
  | _ => cases registers

theorem batch_before {j : Nat} (taken : Atom w o reply w') (member : timer ∈ w'.batch j) :
    timer ∈ w.batch j ∨ Collects timer ⟨o, reply⟩ := by
  cases taken with
  | collect thread =>
    change timer ∈ update w.batch thread _ j at member
    by_cases mine : j = thread
    · subst mine
      rw [update_self] at member
      exact .inr member
    · grind
  | dispatch => grind [List.mem_of_mem_tail]
  | arm other slot now interval =>
    rw [(w.arm_notes slot now interval).2] at member
    exact .inl member
  | allocSlot =>
    unfold World.allocSlot at member
    cases free : w.freeSlot with
    | none | some =>
      rw [free] at member
      exact .inl member
  | _ => exact .inl member

section

variable (linked : Linked w places) (allowed : phases.allows (places i) o)
  (taken : Atom w o reply w')
include linked allowed taken

theorem Off.step (off : Off w timer) (unarmed : ¬Arms timer ⟨o, reply⟩) : Off w' timer := by
  cases taken with
  | allocSlot =>
    unfold World.allocSlot
    cases w.freeSlot with
    | none => exact off
    | some => exact off.setSlot fun _ _ _ => rfl
  | register slot =>
    obtain ⟨call, doing, rfl⟩ := register_place allowed
    have vacant := (linked.fits i call _ doing).2.2.2
    exact off.setSlot fun _ _ _ => (linked.reserved slot vacant).1
  | arm other slot now interval =>
    have owner := (linked.fits i _ _ (arm_place allowed)).2.2
    have armed : w.arm slot now interval = (osalOk, w.setSlot slot { w.slots slot with
        interval := interval.toUInt64
        deadline := now + interval.toUInt64
        active := true
        periodic := false }) := by
      unfold World.arm
      rw [if_pos owner.used]
    rw [armed] at unarmed ⊢
    refine off.setSlot fun _ same _ => ?_
    exact absurd ⟨owner.timer.symm.trans same, rfl⟩ unarmed
  | disarm | clear => exact off.setSlot fun _ _ _ => rfl
  | collect thread now => exact off.collect thread now
  | _ => exact off.same_slots rfl

theorem off_of_ended (doing : (phases.after (places i) ⟨o, reply⟩).doing = some (call, .ended))
    (silences : call.silences = true) : Off w' call.timer := by
  rcases allows_cases allowed with ⟨before, _⟩ | ⟨other, progress, before, turn⟩
  · rw [after_outside before] at doing
    cases taken with
    | enter =>
      obtain ⟨_, same⟩ := Prod.mk.inj (Option.some.inj doing)
      cases same
    | _ =>
      have kept : (places i).doing = some (call, .ended) := doing
      rw [before] at kept
      cases kept
  have knows := linked.fits i other progress before
  by_cases leaves : o.leaves = true
  · cases taken with
    | leave =>
      rw [after_leave before] at doing
      cases doing
    | _ => cases leaves
  rw [after_inside before (Bool.eq_false_iff.mpr leaves)] at doing
  obtain ⟨rfl, ended⟩ := Prod.mk.inj (Option.some.inj doing)
  cases progress with
  | begun =>
    cases taken with
    | readHandle =>
      obtain ⟨_, rfl, _⟩ := turn
      change afterHandle (slotOf (w.handle other.timer)) = .ended at ended
      cases found : slotOf (w.handle other.timer) with
      | none =>
        have null := (slotOf_none_iff (linked.bounded _)).mp found
        exact off_of_ownless (linked.ownless null)
      | some =>
        rw [found] at ended
        cases ended
    | inspect =>
      rw [loud_of_registers turn.1] at silences
      cases silences
    | reset =>
      obtain rfl := turn
      cases silences
    | leave => exact absurd rfl leaves
    | _ => exact turn.elim
  | holding =>
    cases taken with
    | disarm =>
      obtain ⟨rfl, rfl⟩ := turn
      exact off_of_disarm linked knows.2.2
    | arm =>
      obtain ⟨rfl, _⟩ := turn
      cases silences
    | setInterval | nowMs | clear => cases ended
    | _ => exact turn.elim
  | cleared =>
    cases taken with
    | setHandle =>
      refine off_of_ownless fun other owns => ?_
      exact knows.2.2 other ⟨owns.real, owns.used, owns.timer⟩
    | _ => exact turn.elim
  | ended =>
    cases taken with
    | leave => exact absurd rfl leaves
    | _ => exact turn.elim
  | _ =>
    rw [loud_of_registers knows.1] at silences
    cases silences

theorem Silenced.step (silenced : Silenced w places) :
    Silenced w' (update places i (phases.after (places i) ⟨o, reply⟩)) := by
  intro j call doing silences
  by_cases mine : j = i
  · subst mine
    rw [update_self] at doing
    exact off_of_ended linked allowed taken doing silences
  rw [update_of_ne mine] at doing
  refine (silenced j call doing silences).step linked allowed taken ?_
  -- Whoever arms the timer now is in a call that must not overlap this one.
  intro arms
  cases taken with
  | arm timer slot now interval =>
    have his : w.calls i = some (.mod timer interval) := by
      rw [linked.calls, arm_place allowed]
      rfl
    have ours : w.calls j = some call := by
      rw [linked.calls, doing]
      rfl
    refine linked.apart j i call _ mine ours his ⟨arms.1.symm, ?_⟩
    cases call with
    | stop | destroy => rfl
    | _ => cases silences
  | _ => exact arms.elim

theorem Quiet.step (quiet : Quiet w timer) (unarmed : ¬Arms timer ⟨o, reply⟩) : Quiet w' timer where
  off := quiet.off.step linked allowed taken unarmed
  unbatched j member := by
    rcases batch_before taken member with before | collected
    · exact quiet.unbatched j before
    · exact quiet.off.not_collected taken collected

end

/-- A call that stops or destroys a timer does not return while a sweep has collected that timer and
not come to it yet. -/
def Settled (w : World) : Op → Prop
  | .leave _ call _ => call.silences = true → ∀ j, call.timer ∉ w.batch j
  | _ => True

def Timely (pool : Pool ops World) : PoolLabel ops → Prop
  | .start _ => True
  | .act _ exchange => Undisturbed pool.world exchange.op ∧ Settled pool.world exchange.op

theorem Timely.orderly {pool : Pool ops World} {label : PoolLabel ops} (timely : Timely pool label) :
    Orderly pool label := by
  cases label with
  | start => trivial
  | act => exact timely.1

variable {fields : Nat → Option Nat × UInt32 × UInt32} {labels first between rest : List (PoolLabel ops)}
  {pool after : Pool ops World}

variable {status : Int32} {threads : Nat → Task Unit} {next : Unit → Task Unit}

section

variable (run : Run (timerSystem.keeping Orderly) (.new (.new fields)) labels pool)
include run

theorem silenced_of_run :
    Linked pool.world (phaseOf phases home labels) ∧
      Silenced pool.world (phaseOf phases home labels) := by
  let both (w : World) (places : Nat → Phase) : Prop := Linked w places ∧ Silenced w places
  have begins : both (.new fields) home := ⟨linked_new fields, fun _ _ doing => by cases doing⟩
  have known : both pool.world (phaseOf phases home labels) :=
    crew_invariant tasks_obey begins
      (fun _ _ _ _ _ _ known allowed taken undisturbed =>
        ⟨known.1.step allowed taken undisturbed, known.2.step known.1 allowed taken⟩) run
  exact known

theorem quiet_of_leave
    (step : (timerSystem.keeping Timely).step pool (.act i ⟨.leave thread call status, ()⟩) after)
    (silences : call.silences = true) : Quiet after.world call.timer := by
  obtain ⟨allowed, taken⟩ := allowed_of_step tasks_obey run.unruled step.1
  obtain ⟨linked, silenced⟩ := silenced_of_run run
  have settled : ∀ j, call.timer ∉ pool.world.batch j := step.2.2 silences
  generalize after.world = w at taken
  cases taken with
  | leave =>
    have off : Off pool.world call.timer := by
      rcases leave_place allowed with doing | nothing
      · exact silenced i call doing silences
      · intro slot owns
        exact absurd (nothing silences) owns.real
    exact ⟨settled, off.same_slots rfl⟩

end

/-- From the return of the call on, the timer is quiet until it is armed. -/
theorem quiet_since_leave (silences : call.silences = true)
    (run : Run (timerSystem.keeping Timely) (.new (.new fields))
      (first ++ .act i ⟨.leave thread call status, ()⟩ :: between) pool)
    (unarmed : ∀ k exchange, .act k exchange ∈ between → ¬Arms call.timer exchange) :
    Quiet pool.world call.timer := by
  let quiet (w : World) (_ : Nat → Phase) : Prop := Quiet w call.timer
  have since : quiet pool.world (phaseOf phases home
      (first ++ .act i ⟨.leave thread call status, ()⟩ :: between)) := by
    refine crew_since tasks_obey ?_ ?_ run unarmed
    · intro before after earlier step
      exact quiet_of_leave (earlier.relax fun _ _ => Timely.orderly) step silences
    · intro labels before k o reply after earlier quiet allowed taken _ unarmed
      have linked := linked_of_run (earlier.relax fun _ _ => Timely.orderly)
      exact Quiet.step linked allowed taken quiet unarmed
  exact since

/-- If no timer is stopped in the middle of a batch, the handler of a timer that was stopped or
destroyed is not called before the timer is armed again. -/
theorem handler_silent_until_armed {thread j k : Nat} {call : Call} {status : Int32}
    (run : Run (timerSystem.keeping Timely) (.new (.new fields))
      (first ++ .act i ⟨.leave thread call status, ()⟩ :: between ++
        .act j ⟨.dispatch k timer true, ()⟩ :: rest) pool)
    (stops : call = .stop timer ∨ call = .destroy timer) :
    ∃ l slot now interval, .act l ⟨.arm timer slot now interval, osalOk⟩ ∈ between := by
  by_contra missing
  obtain ⟨before, after, past, step, _⟩ := run.step_at
  have silences : call.silences = true := by rcases stops with rfl | rfl <;> rfl
  have same : call.timer = timer := by rcases stops with rfl | rfl <;> rfl
  have quiet := quiet_since_leave silences past fun l exchange member arms => by
    obtain ⟨o, reply⟩ := exchange
    cases o with
    | arm other slot now interval =>
      obtain ⟨rfl, rfl⟩ := arms
      rw [same] at member
      exact missing ⟨l, slot, now, interval, member⟩
    | _ => exact arms.elim
  rw [same] at quiet
  obtain ⟨allowed, _⟩ := allowed_of_step tasks_obey past.unruled step.1
  have linked := linked_of_run (past.relax fun _ _ => Timely.orderly)
  obtain ⟨_, others, pending⟩ := dispatch_place allowed
  refine quiet.unbatched j ?_
  rw [linked.batch, pending]
  exact List.mem_cons_self

def Op.timely (w : World) : Op → Bool
  | .leave thread call _ => thread = 0 ∧ (call.silences = true → w.batch 0 = [])
  | o => o.lone

theorem complies_timely (now : UInt64) : Complies Atom (answer now none) Timely Alone
    (fun _ => Op.timely) False := by
  refine ⟨fun _ _ => trivial, fun i threads w o _ alone fits => ?_⟩
  have taken := atom_answer now none w o
  refine ⟨taken, ?_⟩
  cases o with
  | leave thread call status =>
    obtain ⟨rfl, clear⟩ := of_decide_eq_true fits
    obtain ⟨undisturbed, later⟩ := alone.atom taken rfl
    refine ⟨⟨undisturbed, fun silences j => ?_⟩, later⟩
    have empty : w.batch j = [] := by
      cases j with
      | zero => exact clear silences
      | succ => exact alone.batch _ (Nat.succ_ne_zero _)
    rw [empty]
    exact List.not_mem_nil
  | _ => exact (alone.atom taken fits).imp_left fun undisturbed => ⟨undisturbed, trivial⟩

/-- A timer is stopped, armed and swept. -/
theorem armed_timer_fires : ∃ (first between : List (PoolLabel ops)) (pool : Pool ops World),
      Run (timerSystem.keeping Timely) (.new (.new someFields))
        (first ++ .act 0 ⟨.leave 0 (.stop 5) 0, ()⟩ :: between ++
          .act 0 ⟨.dispatch 0 5 true, ()⟩ :: []) pool ∧
      ∃ l slot now interval, .act l ⟨.arm 5 slot now interval, osalOk⟩ ∈ between := by
  have armed : Run (timerSystem.keeping Timely) (.new (.new someFields)) _ _ ∧ _ := serve_keeping
    (complies_timely 0) 20 (sequence [.init 5, .stop 5, .mod 5 1]) (sequence_given _) _ (alone_new _) rfl
  have swept := armed.1.trans
    (job_keeping (complies_timely 100) 4 (i := 0) ⟨.sweep, rfl⟩ rfl False.elim armed.2 rfl).1
  have run : Run (timerSystem.keeping Timely) _ (_ ++ .act 0 ⟨.leave 0 (.stop 5) 0, ()⟩ :: _ ++
    .act 0 ⟨.dispatch 0 5 true, ()⟩ :: []) _ :=
    swept.parted 12 rfl rfl
  exact ⟨_, _, _, run, handler_silent_until_armed run (.inl rfl)⟩

/-- Two timers are due. The handler of the first one stops the second one, whose handler is called
nevertheless. -/
theorem stopped_timer_fires : ∃ (first : List (PoolLabel ops)) (pool : Pool ops World),
      Run timerSystem (.new (.new someFields))
        (first ++ .act 0 ⟨.leave 0 (.stop 6) 0, ()⟩ :: [.act 0 ⟨.readCallback 6, some (7, 0)⟩] ++
          .act 0 ⟨.dispatch 0 6 true, ()⟩ :: []) pool := by
  have armed : Run timerSystem (.new (.new someFields)) _ _ := run_serve (atom_answer 0 none) 20
    (sequence [.init 5, .init 6, .mod 5 1, .mod 6 1]) (sequence_given _) _ rfl
  have swept := armed.trans
    (run_job (atom_answer 100 (some (.stop 6))) 12 (i := 0) ⟨.sweep, rfl⟩ rfl)
  exact ⟨_, _, swept.parted 40 rfl rfl⟩

end HisiRf.Timer
