import HisiRf.Timer.SwtmrCalls

/-! The control blocks of LiteOS agree with the timers of the service below.

This holds between any two calls of a sequence of calls and expiries, as long as no
timer is stopped while it is running: the service reports that it was, and LiteOS
takes this for a failure.
-/

namespace HisiRf.Swtmr

open Interaction
open Timer (Owns)

inductive Event where
  | call (request : Request) (status : Int32)
  | expiries
  | others

/-- Calls and sweeps are carried out one after the other. In between, other timers may do what they
like to the rest of the service. -/
inductive EventStep (w : World) : Event → World → Prop where
  | call {request : Request} {status : Int32} {after : World} :
      (request.task 0).Leads Calm w status after → EventStep w (.call request status) after
  | expiries {after : World} : (sweep 0).Leads Calm w () after → EventStep w .expiries after
  | others {next : Timer.World} : (∀ index, Untouched w.osal next (runtime index)) → Foreign next →
      EventStep w .others { w with osal := next }

def sequences : System World Event := ⟨EventStep⟩

def Allocated (w : World) (index : Index) : Prop := ∃ slot, Owns w.osal (runtime index) slot

def Armed (w : World) (index : Index) : Prop :=
  ∃ slot, Owns w.osal (runtime index) slot ∧ (w.osal.slots slot).active = true

def Tame (w : World) : Event → Prop
  | .call (.stop id) _ => ∀ index, indexOf id.toNat = some index → ¬Armed w index
  | _ => True

variable {w w' : World} {index : Index} {events : List Event} {armed : Option Bool}

theorem Placed.allocated_iff (placed : Placed w.osal index armed) :
    Allocated w index ↔ armed ≠ none := by
  cases armed with
  | none =>
    refine ⟨fun allocated => ?_, fun some => absurd rfl some⟩
    obtain ⟨slot, owns⟩ := allocated
    exact absurd owns (placed.below.2 slot)
  | some =>
    obtain ⟨slot, holds⟩ := placed.below
    exact ⟨fun _ => nofun, fun _ => ⟨slot, holds.owns⟩⟩

theorem Placed.armed_iff (placed : Placed w.osal index armed) :
    Armed w index ↔ armed = some true := by
  constructor
  · rintro ⟨slot, owns, active⟩
    cases armed with
    | none => exact absurd owns (placed.below.2 slot)
    | some =>
      obtain ⟨only, holds⟩ := placed.below
      obtain rfl := holds.only slot owns
      rw [← active, holds.active]
  · rintro rfl
    obtain ⟨slot, holds⟩ := placed.below
    exact ⟨slot, holds.owns, holds.active⟩

theorem Agrees.states (agrees : Agrees w index) : ((w.cbs index).state = 3 ↔ Armed w index) ∧
    ((w.cbs index).state = 2 ↔ Allocated w index ∧ ¬Armed w index) ∧
    ((w.cbs index).state = 0 ↔ ¬Allocated w index) := by
  obtain ⟨armed, placed, state⟩ := agrees
  rw [state, placed.allocated_iff, placed.armed_iff]
  rcases armed with _ | _ | _ <;> decide

theorem agree_new : Agree .new where
  foreign timer outside := by
    change (runtimeFields timer).1 ≠ some swtmrFireEntry
    unfold runtimeFields
    split
    next inside =>
      have named : timer = runtime ⟨timer - 1, by omega⟩ := by
        unfold runtime
        dsimp only
        omega
      exact absurd named (outside _)
    next => nofun
  agrees index := by
    refine ⟨none, ⟨?_, rfl, fun slot owns => by cases owns.used⟩, rfl⟩
    change (runtimeFields (runtime index)).1 = _
    unfold runtimeFields runtime
    rw [if_pos ⟨by omega, by omega⟩]

theorem Agree.request (agree : Agree w) {request : Request} {status : Int32}
    (tame : Tame w (.call request status)) (leads : (request.task 0).Leads Calm w status w') :
    Agree w' ∧ Stops w request status w' := by
  refine (request_establishes agree request ?_).sound leads
  rintro id index rfl found running
  exact tame index found ((agree.agrees index).states.1.mp running)

theorem Agree.step (agree : Agree w) {event : Event} (tame : Tame w event)
    (step : EventStep w event w') : Agree w' := by
  cases step with
  | call leads => exact (agree.request tame leads).1
  | expiries leads => exact (sweep_establishes agree).sound leads
  | others kept foreign => exact ⟨foreign, fun index => (agree.agrees index).untouched (kept index) rfl⟩

theorem agree_of_run (run : Run (sequences.keeping Tame) .new events w) : Agree w := by
  refine run.invariant ?_ agree_new
  intro before event after agree step
  exact agree.step step.2 step.1

/-- Each action with the answer of a fixed environment: the time, and what each handler calls. -/
def answer (now : UInt64) (script : Option Request) (w : World) : (o : ops.Op) → ops.Reply o × World
  | .inl o => ((Timer.answer now none w.osal o).1, { w with
      osal := (Timer.answer now none w.osal o).2
      current := noteCurrent w.current o })
  | .inr (.claimCb thread interval mode handler arg) => w.claimCb thread interval mode handler arg
  | .inr (.prepare index interval) => ((), w.prepare index interval)
  | .inr (.clearCb index) => ((), w.setCb index .empty)
  | .inr (.setOutput _) => ((), w)
  | .inr (.startCb index) => w.startCb index
  | .inr (.isAllocated index) => ((w.cbs index).state != 0, w)
  | .inr (.stopCb index) => ((), w.setCb index { w.cbs index with state := 2 })
  | .inr (.setPeriod index ticks) => ((), w.setPeriod index ticks)
  | .inr (.beginFire index) => w.beginFire index
  | .inr (.callHandler _ _ _ _) => ((), w)
  | .inr (.endFire index) => ((), w.endFire index)
  | .inr (.readInterval index) => ((w.cbs index).interval, w)
  | .inr .plan => (if script.isSome then 1 else 0, w)
  | .inr .nextRequest => (script, w)
  | .inr (.enter thread request) =>
    ((), { w with calls := Function.update w.calls thread (some (request, request.names)) })
  | .inr (.leave thread _ _) => ((), { w with calls := Function.update w.calls thread none })
  | .inr (.returned thread) => ((), { w with current := Function.update w.current thread none })

variable (now : UInt64)

theorem atom_answer (script : Option Request) (w : World) (o : ops.Op) :
    Atom w o (answer now script w o).1 (answer now script w o).2 := by
  cases o with
  | inl o => exact .osal (Timer.atom_answer now none w.osal o)
  | inr o =>
    cases o with
    | _ => constructor

theorem calm_answer (w : World) (o : ops.Op) :
    Calm w o (answer now none w o).1 (answer now none w o).2 := by
  refine ⟨atom_answer now none w o, ?_⟩
  cases o with
  | inl => trivial
  | inr o =>
    cases o with
    | plan => rfl
    | _ => trivial

/-- The control block and the timer of the service agree between the calls. Stopping a timer that is
allocated succeeds unless it is armed: then it fails, and they do not agree any more. -/
theorem control_blocks_agree (run : Run (sequences.keeping Tame) .new events w) :
    (∀ index, ((w.cbs index).state = 3 ↔ Armed w index) ∧
      ((w.cbs index).state = 2 ↔ Allocated w index ∧ ¬Armed w index) ∧
      ((w.cbs index).state = 0 ↔ ¬Allocated w index)) ∧
    (∀ id index, indexOf id.toNat = some index → Allocated w index → ¬Armed w index →
      (∃ after, sequences.step w (.call (.stop id) ok) after) ∧
      ∀ status after, sequences.step w (.call (.stop id) status) after →
        status = ok ∧ (after.cbs index).state = 2 ∧ ¬Armed after index) ∧
    ∀ id index, indexOf id.toNat = some index → Armed w index →
      ∀ status after, sequences.step w (.call (.stop id) status) after →
        status = error ∧ (after.cbs index).state = 3 ∧ ¬Armed after index := by
  have agree := agree_of_run run
  refine ⟨fun index => (agree.agrees index).states, ?_, ?_⟩
  case refine_2 =>
    intro id index found armed status after step
    cases step with
    | call leads =>
      have running := (agree.agrees index).states.1.mpr armed
      obtain ⟨failed, state, placed⟩ := (stop_of_running agree found running).sound leads
      exact ⟨failed, state, fun still => nomatch placed.armed_iff.mp still⟩
  intro id index found allocated stopped
  have tame (status : Int32) : Tame w (.call (.stop id) status) := by
    intro other named
    obtain rfl : index = other := Option.some.inj (found.symm.trans named)
    exact stopped
  have occupied : (w.cbs index).state ≠ 0 := fun free => (agree.agrees index).states.2.2.mp free allocated
  have leads := Program.leads_execute (calm_answer 0) ((Request.stop id).task 0) w
  have ends := (agree.request (tame _) leads).2 id index rfl found occupied
  refine ⟨⟨_, .call (ends.1 ▸ leads)⟩, ?_⟩
  intro status after step
  cases step with
  | call leads =>
    obtain ⟨agree, stops⟩ := agree.request (tame _) leads
    obtain ⟨fine, state⟩ := stops id index rfl found occupied
    exact ⟨fine, state, ((agree.agrees index).states.2.1.mp state).2⟩

theorem step_call (request : Request) (w : World) :
    sequences.step w (.call request ((request.task 0).execute (answer now none) w).1)
      ((request.task 0).execute (answer now none) w).2 :=
  .call (Program.leads_execute (calm_answer now) _ w)

theorem step_expiries (w : World) :
    sequences.step w .expiries ((sweep 0).execute (answer now none) w).2 :=
  .expiries (Program.leads_execute (calm_answer now) _ w)

def firstIndex : Index := ⟨0, by decide⟩

/-- A one-shot timer is created, started and runs out; then it can be stopped. -/
theorem expired_timer_stops :
    ∃ (events : List Event) (w : World), Run (sequences.keeping Tame) .new events w ∧
      Event.expiries ∈ events ∧ (w.cbs firstIndex).state = 2 ∧ ¬Armed w firstIndex ∧
      ∃ after, sequences.step w (.call (.stop 0) ok) after := by
  have created : (sequences.keeping Tame).step .new _ _ :=
    ⟨step_call 0 (.create 5 2 9 true 0) .new, trivial⟩
  have started := (Run.start.next created).next ⟨step_call 0 (.start 0) _, trivial⟩
  have expired := started.next ⟨step_expiries 100 _, trivial⟩
  have stops {events : List Event} {w : World} (run : Run (sequences.keeping Tame) .new events w)
      (state : (w.cbs firstIndex).state = 2) : (w.cbs firstIndex).state = 2 ∧ ¬Armed w firstIndex ∧
      ∃ after, sequences.step w (.call (.stop 0) ok) after := by
    obtain ⟨agree, stops, _⟩ := control_blocks_agree run
    obtain ⟨allocated, stopped⟩ := (agree firstIndex).2.1.mp state
    exact ⟨state, stopped, (stops 0 firstIndex rfl allocated stopped).1⟩
  exact ⟨_, _, expired, List.mem_append_right _ List.mem_cons_self, stops expired (by decide +kernel)⟩

/-- A timer that is running is stopped: the call reports an error and leaves the control block as it
was, but the timer of the service is not armed any more. -/
theorem running_timer_not_stopped :
    ∃ (events : List Event) (before after : World), Run sequences .new events before ∧
      (before.cbs firstIndex).state = 3 ∧ Armed before firstIndex ∧
      sequences.step before (.call (.stop 0) error) after ∧
      (after.cbs firstIndex).state = 3 ∧ ¬Armed after firstIndex := by
  have created := Run.start.next (step_call 0 (.create 5 2 9 true 0) .new)
  have started := created.next (step_call 0 (.start 0) _)
  have armed {w : World} (slot : Timer.SlotIndex) (used : (w.osal.slots slot).used = true)
      (timer : (w.osal.slots slot).timer = 1) (active : (w.osal.slots slot).active = true) :
      Armed w firstIndex := ⟨slot, ⟨by decide, used, timer⟩, active⟩
  have disarmed {w : World} (off : ∀ slot, (w.osal.slots slot).active = false) :
      ¬Armed w firstIndex := by
    rintro ⟨slot, _, active⟩
    rw [off] at active
    cases active
  refine ⟨_, _, _, started, by decide +kernel, armed ⟨0, by decide⟩ ?_ ?_ ?_,
    step_call 0 (.stop 0) _, ?_, disarmed ?_⟩
  all_goals decide +kernel

end HisiRf.Swtmr
