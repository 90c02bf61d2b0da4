import HisiRf.Timer.Service

/-! How far a call of the timer service has come.

Which actions a call takes depends on what it has found: a registration goes on
only with a null handle, the others only with the slot that the handle names. A
sweep comes to the timers of its batch in their order.
-/

namespace HisiRf.Timer

open Interaction
open EventGroup (osalOk osalNok)

def Call.registers : Call → Bool
  | .init _ | .adaptInit _ _ _ _ => true
  | .mod _ _ | .stop _ | .destroy _ => false

/-- A call that is meant to keep the handler of its timer from being called. -/
def Call.silences : Call → Bool
  | .stop _ | .destroy _ => true
  | .init _ | .adaptInit _ _ _ _ | .mod _ _ => false

inductive Progress where
  | begun
  | checked
  | allocated (slot : SlotIndex)
  | linked (slot : SlotIndex)
  | holding (slot : SlotIndex)
  | cleared (slot : SlotIndex)
  | ended

def Progress.allows (thread : Nat) (call : Call) : Progress → Op → Prop
  | .begun, .reset timer func data interval => call = .adaptInit timer func data interval
  | .begun, .inspect timer => call.registers = true ∧ timer = call.timer ∧ timer ≠ 0
  | .begun, .readHandle timer => call.registers = false ∧ timer = call.timer ∧ timer ≠ 0
  | .begun, .leave i other _ =>
    i = thread ∧ other = call ∧ (call.silences = true → call.timer = 0)
  | .checked, .ensureTimerWorker => True
  | .checked, .allocSlot => True
  | .allocated slot, .setHandle timer handle => timer = call.timer ∧ handle = handleOf slot
  | .linked slot, .register k timer => k = slot ∧ timer = call.timer
  | .holding _, .setInterval _ _ => True
  | .holding _, .nowMs => True
  | .holding slot, .arm timer k _ interval => call = .mod timer interval ∧ k = slot
  | .holding slot, .disarm timer k => call = .stop timer ∧ k = slot
  | .holding slot, .clear timer k => call = .destroy timer ∧ k = slot
  | .cleared _, .setHandle timer handle => timer = call.timer ∧ handle = 0
  | .ended, .leave i other _ => i = thread ∧ other = call
  | _, _ => False

def afterHandle : Option SlotIndex → Progress
  | none => .ended
  | some slot => .holding slot

def afterSearch : Option SlotIndex → Progress
  | none => .ended
  | some slot => .allocated slot

def Progress.after : Progress → Exchange ops → Progress
  | .begun, ⟨.inspect _, object⟩ => if object.ready then .checked else .ended
  | .begun, ⟨.readHandle _, handle⟩ => afterHandle (slotOf handle)
  | .checked, ⟨.ensureTimerWorker, started⟩ => if started then .checked else .ended
  | .checked, ⟨.allocSlot, slot⟩ => afterSearch slot
  | .allocated slot, ⟨.setHandle _ _, _⟩ => .linked slot
  | .linked _, ⟨.register _ _, _⟩ => .ended
  | .holding _, ⟨.arm _ _ _ _, _⟩ => .ended
  | .holding _, ⟨.disarm _ _, _⟩ => .ended
  | .holding slot, ⟨.clear _ _, _⟩ => .cleared slot
  | .cleared _, ⟨.setHandle _ _, _⟩ => .ended
  | progress, _ => progress

/-- Which call a thread is in, and which collected timers it has still to come to. -/
structure Phase where
  thread : Nat
  pending : List Nat
  doing : Option (Call × Progress)

open Phase

def Phase.allowsOutside (phase : Phase) : Op → Prop
  | .enter i _ => i = phase.thread
  | .collect i _ => i = phase.thread
  | .dispatch i timer _ => i = phase.thread ∧ ∃ rest, phase.pending = timer :: rest
  | .nowMs | .readCallback _ | .plan | .nextCall | .populate _ _ _ _ => True
  | _ => False

def Phase.allows (phase : Phase) (o : Op) : Prop :=
  match phase.doing with
  | none => phase.allowsOutside o
  | some (call, progress) => progress.allows phase.thread call o

def Phase.afterOutside (phase : Phase) : Exchange ops → Phase
  | ⟨.enter _ call, _⟩ => { phase with doing := some (call, .begun) }
  | ⟨.collect _ _, due⟩ => { phase with pending := due.filter (· ≠ 0) }
  | ⟨.dispatch _ _ _, _⟩ => { phase with pending := phase.pending.tail }
  | _ => phase

def Phase.afterInside (phase : Phase) (call : Call) (progress : Progress) : Exchange ops → Phase
  | ⟨.leave _ _ _, _⟩ => { phase with doing := none }
  | exchange => { phase with doing := some (call, progress.after exchange) }

def Phase.after (phase : Phase) (exchange : Exchange ops) : Phase :=
  match phase.doing with
  | none => phase.afterOutside exchange
  | some (call, progress) => phase.afterInside call progress exchange

def phases : Protocol ops Phase := ⟨allows, after⟩

def home (thread : Nat) : Phase := ⟨thread, [], none⟩

variable {phase : Phase} {call : Call} {progress : Progress} {o : Op} {reply : o.Reply}

theorem allows_cases (allowed : phases.allows phase o) :
    phase.doing = none ∧ phase.allowsOutside o ∨ ∃ call progress,
      phase.doing = some (call, progress) ∧ progress.allows phase.thread call o := by
  change allows phase o at allowed
  unfold allows at allowed
  split at allowed
  next outside => exact .inl ⟨outside, allowed⟩
  next call progress inside => exact .inr ⟨call, progress, inside, allowed⟩

section

variable (doing : phase.doing = some (call, progress))
include doing

def Op.leaves : Op → Bool
  | .leave _ _ _ => true
  | _ => false

theorem after_inside (stays : o.leaves = false) : phases.after phase ⟨o, reply⟩ =
      { phase with doing := some (call, progress.after ⟨o, reply⟩) } := by
  change after phase _ = _
  unfold after
  rw [doing]
  cases o with
  | leave => cases stays
  | _ => rfl

theorem after_leave (thread : Nat) (other : Call) (status : Int32) :
    phases.after phase ⟨.leave thread other status, ()⟩ = { phase with doing := none } := by
  change after phase _ = _
  unfold after
  rw [doing]
  rfl

end

theorem after_outside (doing : phase.doing = none) (exchange : Exchange ops) :
    phases.after phase exchange = phase.afterOutside exchange := by
  change after phase _ = _
  unfold after
  rw [doing]

variable {thread : Nat} {pending : List Nat}

def inCall (thread : Nat) (pending : List Nat) (call : Call) : Phase :=
  ⟨thread, pending, some (call, .begun)⟩

/-- A call may be left at its end, or before it has begun if there is nothing to do. -/
def MayLeave (thread : Nat) (pending : List Nat) (call : Call) (phase : Phase) : Prop :=
  phase = ⟨thread, pending, some (call, .ended)⟩ ∨
    phase = inCall thread pending call ∧ (call.silences = true → call.timer = 0)

theorem init_obeys (call : Call) (registers : call.registers = true)
    (loud : call.silences = false) :
    (osalTimerInit call.timer).Obeys phases (fun _ => MayLeave thread pending call)
      (inCall thread pending call) := by
  unfold osalTimerInit
  split
  next =>
    refine .inr ⟨rfl, fun silences => ?_⟩
    rw [loud] at silences
    cases silences
  next real =>
    refine ⟨⟨registers, rfl, real⟩, fun object => ?_⟩
    change (if object.ready then _ else _ : Task Int32).Obeys phases _
      ⟨thread, pending, some (call, if object.ready then .checked else .ended)⟩
    split
    next =>
      refine ⟨trivial, fun started => ?_⟩
      cases started with
      | false => exact .inl rfl
      | true =>
        refine ⟨trivial, fun slot => ?_⟩
        cases slot with
        | none => exact .inl rfl
        | some => exact ⟨⟨rfl, rfl⟩, fun _ => ⟨⟨rfl, rfl⟩, fun _ => .inl rfl⟩⟩
    next => exact .inl rfl

theorem slotOfTimer_obeys (call : Call) (names : call.registers = false)
    {rest : Option SlotIndex → Task Int32} (nothing : ∃ status, rest none = .done status)
    (goesOn : ∀ slot, (rest slot).Obeys phases (fun _ => MayLeave thread pending call)
      ⟨thread, pending, some (call, afterHandle slot)⟩) :
    ((slotOfTimer call.timer).bind rest).Obeys phases (fun _ => MayLeave thread pending call)
      (inCall thread pending call) := by
  unfold slotOfTimer
  split
  next null =>
    obtain ⟨status, done⟩ := nothing
    change (rest none).Obeys phases _ _
    rw [done]
    exact .inr ⟨rfl, fun _ => null⟩
  next real => exact ⟨⟨names, rfl, real⟩, fun handle => goesOn (slotOf handle)⟩

theorem body_obeys (call : Call) :
    call.body.Obeys phases (fun _ => MayLeave thread pending call) (inCall thread pending call) := by
  cases call with
  | init timer => exact init_obeys (.init timer) rfl rfl
  | adaptInit timer func data interval =>
    change (osalAdaptTimerInit timer func data interval).Obeys _ _ _
    unfold osalAdaptTimerInit
    split
    next => exact .inr ⟨rfl, nofun⟩
    next => exact ⟨rfl, fun _ => init_obeys (.adaptInit timer func data interval) rfl rfl⟩
  | mod timer interval =>
    change (osalTimerMod timer interval).Obeys _ _ _
    unfold osalTimerMod
    split
    next => exact .inr ⟨rfl, nofun⟩
    next =>
      refine slotOfTimer_obeys (.mod timer interval) rfl ⟨_, rfl⟩ fun slot => ?_
      cases slot with
      | none => exact .inl rfl
      | some =>
        exact ⟨trivial, fun _ => ⟨trivial, fun now => ⟨⟨rfl, rfl⟩, fun _ => .inl rfl⟩⟩⟩
  | stop timer =>
    refine slotOfTimer_obeys (.stop timer) rfl ⟨_, rfl⟩ fun slot => ?_
    cases slot with
    | none => exact .inl rfl
    | some => exact ⟨⟨rfl, rfl⟩, fun _ => .inl rfl⟩
  | destroy timer =>
    refine slotOfTimer_obeys (.destroy timer) rfl ⟨_, rfl⟩ fun slot => ?_
    cases slot with
    | none => exact .inl rfl
    | some => exact ⟨⟨rfl, rfl⟩, fun _ => ⟨⟨rfl, rfl⟩, fun _ => .inl rfl⟩⟩

theorem call_obeys (call : Call) :
    (call.task thread).Obeys phases (fun _ phase => phase = ⟨thread, pending, none⟩)
      ⟨thread, pending, none⟩ := by
  refine ⟨rfl, fun _ => ?_⟩
  refine (body_obeys call).next ?_
  intro status phase leaves
  rcases leaves with rfl | ⟨rfl, nothing⟩
  · exact ⟨⟨rfl, rfl⟩, fun _ => rfl⟩
  · exact ⟨⟨rfl, rfl, nothing⟩, fun _ => rfl⟩

theorem nextCalls_obeys (calls : Nat) :
    (nextCalls thread calls).Obeys phases (fun _ phase => phase = ⟨thread, pending, none⟩)
      ⟨thread, pending, none⟩ := by
  induction calls with
  | zero => rfl
  | succ calls ih =>
    refine ⟨trivial, fun next => ?_⟩
    cases next with
    | none => rfl
    | some call =>
      refine (call_obeys call).next ?_
      intro status phase same
      subst same
      exact ih

theorem fireEach_obeys {callback : Nat → UInt32 → Task Unit}
    (calls : ∀ handler data pending, (callback handler data).Obeys phases
      (fun _ phase => phase = ⟨thread, pending, none⟩) ⟨thread, pending, none⟩) (due : List Nat) :
    (fireEach (fun task => task) callback thread due).Obeys phases (fun _ phase => phase = home thread)
      ⟨thread, due.filter (· ≠ 0), none⟩ := by
  induction due with
  | nil => rfl
  | cons timer rest ih =>
    unfold fireEach
    split
    next null =>
      subst null
      exact ih
    next real =>
      rw [List.filter_cons_of_pos (by simpa using real)]
      refine ⟨trivial, fun found => ?_⟩
      cases found with
      | none => exact ⟨⟨rfl, _, rfl⟩, fun _ => ih⟩
      | some both =>
        refine ⟨⟨rfl, _, rfl⟩, fun _ => ?_⟩
        refine (calls both.1 both.2 _).next ?_
        intro _ phase same
        subst same
        exact ih

theorem tasks_obey (i : Nat) (p : Task Unit) (given : timerTasks i p) :
    p.Obeys phases (fun _ phase => phase = home i) (home i) := by
  obtain ⟨job, rfl⟩ := given
  cases job with
  | call request =>
    refine (call_obeys request).next ?_
    intro status phase same
    exact same
  | sweep =>
    refine ⟨trivial, fun now => ⟨rfl, fun due => ?_⟩⟩
    refine fireEach_obeys (fun handler data pending => ?_) due
    exact ⟨trivial, fun calls => nextCalls_obeys calls⟩
  | populate => exact ⟨trivial, fun _ => rfl⟩

end HisiRf.Timer
