import HisiRf.Timer.Calls
import HisiRf.Timer.Swtmr

/-! How far a call of LiteOS has come, and for whom a sweep is calling a handler.

The stage of a call tells what it may rely on if nobody else deals with its timer.
The calls of the service below are made at certain stages only, and some of their
actions lead to the next one.
-/

namespace HisiRf.Swtmr

open Interaction
open Timer (slotOf afterHandle)
open EventGroup (osalOk osalNok)

/-- A call that is meant to keep a handler from being called. -/
def Request.silences : Request → Bool
  | .stop _ | .delete _ => true
  | .create _ _ _ _ _ | .start _ | .osTimerStart _ _ => false

def Request.starts : Request → Bool
  | .start _ | .osTimerStart _ _ => true
  | .create _ _ _ _ _ | .stop _ | .delete _ => false

def Request.deletes : Request → Bool
  | .delete _ => true
  | .create _ _ _ _ _ | .start _ | .stop _ | .osTimerStart _ _ => false

inductive Stage where
  | begun
  | claimed
  | prepared
  | registered
  | running
  | allocated
  | stopped
  | refused
  | destroyed
  | cleared

def Stage.live : Stage → Bool
  | .claimed | .prepared | .registered | .running | .allocated | .stopped => true
  | .begun | .refused | .destroyed | .cleared => false

/-- The timer is not armed, and no handler of it is being called. -/
def Stage.silent : Stage → Bool
  | .claimed | .prepared | .registered | .stopped | .refused | .destroyed | .cleared => true
  | .begun | .running | .allocated => false

def Stage.bare : Stage → Bool
  | .claimed | .prepared | .destroyed | .cleared => true
  | .begun | .registered | .running | .allocated | .stopped | .refused => false

def Stage.after : Stage → Exchange Timer.ops → Stage
  | .prepared, ⟨.register _ _, _⟩ => .registered
  | .allocated, ⟨.readHandle _, handle⟩ => if (slotOf handle).isNone then .stopped else .allocated
  | .allocated, ⟨.disarm _ _, _⟩ => .stopped
  | .begun, ⟨.readHandle _, handle⟩ => if (slotOf handle).isNone then .destroyed else .begun
  | .begun, ⟨.setHandle _ _, _⟩ => .destroyed
  | stage, _ => stage

structure Doing where
  request : Request
  about : Option Index
  stage : Stage

/-- What was read before a handler of the service is called. -/
structure Callback where
  timer : Nat
  handler : Nat
  data : UInt32

structure Phase where
  osal : Timer.Phase
  read : Option Callback
  current : Option Callback
  doing : Option Doing

def Stage.permits (request : Request) (index : Index) : Stage → Timer.Call → Prop
  | .prepared, call | .registered, call => call = .init (runtime index)
  | .running, call => request.starts = true ∧ ∃ interval, call = .mod (runtime index) interval
  | .allocated, call | .stopped, call => request.silences = true ∧ call = .stop (runtime index)
  | .begun, call | .destroyed, call => request.silences = true ∧ call = .destroy (runtime index)
  | .claimed, _ | .refused, _ | .cleared, _ => False

def Callback.fires (callback : Callback) (index : Index) : Prop :=
  callback.handler = swtmrFireEntry ∧ indexOf callback.data.toNat = some index

def Phase.fires (phase : Phase) (index : Index) : Prop :=
  ∃ callback, phase.current = some callback ∧ callback.fires index

def Phase.permits (phase : Phase) (call : Timer.Call) : Prop :=
  match phase.doing with
  | some doing => ∃ index, doing.about = some index ∧ doing.stage.permits doing.request index call
  | none => ∃ index interval, phase.fires index ∧ call = .mod (runtime index) interval

def Phase.allowsOsal (phase : Phase) : Timer.Op → Prop
  | .enter _ call => phase.permits call
  | .readCallback timer => ∃ rest, phase.osal.pending = timer :: rest
  | .dispatch _ timer true => ∃ callback, phase.read = some callback ∧ callback.timer = timer
  | .populate _ _ _ _ => False
  | _ => True

def Phase.afterOsal (phase : Phase) (exchange : Exchange Timer.ops) : Phase where
  osal := Timer.phases.after phase.osal exchange
  read :=
    match exchange with
    | ⟨.readCallback timer, found⟩ => found.map fun both => ⟨timer, both.1, both.2⟩
    | _ => phase.read
  current :=
    match exchange with
    | ⟨.dispatch _ _ true, _⟩ => phase.read
    | _ => phase.current
  doing := phase.doing.map fun doing => { doing with stage := doing.stage.after exchange }

def Doing.mayLeave (doing : Doing) : Prop :=
  doing.stage ≠ .claimed ∧ ∀ index, doing.request.names = some index →
    (doing.request.silences = true → doing.about = some index ∧ doing.stage.silent = true) ∧
    (doing.request.deletes = true → doing.stage = .cleared)

def Phase.allowsOwn (phase : Phase) : Op → Prop
  | .claimCb thread _ _ _ _ => thread = phase.osal.thread ∧
      ∃ request, phase.doing = some ⟨request, none, .begun⟩ ∧ request.silences = false ∧
        request.starts = false
  | .prepare index _ => ∃ request, phase.doing = some ⟨request, some index, .claimed⟩
  | .setOutput _ => True
  | .clearCb index => ∃ request stage, phase.doing = some ⟨request, some index, stage⟩ ∧
      stage.silent = true ∧ stage.bare = true
  | .startCb index => ∃ request, phase.doing = some ⟨request, some index, .begun⟩
  | .isAllocated index => ∃ request, phase.doing = some ⟨request, some index, .begun⟩
  | .stopCb index => ∃ request, phase.doing = some ⟨request, some index, .stopped⟩
  | .setPeriod _ _ => True
  | .beginFire index | .callHandler _ index _ _ => phase.doing = none ∧ phase.fires index
  | .endFire _ | .readInterval _ | .plan | .nextRequest => True
  | .enter thread _ => thread = phase.osal.thread ∧ phase.doing = none
  | .leave thread request _ => thread = phase.osal.thread ∧
      ∃ doing, phase.doing = some doing ∧ doing.request = request ∧ doing.mayLeave
  | .returned thread => thread = phase.osal.thread

def Phase.afterOwn (phase : Phase) : Exchange ⟨Op, Op.Reply⟩ → Phase
  | ⟨.claimCb _ _ _ _ _, some index⟩ => { phase with
      doing := phase.doing.map fun doing => { doing with about := some index, stage := .claimed } }
  | ⟨.prepare _ _, _⟩ => { phase with
      doing := phase.doing.map fun doing => { doing with stage := .prepared } }
  | ⟨.clearCb _, _⟩ => { phase with
      doing := phase.doing.map fun doing => { doing with stage := .cleared } }
  | ⟨.startCb _, some _⟩ => { phase with
      doing := phase.doing.map fun doing => { doing with stage := .running } }
  | ⟨.isAllocated _, allocated⟩ => { phase with
      doing := phase.doing.map fun doing =>
        { doing with stage := if allocated then .allocated else .refused } }
  | ⟨.enter _ request, _⟩ => { phase with doing := some ⟨request, request.names, .begun⟩ }
  | ⟨.leave _ _ _, _⟩ => { phase with doing := none }
  | ⟨.returned _, _⟩ => { phase with read := none, current := none }
  | _ => phase

/-- An action of LiteOS is never taken in the middle of a call of the service. -/
def phases : Protocol ops Phase where
  allows
    | phase, .inl o => Timer.phases.allows phase.osal o ∧ phase.allowsOsal o
    | phase, .inr o => phase.osal.doing = none ∧ phase.allowsOwn o
  after
    | phase, ⟨.inl o, reply⟩ => phase.afterOsal ⟨o, reply⟩
    | phase, ⟨.inr o, reply⟩ => phase.afterOwn ⟨o, reply⟩

def home (thread : Nat) : Phase := ⟨Timer.home thread, none, none, none⟩

variable {thread : Nat} {pending : List Nat} {read current : Option Callback} {doing : Option Doing}
  {request : Request} {index : Index}

def resting (thread : Nat) (pending : List Nat) (read current : Option Callback)
    (doing : Option Doing) : Phase := ⟨⟨thread, pending, none⟩, read, current, doing⟩

variable {A : Type} {interval : UInt32} {id : UInt16} {stage : Stage} {about : Option Index}

/-- The task keeps to the phases from rest to rest. -/
abbrev Rests (thread : Nat) (pending : List Nat) (read current : Option Callback) (task : Task A)
    (before after : Option Doing) : Prop :=
  task.Obeys phases (fun _ phase => phase = resting thread pending read current after)
    (resting thread pending read current before)

theorem mod_obeys (calm : doing = none ∨ ∃ request about, doing = some ⟨request, about, .running⟩)
    (permitted : (resting thread pending read current doing).permits (.mod (runtime index) interval)) :
    Rests thread pending read current (osal thread (.mod (runtime index) interval)) doing doing := by
  refine ⟨⟨rfl, permitted⟩, fun _ => ?_⟩
  change (Program.left ((Timer.osalTimerMod (runtime index) interval).bind _)).Obeys phases _ _
  unfold Timer.osalTimerMod
  split
  next =>
    refine ⟨⟨⟨rfl, rfl, nofun⟩, trivial⟩, fun _ => ?_⟩
    rcases calm with rfl | ⟨request, about, rfl⟩ <;> rfl
  next =>
    refine ⟨⟨⟨rfl, rfl, runtime_ne_zero index⟩, trivial⟩, fun handle => ?_⟩
    change (Program.left ((Timer.modSlot (runtime index) interval (slotOf handle)).bind _)).Obeys
      phases _ ⟨⟨thread, pending, some (_, afterHandle (slotOf handle))⟩, _, _, _⟩
    cases slotOf handle with
    | none =>
      refine ⟨⟨⟨rfl, rfl⟩, trivial⟩, fun _ => ?_⟩
      rcases calm with rfl | ⟨request, about, rfl⟩ <;> rfl
    | some =>
      refine ⟨⟨trivial, trivial⟩, fun _ => ⟨⟨trivial, trivial⟩, fun now =>
        ⟨⟨⟨rfl, rfl⟩, trivial⟩, fun _ => ⟨⟨⟨rfl, rfl⟩, trivial⟩, fun _ => ?_⟩⟩⟩⟩
      rcases calm with rfl | ⟨request, about, rfl⟩ <;> rfl

theorem stop_obeys (silences : request.silences = true) :
    Rests thread pending read current (osal thread (.stop (runtime index)))
      (some ⟨request, some index, .allocated⟩) (some ⟨request, some index, .stopped⟩) := by
  refine ⟨⟨rfl, index, rfl, silences, rfl⟩, fun _ => ?_⟩
  refine ⟨⟨⟨rfl, rfl, runtime_ne_zero index⟩, trivial⟩, fun handle => ?_⟩
  change (Program.left ((Timer.stopSlot (runtime index) (slotOf handle)).bind _)).Obeys
    phases _ ⟨⟨thread, pending, some (_, afterHandle (slotOf handle))⟩, _, _, some ⟨_, _,
      if (slotOf handle).isNone then .stopped else .allocated⟩⟩
  cases slotOf handle with
  | none => exact ⟨⟨⟨rfl, rfl⟩, trivial⟩, fun _ => rfl⟩
  | some => exact ⟨⟨⟨rfl, rfl⟩, trivial⟩, fun _ => ⟨⟨⟨rfl, rfl⟩, trivial⟩, fun _ => rfl⟩⟩

theorem destroy_obeys (silences : request.silences = true) :
    Rests thread pending read current (osal thread (.destroy (runtime index)))
      (some ⟨request, some index, .begun⟩) (some ⟨request, some index, .destroyed⟩) := by
  refine ⟨⟨rfl, index, rfl, silences, rfl⟩, fun _ => ?_⟩
  refine ⟨⟨⟨rfl, rfl, runtime_ne_zero index⟩, trivial⟩, fun handle => ?_⟩
  change (Program.left ((Timer.destroySlot (runtime index) (slotOf handle)).bind _)).Obeys
    phases _ ⟨⟨thread, pending, some (_, afterHandle (slotOf handle))⟩, _, _, some ⟨_, _,
      if (slotOf handle).isNone then .destroyed else .begun⟩⟩
  cases slotOf handle with
  | none => exact ⟨⟨⟨rfl, rfl⟩, trivial⟩, fun _ => rfl⟩
  | some =>
    exact ⟨⟨⟨rfl, rfl⟩, trivial⟩, fun _ => ⟨⟨⟨rfl, rfl⟩, trivial⟩, fun _ =>
      ⟨⟨⟨rfl, rfl⟩, trivial⟩, fun _ => rfl⟩⟩⟩

theorem init_obeys : (osal thread (.init (runtime index))).Obeys phases
      (fun status phase => ∃ stage,
        (status = osalOk ∧ stage = .registered ∨ status ≠ osalOk ∧ stage = .prepared) ∧
        phase = resting thread pending read current (some ⟨request, some index, stage⟩))
      (resting thread pending read current (some ⟨request, some index, .prepared⟩)) := by
  refine ⟨⟨rfl, index, rfl, rfl⟩, fun _ => ?_⟩
  refine ⟨⟨⟨rfl, rfl, runtime_ne_zero index⟩, trivial⟩, fun object => ?_⟩
  change (Program.left ((if object.ready then _ else _ : Timer.Task Int32).bind _)).Obeys phases _
    ⟨⟨thread, pending, some (_, if object.ready then .checked else .ended)⟩, _, _, _⟩
  split
  next =>
    refine ⟨⟨trivial, trivial⟩, fun started => ?_⟩
    cases started with
    | false => exact ⟨⟨⟨rfl, rfl⟩, trivial⟩, fun _ => ⟨.prepared, .inr ⟨by decide, rfl⟩, rfl⟩⟩
    | true =>
      refine ⟨⟨trivial, trivial⟩, fun slot => ?_⟩
      cases slot with
      | none => exact ⟨⟨⟨rfl, rfl⟩, trivial⟩, fun _ => ⟨.prepared, .inr ⟨by decide, rfl⟩, rfl⟩⟩
      | some =>
        exact ⟨⟨⟨rfl, rfl⟩, trivial⟩, fun _ => ⟨⟨⟨rfl, rfl⟩, trivial⟩, fun _ =>
          ⟨⟨⟨rfl, rfl⟩, trivial⟩, fun _ => ⟨.registered, .inl ⟨rfl, rfl⟩, rfl⟩⟩⟩⟩
  next => exact ⟨⟨⟨rfl, rfl⟩, trivial⟩, fun _ => ⟨.prepared, .inr ⟨by decide, rfl⟩, rfl⟩⟩

def Returns (thread : Nat) (pending : List Nat) (read current : Option Callback) (request : Request)
    (phase : Phase) : Prop :=
  ∃ about stage, phase = resting thread pending read current (some ⟨request, about, stage⟩) ∧
    Doing.mayLeave ⟨request, about, stage⟩

/-- The same for a task of a call, up to where the call may return. -/
abbrev Executes (thread : Nat) (pending : List Nat) (read current : Option Callback)
    (request : Request) (task : Task A) (about : Option Index) : Prop :=
  task.Obeys phases (fun _ => Returns thread pending read current request)
    (resting thread pending read current (some ⟨request, about, .begun⟩))

theorem mayLeave_of_loud (loud : request.silences = false) (kept : request.deletes = false)
    (done : stage ≠ .claimed) : Doing.mayLeave ⟨request, about, stage⟩ := by
  refine ⟨done, fun index _ => ⟨fun silences => ?_, fun deletes => ?_⟩⟩
  · rw [loud] at silences
    cases silences
  · rw [kept] at deletes
    cases deletes

theorem create_obeys {mode : UInt8} {handler : UInt32} {output : Bool} {arg : UInt32}
    (request : Request) (known : request = .create interval mode handler output arg) :
    Executes thread pending read current request
      (losSwtmrCreate thread interval mode handler output arg) none := by
  have loud : request.silences = false := by rw [known]; rfl
  have kept : request.starts = false ∧ request.deletes = false := by rw [known]; exact ⟨rfl, rfl⟩
  have leaves (about : Option Index) (stage : Stage) (done : stage ≠ .claimed) :
      Doing.mayLeave ⟨request, about, stage⟩ := mayLeave_of_loud loud kept.2 done
  unfold losSwtmrCreate
  split
  next => exact ⟨none, .begun, rfl, leaves _ _ (by nofun)⟩
  next =>
    refine ⟨⟨rfl, rfl, request, rfl, loud, kept.1⟩, fun found => ?_⟩
    cases found with
    | none => exact ⟨none, .begun, rfl, leaves _ _ (by nofun)⟩
    | some index =>
      refine ⟨⟨rfl, request, rfl⟩, fun _ => ?_⟩
      refine init_obeys.next ?_
      rintro status phase ⟨stage, fits, rfl⟩
      unfold finishCreate
      split
      next =>
        refine ⟨⟨rfl, trivial⟩, fun _ => ⟨some index, stage, rfl, leaves _ _ ?_⟩⟩
        rcases fits with ⟨_, rfl⟩ | ⟨_, rfl⟩ <;> nofun
      next failed =>
        obtain rfl : stage = .prepared := by grind
        exact ⟨⟨rfl, request, _, rfl, rfl, rfl⟩, fun _ =>
          ⟨some index, .cleared, rfl, leaves _ _ (by nofun)⟩⟩

theorem startIndex_obeys (starts : request.starts = true) (loud : request.silences = false)
    (kept : request.deletes = false) :
    Executes thread pending read current request (startIndex thread index) (some index) := by
  refine ⟨⟨rfl, request, rfl⟩, fun interval => ?_⟩
  cases interval with
  | none => exact ⟨some index, .begun, rfl, mayLeave_of_loud loud kept nofun⟩
  | some =>
    refine (mod_obeys (.inr ⟨_, _, rfl⟩) ⟨index, rfl, starts, _, rfl⟩).on fun status => ?_
    exact ⟨some index, .running, rfl, mayLeave_of_loud loud kept nofun⟩

theorem stopIndex_obeys (silences : request.silences = true) (kept : request.deletes = false)
    (named : request.names = some index) :
    Executes thread pending read current request (stopIndex thread index) (some index) := by
  have leaves (stage : Stage) (silent : stage.silent = true) (done : stage ≠ .claimed) :
      Doing.mayLeave ⟨request, some index, stage⟩ := by
    refine ⟨done, fun other same => ⟨fun _ => ⟨named.symm.trans same, silent⟩, fun deletes => ?_⟩⟩
    rw [kept] at deletes
    cases deletes
  refine ⟨⟨rfl, request, rfl⟩, fun allocated => ?_⟩
  cases allocated with
  | false => exact ⟨some index, .refused, rfl, leaves _ rfl nofun⟩
  | true =>
    refine (stop_obeys silences).on fun status => ?_
    unfold finishStop
    split
    next =>
      exact ⟨⟨rfl, request, rfl⟩, fun _ => ⟨some index, .stopped, rfl, leaves _ rfl nofun⟩⟩
    next => exact ⟨some index, .stopped, rfl, leaves _ rfl nofun⟩

theorem deleteIndex_obeys (silences : request.silences = true) (named : request.names = some index) :
    Executes thread pending read current request (deleteIndex thread index) (some index) := by
  refine (destroy_obeys silences).on fun status => ?_
  exact ⟨⟨rfl, request, _, rfl, rfl, rfl⟩, fun _ => ⟨some index, .cleared, rfl, nofun,
    fun _ same => ⟨fun _ => ⟨named.symm.trans same, rfl⟩, fun _ => rfl⟩⟩⟩

theorem returns_unnamed (unnamed : request.names = none) : Returns thread pending read current
    request (resting thread pending read current (some ⟨request, none, .begun⟩)) :=
  ⟨none, .begun, rfl, nofun, fun _ named => absurd (unnamed.symm.trans named) (by nofun)⟩

theorem withIndex_obeys {body : Index → Task Int32} (names : request.names = indexOf id.toNat)
    (each : ∀ index, request.names = some index →
      Executes thread pending read current request (body index) (some index)) :
    Executes thread pending read current request (withIndex id body) request.names := by
  unfold withIndex
  rw [← names]
  cases found : request.names with
  | none => exact returns_unnamed found
  | some index => exact each index found

theorem body_obeys (request : Request) :
    Executes thread pending read current request (request.body thread) request.names := by
  cases request with
  | create => exact create_obeys _ rfl
  | start id => exact withIndex_obeys rfl fun index _ => startIndex_obeys rfl rfl rfl
  | stop id => exact withIndex_obeys rfl fun index named => stopIndex_obeys rfl rfl named
  | delete id => exact withIndex_obeys rfl fun index named => deleteIndex_obeys rfl named
  | osTimerStart id ticks =>
    change Executes thread pending read current _ (osTimerStart thread id ticks) id
    unfold osTimerStart
    cases id with
    | none => exact returns_unnamed rfl
    | some index =>
      dsimp only
      split
      next => exact ⟨some index, .begun, rfl, mayLeave_of_loud rfl rfl nofun⟩
      next => exact ⟨⟨rfl, trivial⟩, fun _ => (startIndex_obeys rfl rfl rfl).next fun _ _ now => now⟩

theorem request_obeys (request : Request) :
    Rests thread pending read current (request.task thread) none none := by
  refine ⟨⟨rfl, rfl, rfl⟩, fun _ => ?_⟩
  refine (body_obeys request).next ?_
  rintro status phase ⟨about, stage, rfl, leaves⟩
  exact ⟨⟨rfl, rfl, _, rfl, rfl, leaves⟩, fun _ => rfl⟩

theorem nextRequests_obeys (calls : Nat) :
    Rests thread pending read current (nextRequests thread calls) none none := by
  induction calls with
  | zero => rfl
  | succ calls ih =>
    refine ⟨⟨rfl, trivial⟩, fun next => ?_⟩
    cases next with
    | none => rfl
    | some request =>
      exact (request_obeys request).on fun _ => ih

theorem callHandler_obeys {callback : Callback} (fires : callback.fires index) (handler arg : UInt32) :
    Rests thread pending read (some callback) (callHandler thread index handler arg) none none := by
  unfold callHandler
  split
  next => rfl
  next =>
    refine ⟨⟨rfl, rfl, callback, rfl, fires⟩, fun _ => ⟨⟨rfl, trivial⟩, fun calls => ?_⟩⟩
    exact nextRequests_obeys calls

theorem fireIndex_obeys {callback : Callback} (fires : callback.fires index) :
    Rests thread pending read (some callback) (fireIndex thread index) none none := by
  refine ⟨⟨rfl, rfl, callback, rfl, fires⟩, fun found => ?_⟩
  refine (callHandler_obeys fires _ _).on fun _ => ?_
  refine ⟨⟨rfl, trivial⟩, fun _ => ?_⟩
  unfold armAgain
  split
  next =>
    refine ⟨⟨rfl, trivial⟩, fun interval => ?_⟩
    refine (mod_obeys (.inl rfl) ⟨index, _, ⟨callback, rfl, fires⟩, rfl⟩).on fun _ => ?_
    rfl
  next => rfl

theorem callback_obeys (callback : Callback) :
    (Swtmr.callback thread callback.handler callback.data).Obeys phases
      (fun _ phase => phase = resting thread pending none none none)
      (resting thread pending read (some callback) none) := by
  unfold Swtmr.callback
  split
  next entry =>
    unfold swtmrFire
    cases found : indexOf callback.data.toNat with
    | none => exact ⟨⟨rfl, rfl⟩, fun _ => rfl⟩
    | some =>
      exact (fireIndex_obeys ⟨entry, found⟩).on fun _ => ⟨⟨rfl, rfl⟩, fun _ => rfl⟩
  next => exact ⟨⟨rfl, rfl⟩, fun _ => rfl⟩

theorem fireEach_obeys (due : List Nat) :
    (Timer.fireEach Program.left (callback thread) thread due).Obeys phases
      (fun _ phase => phase = home thread)
      (resting thread (due.filter (· ≠ 0)) none none none) := by
  induction due with
  | nil => rfl
  | cons timer rest ih =>
    unfold Timer.fireEach
    split
    next null =>
      subst null
      exact ih
    next real =>
      rw [List.filter_cons_of_pos (by simpa using real)]
      refine ⟨⟨trivial, _, rfl⟩, fun found => ?_⟩
      cases found with
      | none => exact ⟨⟨⟨rfl, _, rfl⟩, trivial⟩, fun _ => ih⟩
      | some both =>
        refine ⟨⟨⟨rfl, _, rfl⟩, ⟨timer, both.1, both.2⟩, rfl, rfl⟩, fun _ => ?_⟩
        exact (callback_obeys ⟨timer, both.1, both.2⟩).on fun _ => ih

theorem tasks_obey (i : Nat) (p : Task Unit) (given : swtmrTasks i p) :
    p.Obeys phases (fun _ phase => phase = home i) (home i) := by
  obtain ⟨job, rfl⟩ := given
  cases job with
  | request call =>
    refine (request_obeys call).on fun status => ?_
    rfl
  | sweep =>
    refine ⟨⟨trivial, trivial⟩, fun now => ⟨⟨rfl, trivial⟩, fun due => ?_⟩⟩
    exact fireEach_obeys due

end HisiRf.Swtmr
