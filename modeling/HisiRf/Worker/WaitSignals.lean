import HisiRf.Interaction.Record
import HisiRf.Machine.Word

/-! The wait bridge of the incremental runner.

Any number of callbacks signal a source: each counts its signal and then wakes
the waker that was registered last. One runner polls: it registers its waker,
takes at most one signal of each source it waits for, and looks a second time
before it goes to sleep. The waker itself is that of another crate; it is taken
to wake whatever was registered last.
-/

namespace HisiRf.WaitSignals

open Interaction Machine Function

/-- The sources that are counted until the runner consumes them. -/
inductive Source where | backend | l2Rx deriving DecidableEq

structure WaitSet where
  backend : Bool
  l2Rx : Bool
  timer : Bool
  deriving DecidableEq

def WaitSet.empty : WaitSet := ⟨false, false, false⟩

def WaitSet.contains (set : WaitSet) : Source → Bool
  | .backend => set.backend
  | .l2Rx => set.l2Rx

def WaitSet.insert (set : WaitSet) : Source → WaitSet
  | .backend => { set with backend := true }
  | .l2Rx => { set with l2Rx := true }

def WaitSet.isEmpty (set : WaitSet) : Bool := !set.backend && !set.l2Rx && !set.timer

abbrev Waker := Nat

inductive Diagnostic where
  | backendSignals | l2RxSignals | wakerNotifications | pollCalls | pendingPolls | readyPolls
  | timerReadyPolls
  deriving DecidableEq

def Source.signals : Source → Diagnostic
  | .backend => .backendSignals
  | .l2Rx => .l2RxSignals

structure World where
  pending : Source → UInt32
  waker : Option Waker
  diagnostics : Diagnostic → UInt32
  timerDeadlineUs : Option UInt64

def World.new : World := ⟨fun _ => 0, none, fun _ => 0, none⟩

inductive Op where
  | countDiagnostic (counter : Diagnostic)
  | countPending (source : Source)
  | takeOne (source : Source)
  | register (waker : Waker)
  | wake
  | rxReady
  | monotonicUs
  | timerDeadline
  | installTimer (deadlineUs : UInt64)
  | clearTimer
  | pollTimerFuture
  /- These two change nothing; they tell which poll the runner is in and what it returned. -/
  | enterPoll (waker : Waker) (sources : WaitSet) (deadlineUs : Option UInt64)
  | leavePoll (result : Option WaitSet)

@[reducible] def Op.Reply : Op → Type
  | .takeOne _ | .rxReady | .pollTimerFuture => Bool
  | .wake => Option Waker
  | .monotonicUs => UInt64
  | .timerDeadline => Option UInt64
  | .countDiagnostic _ | .countPending _ | .register _ | .installTimer _ | .clearTimer
  | .enterPoll _ _ _ | .leavePoll _ => Unit

abbrev ops : Signature := ⟨Op, Op.Reply⟩

abbrev Task (A : Type) := Program ops A

def World.setPending (w : World) (source : Source) (value : UInt32) : World :=
  { w with pending := update w.pending source value }

inductive Atom (w : World) : (o : Op) → o.Reply → World → Prop where
  | countDiagnostic (counter : Diagnostic) :
      Atom w (.countDiagnostic counter) ()
        { w with
          diagnostics := update w.diagnostics counter
            (saturatingIncrement (w.diagnostics counter)) }
  | countPending (source : Source) :
      Atom w (.countPending source) () (w.setPending source (saturatingIncrement (w.pending source)))
  | took (source : Source) : w.pending source ≠ 0 →
      Atom w (.takeOne source) true (w.setPending source (w.pending source - 1))
  | missed (source : Source) : w.pending source = 0 → Atom w (.takeOne source) false w
  | register (waker : Waker) : Atom w (.register waker) () { w with waker := some waker }
  | wake : Atom w .wake w.waker w
  | rxReady (ready : Bool) : Atom w .rxReady ready w
  | monotonicUs (now : UInt64) : Atom w .monotonicUs now w
  | timerDeadline : Atom w .timerDeadline w.timerDeadlineUs w
  | installTimer (deadlineUs : UInt64) :
      Atom w (.installTimer deadlineUs) () { w with timerDeadlineUs := some deadlineUs }
  | clearTimer : Atom w .clearTimer () { w with timerDeadlineUs := none }
  | pollTimerFuture (fired : Bool) : Atom w .pollTimerFuture fired w
  | enterPoll (waker : Waker) (sources : WaitSet) (deadlineUs : Option UInt64) :
      Atom w (.enterPoll waker sources deadlineUs) () w
  | leavePoll (result : Option WaitSet) : Atom w (.leavePoll result) () w

/-! ## The routines -/

def atom (o : Op) : Task o.Reply := Program.call (I := ops) o .done

def signalSource (set : WaitSet) (source : Source) : Task Unit := do
  if set.contains source then
    atom (.countDiagnostic source.signals)
    atom (.countPending source)
  else pure ()

def signal (set : WaitSet) : Task Unit := do
  signalSource set .backend
  signalSource set .l2Rx
  atom (.countDiagnostic .wakerNotifications)
  let _ ← atom .wake

def takeSource (sources : WaitSet) (source : Source) (ready : WaitSet) : Task WaitSet := do
  if sources.contains source then
    let taken ← atom (.takeOne source)
    pure (if taken then ready.insert source else ready)
  else pure ready

def takeReady (sources : WaitSet) : Task WaitSet := do
  let ready ← takeSource sources .backend .empty
  takeSource sources .l2Rx ready

def addRx (sources ready : WaitSet) : Task WaitSet := do
  if sources.l2Rx then
    let received ← atom .rxReady
    pure (if received then ready.insert .l2Rx else ready)
  else pure ready

/-- Install the timer unless it is the one that is running. -/
def armTimer (deadlineUs : UInt64) : Task Unit := do
  let running ← atom .timerDeadline
  if running ≠ some deadlineUs then atom (.installTimer deadlineUs) else pure ()

def pollTimer : Option UInt64 → Task Bool
  | none => do
    atom .clearTimer
    pure false
  | some deadlineUs => do
    let now ← atom .monotonicUs
    if deadlineUs ≤ now then
      atom .clearTimer
      pure true
    else
      armTimer deadlineUs
      atom .pollTimerFuture

def addTimer (sources : WaitSet) (deadlineUs : Option UInt64) (ready : WaitSet) : Task WaitSet := do
  if sources.timer then
    let fired ← pollTimer deadlineUs
    pure (if fired then { ready with timer := true } else ready)
  else
    atom .clearTimer
    pure ready

def reportReady (ready : WaitSet) : Task (Option WaitSet) := do
  if ready.isEmpty then
    atom (.countDiagnostic .pendingPolls)
    pure none
  else
    atom (.countDiagnostic .readyPolls)
    if ready.timer then atom (.countDiagnostic .timerReadyPolls) else pure ()
    pure (some ready)

/-- The first look: what is ready before the runner thinks of sleeping. -/
def lookFirst (sources : WaitSet) (deadlineUs : Option UInt64) : Task WaitSet := do
  let taken ← takeReady sources
  let received ← addRx sources taken
  addTimer sources deadlineUs received

def lookAgain (sources ready : WaitSet) : Task WaitSet :=
  if ready.isEmpty then takeReady sources else pure ready

/-- `none` is a poll that is pending. -/
def pollReady (waker : Waker) (sources : WaitSet) (deadlineUs : Option UInt64) :
    Task (Option WaitSet) := do
  atom (.countDiagnostic .pollCalls)
  atom (.register waker)
  let first ← lookFirst sources deadlineUs
  let ready ← lookAgain sources first
  reportReady ready

def pollTask (waker : Waker) (sources : WaitSet) (deadlineUs : Option UInt64) : Task Unit := do
  atom (.enterPoll waker sources deadlineUs)
  let result ← pollReady waker sources deadlineUs
  atom (.leavePoll result)

def waitTasks (thread : Nat) (task : Task Unit) : Prop :=
  if thread = 0 then ∃ waker sources deadlineUs, task = pollTask waker sources deadlineUs
  else ∃ set, task = signal set

def waitSystem : System (Pool ops World) (PoolLabel ops) := poolSystem Atom waitTasks

inductive Phase where
  | idle
  | polling (sources : WaitSet) (taken : Bool)
  | signalling (owes : Bool)
  deriving DecidableEq

open Phase

/-- In a poll nothing is signalled, only subscribed sources are taken, the backend once at most, and
the result tells whether it was. -/
def allowedInPoll (sources : WaitSet) (taken : Bool) : Op → Prop
  | .takeOne source => sources.contains source = true ∧ (source = .backend → taken = false)
  | .leavePoll result => taken = result.any (·.backend)
  | .countPending _ | .wake | .enterPoll _ _ _ => False
  | _ => True

def Op.signals : Op → Prop
  | .countDiagnostic _ | .countPending _ | .wake => True
  | _ => False

def Op.enters : Op → Prop
  | .enterPoll _ _ _ => True
  | _ => False

def Phase.allows : Phase → Op → Prop
  | .idle, o => o.enters
  | .polling sources taken, o => allowedInPoll sources taken o
  | .signalling _, o => o.signals

def Phase.after : Phase → Exchange ops → Phase
  | .idle, ⟨.enterPoll _ sources _, _⟩ => .polling sources false
  | .polling sources _, ⟨.takeOne .backend, true⟩ => .polling sources true
  | .polling _ _, ⟨.leavePoll _, _⟩ => .idle
  | .signalling _, ⟨.countPending _, _⟩ => .signalling true
  | .signalling _, ⟨.wake, _⟩ => .signalling false
  | phase, _ => phase

def watch : Protocol ops Phase := ⟨allows, after⟩

def Rests (thread : Nat) (phase : Phase) : Prop :=
  if thread = 0 then phase = .idle else phase = .signalling false

variable {A : Type} {sources ready : WaitSet} {phase : Phase}

theorem signalSource_watched (set : WaitSet) (source : Source) (owes : Bool) :
    (signalSource set source).Obeys watch (fun _ last => ∃ owes, last = .signalling owes)
      (.signalling owes) := by
  unfold signalSource
  split
  · exact ⟨trivial, fun _ => ⟨trivial, fun _ => ⟨true, rfl⟩⟩⟩
  · exact ⟨owes, rfl⟩

theorem signal_watched (set : WaitSet) :
    (signal set).Obeys watch (fun _ last => last = .signalling false) (.signalling false) := by
  refine (signalSource_watched set .backend false).next ?_
  rintro _ _ ⟨owes, rfl⟩
  refine (signalSource_watched set .l2Rx owes).next ?_
  rintro _ _ ⟨owes, rfl⟩
  exact ⟨trivial, fun _ => ⟨trivial, fun _ => rfl⟩⟩

/-- The set that is gathered tells whether the backend was taken. -/
def Gathers (sources : WaitSet) (set : WaitSet) (phase : Phase) : Prop :=
  phase = .polling sources set.backend

theorem backend_of_isEmpty (empty : ready.isEmpty = true) : ready.backend = false := by
  simp only [WaitSet.isEmpty, Bool.and_eq_true, Bool.not_eq_true'] at empty
  exact empty.1.1

theorem takeSource_watched (source : Source) (first : source = .backend → ready.backend = false) :
    (takeSource sources source ready).Obeys watch (Gathers sources)
      (.polling sources ready.backend) := by
  unfold takeSource
  split
  next subscribed =>
    refine obeys_atom.mpr ⟨⟨subscribed, first⟩, ?_⟩
    intro taken
    cases taken <;> cases source <;> rfl
  · rfl

theorem takeReady_watched :
    (takeReady sources).Obeys watch (Gathers sources) (.polling sources false) := by
  have first : (takeSource sources .backend .empty).Obeys watch (Gathers sources)
      (.polling sources false) := takeSource_watched .backend fun _ => rfl
  exact first.on fun _ => takeSource_watched .l2Rx nofun

theorem addRx_watched :
    (addRx sources ready).Obeys watch (Gathers sources) (.polling sources ready.backend) := by
  unfold addRx
  split
  · refine obeys_atom.mpr ⟨trivial, ?_⟩
    intro received
    cases received <;> rfl
  · rfl

theorem armTimer_watched (deadlineUs : UInt64) (taken : Bool) :
    (armTimer deadlineUs).Obeys watch (fun _ last => last = .polling sources taken)
      (.polling sources taken) := by
  refine obeys_atom.mpr ⟨trivial, fun running => ?_⟩
  split
  · exact ⟨trivial, fun _ => rfl⟩
  · rfl

variable (deadlineUs : Option UInt64)

theorem pollTimer_watched (taken : Bool) :
    (pollTimer deadlineUs).Obeys watch (fun _ last => last = .polling sources taken)
      (.polling sources taken) := by
  cases deadlineUs with
  | none => exact ⟨trivial, fun _ => rfl⟩
  | some deadlineUs =>
    refine obeys_atom.mpr ⟨trivial, fun now => ?_⟩
    split
    · exact ⟨trivial, fun _ => rfl⟩
    · exact (armTimer_watched deadlineUs taken).on fun _ => ⟨trivial, fun _ => rfl⟩

theorem addTimer_watched :
    (addTimer sources deadlineUs ready).Obeys watch (Gathers sources)
      (.polling sources ready.backend) := by
  unfold addTimer
  split
  · refine (pollTimer_watched deadlineUs ready.backend).on fun fired => ?_
    cases fired <;> rfl
  · exact ⟨trivial, fun _ => rfl⟩

theorem lookFirst_watched :
    (lookFirst sources deadlineUs).Obeys watch (Gathers sources) (.polling sources false) := by
  refine takeReady_watched.on fun taken => ?_
  exact addRx_watched.on fun _ => addTimer_watched deadlineUs

theorem lookAgain_watched :
    (lookAgain sources ready).Obeys watch (Gathers sources) (.polling sources ready.backend) := by
  unfold lookAgain
  split
  next empty =>
    rw [backend_of_isEmpty empty]
    exact takeReady_watched
  · rfl

theorem reportReady_watched : (reportReady ready).Obeys watch
      (fun result last => last = .polling sources (result.any (·.backend)))
      (.polling sources ready.backend) := by
  unfold reportReady
  split
  next empty =>
    rw [backend_of_isEmpty empty]
    exact ⟨trivial, fun _ => rfl⟩
  · refine obeys_atom.mpr ⟨trivial, fun _ => ?_⟩
    split
    · exact ⟨trivial, fun _ => rfl⟩
    · rfl

theorem pollTask_watched (waker : Waker) (sources : WaitSet) (deadlineUs : Option UInt64) :
    (pollTask waker sources deadlineUs).Obeys watch (fun _ last => last = .idle) .idle := by
  refine obeys_atom.mpr ⟨trivial, fun _ => Program.Obeys.bind ?_⟩
  refine obeys_atom.mpr ⟨trivial, fun _ => obeys_atom.mpr ⟨trivial, fun _ => ?_⟩⟩
  refine (lookFirst_watched deadlineUs).on fun first => ?_
  refine lookAgain_watched.on fun ready => ?_
  refine reportReady_watched.mono ?_
  rintro result _ rfl
  exact ⟨rfl, fun _ => rfl⟩

theorem waitTasks_watched (thread : Nat) (task : Task Unit) (phase : Phase)
    (given : waitTasks thread task) (resting : Rests thread phase) :
    task.Obeys watch (fun _ => Rests thread) phase := by
  unfold waitTasks at given
  unfold Rests at resting ⊢
  split at given
  next runner =>
    rw [if_pos runner] at resting
    obtain ⟨waker, sources, deadlineUs, rfl⟩ := given
    subst resting
    simpa only [if_pos runner] using pollTask_watched waker sources deadlineUs
  next other =>
    rw [if_neg other] at resting
    obtain ⟨set, rfl⟩ := given
    subst resting
    simpa only [if_neg other] using signal_watched set

variable {w w' : World} {o : Op} {reply : o.Reply} {labels : List (PoolLabel ops)}
  {pool after : Pool ops World} {crew : Crew World Phase} {label : PoolLabel ops}

def recordsBackend : PoolLabel ops → Bool
  | .act _ ⟨.countPending .backend, _⟩ => true
  | _ => false

def returnsBackend : PoolLabel ops → Bool
  | .act _ ⟨.leavePoll (some set), _⟩ => set.backend
  | _ => false

def Phase.held : Phase → Nat
  | .polling _ true => 1
  | _ => 0

def Phase.isSignal : Phase → Bool
  | .signalling _ => true
  | _ => false

theorem after_isSignal (phase : Phase) (exchange : Exchange ops) :
    (watch.after phase exchange).isSignal = phase.isSignal := by
  unfold watch
  dsimp only
  unfold after
  split <;> rfl

theorem Atom.pending (taken : Atom w o reply w') : (∃ source, o = .countPending source ∧
        w'.pending = update w.pending source (saturatingIncrement (w.pending source))) ∨
      (∃ source, (⟨o, reply⟩ : Exchange ops) = ⟨.takeOne source, true⟩ ∧ w.pending source ≠ 0 ∧
        w'.pending = update w.pending source (w.pending source - 1)) ∨ w'.pending = w.pending := by
  cases taken with
  | countPending source => exact .inl ⟨source, rfl, rfl⟩
  | took source some => exact .inr (.inl ⟨source, rfl, some, rfl⟩)
  | _ => exact .inr (.inr rfl)

def Posted (crew : Crew World Phase) : Prop :=
  ∀ thread, (crew.phases thread).isSignal = decide (thread ≠ 0)

variable {thread : Nat}

theorem Posted.signalling (posted : Posted crew) (other : thread ≠ 0) :
    ∃ owes, crew.phases thread = .signalling owes := by
  have signals := posted thread
  cases phase : crew.phases thread with
  | signalling owes => exact ⟨owes, rfl⟩
  | idle | polling => simp [phase, isSignal, other] at signals

theorem Posted.runner (posted : Posted crew) (owes : Bool) : crew.phases 0 ≠ .signalling owes := by
  intro phase
  have signals := posted 0
  simp [phase, isSignal] at signals

theorem Posted.step {next : Crew World Phase} (posted : Posted crew)
    (step : CrewStep Atom watch crew label next) : Posted next := by
  cases step with
  | start => exact posted
  | @act thread =>
    intro j
    by_cases here : j = thread
    · subst here
      simp only [update_self, after_isSignal]
      exact posted j
    · simp only [update_of_ne here]
      exact posted j

def Balanced (labels : List (PoolLabel ops)) (crew : Crew World Phase) : Prop :=
  labels.countP recordsBackend = labels.countP returnsBackend +
    (crew.world.pending .backend).toNat + (crew.phases 0).held

theorem Balanced.signal (balanced : Balanced labels crew) (posted : Posted crew)
    (other : thread ≠ 0) (allowed : watch.allows (crew.phases thread) o)
    (taken : Atom crew.world o reply w') (below : (crew.world.pending .backend).toNat < 2 ^ 32 - 1) :
    Balanced (labels ++ [.act thread ⟨o, reply⟩]) ⟨w', update crew.phases thread
        (watch.after (crew.phases thread) ⟨o, reply⟩)⟩ := by
  obtain ⟨owes, signalling⟩ := posted.signalling other
  rw [signalling] at allowed
  unfold Balanced at balanced ⊢
  simp only [List.countP_append, List.countP_singleton, update_of_ne other.symm]
  cases taken with
  | countPending source =>
    cases source with
    | backend =>
      have counted := toNat_saturatingIncrement below
      simp only [World.setPending, update_self, counted, recordsBackend,
        returnsBackend, if_true]
      simp only [Bool.false_eq_true, if_false]
      omega
    | l2Rx => simpa [World.setPending, recordsBackend, returnsBackend] using balanced
  | countDiagnostic | wake => simpa [recordsBackend, returnsBackend] using balanced
  | _ => exact allowed.elim

theorem Balanced.poll (balanced : Balanced labels crew) (posted : Posted crew)
    (allowed : watch.allows (crew.phases 0) o) (taken : Atom crew.world o reply w') :
    Balanced (labels ++ [.act 0 ⟨o, reply⟩])
      ⟨w', update crew.phases 0 (watch.after (crew.phases 0) ⟨o, reply⟩)⟩ := by
  unfold Balanced at balanced ⊢
  simp only [List.countP_append, List.countP_singleton, update_self]
  cases phase : crew.phases 0 with
  | idle =>
    rw [phase] at balanced allowed
    cases taken with
    | enterPoll =>
      simpa [recordsBackend, returnsBackend, watch, after, held] using balanced
    | _ => exact allowed.elim
  | polling sources held =>
    rw [phase] at balanced allowed
    cases taken with
    | took source some =>
      obtain ⟨_, once⟩ := allowed
      cases source with
      | backend =>
        obtain rfl := once rfl
        have present : (crew.world.pending .backend).toNat ≠ 0 :=
          fun zero => some (UInt32.toNat_inj.mp zero)
        have fewer := toNat_sub_one some
        simp only [held] at balanced
        simp only [recordsBackend, returnsBackend, Bool.false_eq_true, if_false,
          World.setPending, update_self, fewer, watch, after, held]
        omega
      | l2Rx =>
        simpa [recordsBackend, returnsBackend, watch, Phase.after, Phase.held,
          World.setPending] using balanced
    | leavePoll result =>
      have told : held = result.any (·.backend) := allowed
      cases result with
      | none =>
        subst told
        simpa [recordsBackend, returnsBackend, watch, after, held] using balanced
      | some set =>
        obtain ⟨backend, l2Rx, timer⟩ := set
        obtain rfl : held = backend := told
        simp only [recordsBackend, returnsBackend, Bool.false_eq_true, if_false, watch,
          after]
        cases held with
        | false => simpa [held] using balanced
        | true =>
          simp only [held, if_true] at balanced ⊢
          omega
    | countPending | wake | enterPoll => exact allowed.elim
    | _ => simpa [recordsBackend, returnsBackend, watch, Phase.after, Phase.held] using balanced
  | signalling owes => exact absurd phase (posted.runner owes)

/-! ## Every run -/

def crewAtRest : Crew World Phase := ⟨.new, fun thread => if thread = 0 then .idle else .signalling false⟩

theorem crewAtRest_manned : Manned watch Rests (.new .new) crewAtRest := by
  refine manned_new fun thread => ?_
  unfold Rests
  split <;> simp

theorem crewAtRest_posted : Posted crewAtRest := by
  intro thread
  by_cases runner : thread = 0 <;> simp [crewAtRest, runner, isSignal]

section

variable (run : Run waitSystem (.new .new) labels pool)
include run

/-- What is pending stays below the largest count, in every state of the run. -/
def Below (labels : List (PoolLabel ops)) : Prop :=
  ∀ first second middle, labels = first ++ second → Run waitSystem (.new .new) first middle →
    ∀ source, (middle.world.pending source).toNat < 2 ^ 32 - 1

theorem balanced_of_run (below : Below labels) :
    ∃ crew, Manned watch Rests pool crew ∧ Posted crew ∧ Balanced labels crew := by
  induction run with
  | start => exact ⟨crewAtRest, crewAtRest_manned, crewAtRest_posted, rfl⟩
  | @next earlier before after label run step ih =>
    have belowEarlier : Below earlier := fun first second middle split =>
      below first (second ++ [label]) middle (by rw [split, List.append_assoc])
    obtain ⟨crew, manned, posted, balanced⟩ := ih belowEarlier
    obtain ⟨next, taken, now⟩ := manned.step waitTasks_watched step
    refine ⟨next, now, posted.step taken, ?_⟩
    cases taken with
    | start => simpa [Balanced, recordsBackend, returnsBackend] using balanced
    | @act thread o reply world allowed acted =>
      by_cases runner : thread = 0
      · subst runner
        exact balanced.poll posted allowed acted
      · refine balanced.signal posted runner allowed acted ?_
        rw [manned.world]
        exact below earlier [_] before rfl run .backend

end

end HisiRf.WaitSignals
