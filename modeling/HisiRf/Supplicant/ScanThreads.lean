import HisiRf.Supplicant.ScanFeed
import HisiRf.Supplicant.SlotFifo

/-! What the threads of a scan have in hand.

Every thread keeps to the rounds of the slots that it uses. Beside them it is in a
callback of some scan, or has taken a slot, or has loaded the entry of one.
-/

namespace HisiRf.ScanFeed

open Interaction Program
open EventQueues (IeLimit ScanMeta)
open SlotQueue (Clean)

variable {limit : IeLimit} {A B : Type}

abbrev Phase (limit : IeLimit) := SlotQueue.Phase (events limit)

def slots : Protocol (ops limit) (Phase limit) := SlotQueue.watch.left

/-- A routine that leaves a thread where it was with respect to the slots. -/
def Still (phase : Phase limit) (p : Task limit A) : Prop :=
  p.Obeys slots (fun _ later => later = phase) phase

variable {k : A → Task limit B} {p : Task limit A}

theorem Still.bind {phase : Phase limit} (first : Still phase p)
    (rest : ∀ a, Still phase (k a)) : Still phase (p.bind k) := first.on rest

theorem still_perform (phase : Phase limit) (o : Op limit) : Still phase (perform o) :=
  ⟨trivial, fun _ => rfl⟩

theorem still_queue {p : SlotQueue.Task (events limit) A} (clean : Clean p) :
    Still .idle (queue p) := by
  exact Obeys.left clean

theorem still_enqueue (entry : (events limit).Entry) : Still .idle (enqueue entry) :=
  (still_queue (SlotQueue.enqueue_clean entry)).bind fun _ => rfl

/-- What the runner does beside the slots that it takes. -/
def aside : (ops limit).Op → Prop
  | .inl o => o.looks ∨ o = .beginTransaction
  | .inr (.enterCallback _) | .inr .leaveCallback | .inr (.feed _) | .inr .swapActive => False
  | .inr _ => True

theorem startScan_only (acceptable : Bool) : (startScan acceptable : Task limit Int32).Only
    fun o => aside o ∧ ∀ q, o = .inl q → q = .beginTransaction := by
  unfold startScan
  split
  · trivial
  refine ⟨⟨trivial, nofun⟩, fun captured => ?_⟩
  change (if captured = false then pure (-1) else _ : Task limit Int32).Only _
  split
  · trivial
  · refine ⟨⟨.inr rfl, fun _ same => (Sum.inl.inj same).symm⟩, fun _ => ?_⟩
    refine ⟨⟨trivial, nofun⟩, fun status => ?_⟩
    change (if status ≠ 0 then _ else pure status : Task limit Int32).Only _
    split
    · exact ⟨⟨trivial, nofun⟩, fun _ => trivial⟩
    · trivial

theorem starts_aside (acceptable : Bool) : (startScan acceptable : Task limit Int32).Only aside :=
  (startScan_only acceptable).mono fun _ => And.left

theorem begin_only : (beginScanCacheCapture : Task limit Bool).Only aside := by
  have captures : (captureScan : Task limit Bool).Only aside := by
    refine ⟨trivial, fun captured => ?_⟩
    change (if captured = false then pure false else _ : Task limit Bool).Only aside
    split
    · trivial
    · refine ⟨trivial, fun status => ?_⟩
      change (if status ≠ 0 then _ else _ : Task limit Bool).Only aside
      split
      · exact ⟨trivial, fun _ => trivial⟩
      · exact ⟨.inr rfl, fun _ => trivial⟩
  refine ⟨trivial, fun returned => ?_⟩
  change (if returned = false then pure false else _ : Task limit Bool).Only aside
  split
  · trivial
  · refine ⟨trivial, fun ready => ?_⟩
    change (if ready = false then pure false else captureScan : Task limit Bool).Only aside
    split
    · trivial
    · exact captures

theorem hasPending_only (slots : List (Fin (events limit).depth)) :
    (queue (hasPending slots)).Only aside := by
  refine Only.left ?_
  induction slots with
  | nil => trivial
  | cons slot rest ih =>
    refine ⟨.inl trivial, fun state => ?_⟩
    change (if state ≠ .free then pure true else hasPending rest :
      SlotQueue.Task (events limit) Bool).Only _
    split
    · trivial
    · exact ih

theorem still_aside (only : p.Only aside) : Still .idle p := by
  refine .still only ?_ ?_
  · rintro (o | _) asks
    · rcases asks with looks | rfl
      · cases o with
        | loadState | loadSequence => trivial
        | _ => exact looks.elim
      · trivial
    · trivial
  · rintro (o | _) reply asks
    · rcases asks with looks | rfl
      · cases o with
        | loadState | loadSequence => rfl
        | _ => exact looks.elim
      · rfl
    · rfl

theorem discardPending_clean (rounds : Nat) : Clean
    (discardPending rounds : SlotQueue.Task (events limit) Unit) := by
  induction rounds with
  | zero => rfl
  | succ rounds ih =>
    refine SlotQueue.takeOldest_watched.on fun taken => ?_
    cases taken with
    | none => rfl
    | some => exact obeys_atom.mpr ⟨.inr (.inl rfl), fun _ => ih⟩

variable {o : Op limit}

theorem still_startScan (slot : Fin (events limit).depth) (acceptable : Bool) :
    Still (.reading slot) (startScan acceptable) := by
  refine .still (startScan_only acceptable) ?_ ?_
  · rintro (q | _) asks
    · exact .inr (.inr (asks.2 q rfl))
    · trivial
  · rintro (q | _) reply asks
    · cases asks.2 q rfl
      rfl
    · rfl

theorem still_feedTaken (hooks : List Bool) (slot : Fin (events limit).depth) :
    (feedTaken hooks (some slot)).Obeys slots (fun _ later => later = .idle) (.reading slot) := by
  have starts : Still (.reading slot) (runHooks hooks) := by
    induction hooks with
    | nil => rfl
    | cons acceptable rest ih => exact (still_startScan slot acceptable).bind fun _ => ih
  refine obeys_atom.mpr ⟨.inl rfl, fun content => obeys_atom.mpr ⟨trivial, fun status => ?_⟩⟩
  exact starts.on fun _ => ⟨.inr (.inl rfl), fun _ => rfl⟩

theorem still_poll (turns : List (List Bool)) : Still .idle (poll turns : Task limit Unit) := by
  induction turns with
  | nil => rfl
  | cons hooks rest ih =>
    have fed (taken : Option (Fin (events limit).depth)) :
        (feedTaken hooks taken).Obeys slots (fun _ later => later = .idle)
          (SlotQueue.afterTake SlotQueue.watch .idle taken) := by
      cases taken with
      | none => rfl
      | some slot => exact still_feedTaken hooks slot
    have takes : (queue SlotQueue.takeOldest).Obeys slots
        (fun taken phase => phase = SlotQueue.afterTake SlotQueue.watch .idle taken) .idle :=
      Obeys.left (SlotQueue.takeOldest_watched (L := events limit))
    refine takes.on fun taken => ?_
    refine (fed taken).on fun more => ?_
    cases more with
    | false => rfl
    | true => exact ih

theorem still_drain (polls : List (List (List Bool))) : Still .idle (drain polls : Task limit Bool) := by
  induction polls with
  | nil => rfl
  | cons turns rest ih =>
    refine (still_aside (hasPending_only _)).bind fun pending => ?_
    split
    · rfl
    · refine (still_perform .idle .requireDisconnectReturned).bind fun returned => ?_
      split
      · rfl
      · exact (still_poll turns).bind fun _ => ih

variable {body : Task limit Bool}

theorem still_callback (scan : Nat) (still : Still .idle body) : Still .idle (callback scan body) :=
  (still_perform .idle (.enterCallback scan)).bind fun _ =>
    still.bind fun _ => still_perform .idle .leaveCallback

theorem still_job (job : Job) : Still .idle (job.task : Task limit Unit) := by
  cases job with
  | begin => exact (still_aside begin_only).bind fun _ => rfl
  | finish polls =>
    refine Still.bind ((still_perform .idle .loadActive).bind fun active => ?_) fun _ => rfl
    split
    · rfl
    · exact still_drain polls
  | hook acceptable => exact (still_aside (starts_aside acceptable)).bind fun _ => rfl
  | poll turns => exact still_poll turns
  | claimTimeout => exact (still_perform .idle .claimTimeout).bind fun _ => rfl
  | cancel rounds =>
    exact (still_perform .idle .storeInactive).bind fun _ =>
      still_queue (discardPending_clean rounds)
  | result scan =>
    refine still_callback scan ((still_perform .idle .loadPort).bind fun ready => ?_)
    split
    · rfl
    · refine (still_perform .idle .loadActive).bind fun active => ?_
      split
      · rfl
      · exact still_enqueue _
  | done scan =>
    refine still_callback scan ((still_perform .idle .loadPort).bind fun ready => ?_)
    split
    · rfl
    · refine (still_perform .idle .swapActive).bind fun active => ?_
      split
      · rfl
      · exact still_enqueue _

/-- What is done beside the queue leaves it alone, and only a capture starts a scan. -/
theorem effect_cases {w w' : World limit} {reply : o.Reply} (taken : o.effect w reply w') :
    w'.queue = w.queue ∧
      (w'.begun = w.begun ∨ (⟨o, reply⟩ : Exchange ⟨Op limit, Op.Reply⟩) = ⟨.capture, true⟩) := by
  cases o with
  | capture =>
    obtain ⟨said, rfl⟩ := taken
    cases free : w.active with
    | true => simp
    | false =>
      rw [free] at said
      subst said
      exact ⟨rfl, .inr rfl⟩
  | loadActive | swapActive | claimTimeout =>
    obtain ⟨_, rfl⟩ := taken
    exact ⟨rfl, .inl rfl⟩
  | enterCallback =>
    obtain ⟨_, _, rfl⟩ := taken
    exact ⟨rfl, .inl rfl⟩
  | requireDisconnectReturned | loadPort | beginScanCapture | scanIoctl | feed | leaveCallback
  | storeInactive =>
    obtain rfl := taken
    exact ⟨rfl, .inl rfl⟩

def place (labels : List (PoolLabel (ops limit))) : Nat → Phase limit :=
  phaseOf slots (fun _ => .idle) labels

variable {labels : List (PoolLabel (ops limit))} {pool : Pool (ops limit) (World limit)}

section

variable (run : Run (scanSystem limit) (.new (.new limit)) labels pool)
include run

theorem crew_of_slots :
    Run (crewSystem Atom slots) ⟨.new limit, fun _ => .idle⟩ labels ⟨pool.world, place labels⟩ ∧
      ∀ i, (pool.threads i).Obeys slots (fun _ phase => phase = .idle) (place labels i) := by
  refine crew_of_run ?_ run
  rintro i _ ⟨job, rfl, _⟩
  exact still_job job

theorem sound_of_run :
    SlotQueue.Sound (labels.filterMap PoolLabel.left) pool.world.queue (place labels) := by
  refine SlotQueue.sound_of_crew (crew_left World.queue ?_ ?_ (crew_of_slots run).1)
  · rintro w o reply _ ⟨queue, taken, rfl⟩
    exact taken
  · intro w o reply w' taken
    exact (effect_cases taken).1

end

inductive Mark (limit : IeLimit) where
  | idle
  | callback (scan : Nat)
  | taken (slot : Fin (events limit).depth)
  | loaded (entry : (events limit).Entry)

/-- Only a callback queues entries, and marks them with its scan; what is fed was just loaded; a
scan is not started between. -/
def Mark.allows : Mark limit → (ops limit).Op → Prop
  | .idle, .inl (.claim _ _) | .idle, .inr (.feed _) | .idle, .inr .swapActive => False
  | .idle, _ => True
  | .callback scan, .inl (.claim _ entry) => entry.1 = scan
  | .callback _, .inr (.feed _) | .callback _, .inr .capture => False
  | .callback _, _ => True
  | .taken slot, .inl (.load other) | .taken slot, .inl (.release other) => other = slot
  | .taken _, _ => False
  | .loaded entry, .inr (.feed other) => other = entry
  | .loaded _, _ => False

def Mark.after : Mark limit → Exchange (ops limit) → Mark limit
  | .idle, ⟨.inl (.seize slot), true⟩ => .taken slot
  | .idle, ⟨.inr (.enterCallback scan), _⟩ => .callback scan
  | .callback _, ⟨.inr .leaveCallback, _⟩ => .idle
  | .taken _, ⟨.inl (.load _), content⟩ => .loaded ((events limit).view content)
  | .taken _, ⟨.inl (.release _), _⟩ => .idle
  | .loaded _, ⟨.inr (.feed _), _⟩ => .idle
  | mark, _ => mark

def marks : Protocol (ops limit) (Mark limit) := ⟨Mark.allows, Mark.after⟩

/-- A routine that leaves a thread with what it has in hand. -/
def Keeps (mark : Mark limit) (p : Task limit A) : Prop :=
  p.Obeys marks (fun _ later => later = mark) mark

variable {scan : Nat}

theorem Keeps.bind {mark : Mark limit} (first : Keeps mark p) (rest : ∀ a, Keeps mark (k a)) :
    Keeps mark (p.bind k) := first.on rest

theorem keeps_aside (only : p.Only aside) : Keeps .idle p := by
  refine .still only ?_ ?_
  · intro o asks
    cases o with
    | inl o =>
      rcases asks with looks | rfl
      · cases o with
        | claim => exact looks.elim
        | _ => trivial
      · trivial
    | inr o =>
      cases o with
      | feed | swapActive => exact asks.elim
      | _ => trivial
  intro o reply asks
  cases o with
  | inl o =>
    rcases asks with looks | rfl
    · cases o with
      | seize => exact looks.elim
      | _ => rfl
    · rfl
  | inr o =>
    cases o with
    | enterCallback => exact asks.elim
    | _ => rfl

theorem takeOldest_marked : (SlotQueue.takeOldest : SlotQueue.Task (events limit) _).Obeys marks.onLeft
    (fun taken mark => mark = SlotQueue.afterTake marks.onLeft .idle taken) .idle := by
  refine SlotQueue.takeOldest_obeys ?_ ?_ (fun _ => trivial) (fun _ => rfl)
  · intro o looks
    cases o with
    | claim => exact looks.elim
    | _ => trivial
  · intro o reply looks
    cases o with
    | seize => exact looks.elim
    | _ => rfl

theorem keeps_discard (rounds : Nat) : Keeps .idle (queue (discardPending rounds) : Task limit Unit) := by
  refine Obeys.left ?_
  induction rounds with
  | zero => rfl
  | succ rounds ih =>
    refine takeOldest_marked.on fun taken => ?_
    cases taken with
    | none => rfl
    | some => exact obeys_atom.mpr ⟨rfl, fun _ => ih⟩

theorem keeps_poll (turns : List (List Bool)) : Keeps .idle (poll turns : Task limit Unit) := by
  have hooked (hooks : List Bool) : Keeps .idle (runHooks hooks : Task limit Unit) := by
    induction hooks with
    | nil => rfl
    | cons acceptable rest ih => exact (keeps_aside (starts_aside acceptable)).bind fun _ => ih
  have fed (hooks : List Bool) (taken : Option (Fin (events limit).depth)) :
      (feedTaken hooks taken).Obeys marks (fun _ later => later = .idle)
        (SlotQueue.afterTake marks.onLeft .idle taken) := by
    cases taken with
    | none => rfl
    | some =>
      refine obeys_atom.mpr ⟨rfl, fun content => obeys_atom.mpr ⟨rfl, fun status => ?_⟩⟩
      exact (hooked hooks).bind fun _ => ⟨trivial, fun _ => rfl⟩
  induction turns with
  | nil => rfl
  | cons hooks rest ih =>
    refine (Obeys.left takeOldest_marked).on fun taken => ?_
    refine (fed hooks taken).on fun more => ?_
    cases more with
    | false => rfl
    | true => exact ih

theorem keeps_drain (polls : List (List (List Bool))) : Keeps .idle (drain polls : Task limit Bool) := by
  induction polls with
  | nil => rfl
  | cons turns rest ih =>
    refine (keeps_aside (hasPending_only _)).bind fun pending => ?_
    split
    · rfl
    · refine obeys_atom.mpr ⟨trivial, fun returned => ?_⟩
      split
      · rfl
      · exact (keeps_poll turns).bind fun _ => ih

theorem keeps_enqueue {entry : (events limit).Entry} (own : entry.1 = scan) :
    Keeps (.callback scan) (enqueue entry) := by
  have only : (queue (SlotQueue.enqueue entry)).Only
      fun o => ∃ inner : SlotQueue.Op (events limit), o = Sum.inl inner ∧ inner.produces entry :=
    Only.left ((SlotQueue.enqueue_only entry).mono fun o asks => ⟨o, rfl, asks⟩)
  refine Keeps.bind (.still only ?_ ?_) fun _ => rfl
  · rintro _ ⟨o, rfl, asks⟩
    cases o with
    | claim slot other =>
      obtain rfl : other = entry := asks
      exact own
    | _ => trivial
  · rintro _ reply ⟨o, rfl, asks⟩
    cases o <;> rfl

theorem keeps_callback (keeps : Keeps (.callback scan) body) :
    Keeps .idle (callback scan body) := by
  refine obeys_atom.mpr ⟨trivial, fun _ => ?_⟩
  exact keeps.on fun _ => ⟨trivial, fun _ => rfl⟩

theorem keeps_job (job : Job) : Keeps .idle (job.task : Task limit Unit) := by
  cases job with
  | begin => exact (keeps_aside begin_only).bind fun _ => rfl
  | finish polls =>
    refine Keeps.bind (obeys_atom.mpr ⟨trivial, fun active => ?_⟩) fun _ => rfl
    split
    · rfl
    · exact keeps_drain polls
  | hook acceptable => exact (keeps_aside (starts_aside acceptable)).bind fun _ => rfl
  | poll turns => exact keeps_poll turns
  | claimTimeout => exact ⟨trivial, fun _ => rfl⟩
  | cancel rounds => exact obeys_atom.mpr ⟨trivial, fun _ => keeps_discard rounds⟩
  | result | done =>
    refine keeps_callback (obeys_atom.mpr ⟨trivial, fun ready => ?_⟩)
    split
    · rfl
    · refine obeys_atom.mpr ⟨trivial, fun active => ?_⟩
      split
      · rfl
      · exact keeps_enqueue rfl

def mark (labels : List (PoolLabel (ops limit))) : Nat → Mark limit :=
  phaseOf marks (fun _ => .idle) labels

theorem crew_of_marks (run : Run (scanSystem limit) (.new (.new limit)) labels pool) :
    Run (crewSystem Atom marks) ⟨.new limit, fun _ => .idle⟩ labels ⟨pool.world, mark labels⟩ ∧
      ∀ i, (pool.threads i).Obeys marks (fun _ phase => phase = .idle) (mark labels i) := by
  refine crew_of_run ?_ run
  rintro i _ ⟨job, rfl, _⟩
  exact keeps_job job

end HisiRf.ScanFeed
