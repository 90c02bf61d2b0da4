import HisiRf.Interaction.Transition
import HisiRf.Machine.Word

/-! The one-shot transaction that stops native reception.

A requesting task and the device worker drive it in whatever order they run, and
the clock may be missing, run backwards or be late. Without a fault it passes
through its phases once and in order; this is said by a small machine that knows
neither faults nor diagnostics, and every transaction without a fault is a run
of that machine under the same calls.
-/

namespace HisiRf.RxStop

open Interaction
open Machine (checkedSub)

def contract : Int32 := -0x1020
def timeout : Int32 := -0x1021
def macEnabled : Int32 := -0x1022
def descriptorsRemain : Int32 := -0x1023
def deadlineMs : UInt64 := 1000

inductive Checkpoint where
  | entered | disabled | destroyed | initialized | cleaned | finished | posted | observed

def Checkpoint.index : Checkpoint → Fin 8
  | .entered => 0
  | .disabled => 1
  | .destroyed => 2
  | .initialized => 3
  | .cleaned => 4
  | .finished => 5
  | .posted => 6
  | .observed => 7

inductive Phase where | idle | requested | executing | returned deriving DecidableEq

/-- Milliseconds since the request, or the largest word while nothing was observed. -/
abbrev RxStopTimings := Vector UInt32 8

def unobserved : UInt32 := 0xffffffff

structure RxStopDiagnostics where
  installed : Bool
  requested : Bool
  entered : Bool
  returned : Bool
  postReturned : Bool
  macBefore : UInt8
  macAfter : UInt8
  descriptorsEmpty : UInt8
  nativeStatus : Int32
  fault : Int32
  timings : RxStopTimings

structure Transaction where
  phase : Phase
  diagnostic : RxStopDiagnostics
  startedMs : UInt64

open Transaction List

namespace Transaction

def new : Transaction :=
  ⟨.idle, ⟨false, false, false, false, false, 0xff, 0xff, 0xff, 0, 0, .replicate 8 unobserved⟩, 0⟩

abbrev fault (t : Transaction) : Int32 := t.diagnostic.fault

def install (t : Transaction) : Transaction :=
  { t with diagnostic := { t.diagnostic with installed := true } }

def fail (t : Transaction) (status : Int32) : Transaction :=
  { t with
    diagnostic := { t.diagnostic with fault := if t.fault = 0 then status else t.fault } }

/-- A refusal shows the first fault, which need not be its own. -/
def refuse {Value : Type} (t : Transaction) (status : Int32) : Except Int32 Value × Transaction :=
  (.error (t.fail status).fault, t.fail status)

def request (t : Transaction) : Except Int32 Unit × Transaction :=
  if t.diagnostic.installed = false ∨ t.phase ≠ .idle ∨ t.fault ≠ 0 then t.refuse contract
  else
    (.ok (), { t with
      phase := .requested
      diagnostic := { t.diagnostic with requested := true } })

def requestAt (t : Transaction) (startedMs : UInt64) : Except Int32 Unit × Transaction :=
  match t.request with
  | (.ok (), t) => (.ok (), { t with startedMs := startedMs })
  | refused => refused

def checkDeadline (t : Transaction) (now : Option UInt64) : Except Int32 Unit × Transaction :=
  if t.fault ≠ 0 then (.error t.fault, t)
  else if t.diagnostic.requested = false then t.refuse contract
  else
    match now with
    | none => t.refuse contract
    | some now =>
      if (checkedSub now t.startedMs).any (· < deadlineMs) then (.ok (), t)
      else t.refuse timeout

/-- What a checkpoint shows; an elapsed time of 32 bits and more counts as unobserved. -/
def elapsed (startedMs : UInt64) (now : Option UInt64) : UInt32 :=
  match now.bind (checkedSub · startedMs) with
  | some elapsed => if elapsed.toNat < 2 ^ 32 then elapsed.toUInt32 else unobserved
  | none => unobserved

def observe (t : Transaction) (checkpoint : Checkpoint) (now : Option UInt64) : Transaction :=
  let timings := t.diagnostic.timings
  if t.diagnostic.requested ∧ timings.get checkpoint.index = unobserved then
    { t with
      diagnostic :=
        { t.diagnostic with
          timings := timings.set checkpoint.index (elapsed t.startedMs now) } }
  else t

def enter (t : Transaction) : Except Int32 Unit × Transaction :=
  if t.phase ≠ .requested ∨ t.fault ≠ 0 then t.refuse contract
  else
    (.ok (), { t with
      phase := .executing
      diagnostic := { t.diagnostic with entered := true } })

def enterAt (t : Transaction) (now : Option UInt64) : Except Int32 Unit × Transaction :=
  match (t.observe .entered now).checkDeadline now with
  | (.ok (), t) => t.enter
  | late => late

def mayRebuild (t : Transaction) : Bool := t.phase == .executing && t.fault == 0

def mayRebuildAt (t : Transaction) (now : Option UInt64) : Bool × Transaction :=
  match t.checkDeadline now with
  | (.ok (), t) => (t.mayRebuild, t)
  | (.error _, t) => (false, t)

def postReturned (t : Transaction) (status : Int32) : Transaction :=
  let checked :=
    if t.diagnostic.postReturned ∨ t.diagnostic.requested = false then t.fail contract else t
  let posted := { checked with diagnostic := { checked.diagnostic with postReturned := true } }
  if status ≠ 0 then posted.fail status else posted

def finish (t : Transaction) (before after empty : UInt8) (status : Int32) : Transaction :=
  if t.phase ≠ .executing then t.fail contract
  else
    let finished :=
      { t with
        phase := .returned
        diagnostic :=
          { t.diagnostic with
            returned := true
            macBefore := before
            macAfter := after
            descriptorsEmpty := empty
            nativeStatus := status } }
    if status ≠ 0 then finished.fail status
    else if after ≠ 0 then finished.fail macEnabled
    else if empty ≠ 1 then finished.fail descriptorsRemain
    else finished

-- The native call may have returned late: its observations are kept, its success is not.
def finishAt (t : Transaction) (now : Option UInt64) (before after empty : UInt8)
    (status : Int32) : Transaction :=
  (((t.observe .finished now).checkDeadline now).2).finish before after empty status

def result (t : Transaction) : Except Int32 Bool :=
  if t.fault ≠ 0 then .error t.fault
  else .ok (t.phase == .returned && t.diagnostic.postReturned)

def resultAt (t : Transaction) (now : Option UInt64) : Except Int32 Bool × Transaction :=
  let (result, t) : Except Int32 Bool × Transaction :=
    match t.checkDeadline now with
    | (.ok (), t) => (t.result, t)
    | (.error status, t) => (.error status, t)
  (result, if result ≠ .ok false then t.observe .observed now else t)

end Transaction

/-- A call of one of the transaction's methods, with what it returned. -/
inductive Label where
  | install
  | requestAt (startedMs : UInt64) (result : Except Int32 Unit)
  | enterAt (now : Option UInt64) (result : Except Int32 Unit)
  | checkDeadline (now : Option UInt64) (result : Except Int32 Unit)
  | mayRebuildAt (now : Option UInt64) (result : Bool)
  | finishAt (now : Option UInt64) (before after empty : UInt8) (status : Int32)
  | postReturned (status : Int32)
  | resultAt (now : Option UInt64) (result : Except Int32 Bool)
  | observe (checkpoint : Checkpoint) (now : Option UInt64)
  | fail (status : Int32)

inductive Step (t : Transaction) : Label → Transaction → Prop where
  | install : Step t .install t.install
  | requestAt (startedMs : UInt64) :
      Step t (.requestAt startedMs (t.requestAt startedMs).1) (t.requestAt startedMs).2
  | enterAt (now : Option UInt64) : Step t (.enterAt now (t.enterAt now).1) (t.enterAt now).2
  | checkDeadline (now : Option UInt64) :
      Step t (.checkDeadline now (t.checkDeadline now).1) (t.checkDeadline now).2
  | mayRebuildAt (now : Option UInt64) :
      Step t (.mayRebuildAt now (t.mayRebuildAt now).1) (t.mayRebuildAt now).2
  | finishAt (now : Option UInt64) (before after empty : UInt8) (status : Int32) :
      Step t (.finishAt now before after empty status) (t.finishAt now before after empty status)
  | postReturned (status : Int32) : Step t (.postReturned status) (t.postReturned status)
  | resultAt (now : Option UInt64) : Step t (.resultAt now (t.resultAt now).1) (t.resultAt now).2
  | observe (checkpoint : Checkpoint) (now : Option UInt64) :
      Step t (.observe checkpoint now) (t.observe checkpoint now)
  | fail (status : Int32) : Step t (.fail status) (t.fail status)

def transactionSystem : System Transaction Label := ⟨Step⟩

/-- A sample that the deadline of a request at `startedMs` lets pass. -/
def InTime (startedMs : UInt64) (now : Option UInt64) : Prop :=
  ∃ sample, now = some sample ∧ startedMs.toNat ≤ sample.toNat ∧
    sample.toNat < startedMs.toNat + 1000

/-- The clock sample that a call checks against the deadline. -/
def Label.sample : Label → Option (Option UInt64)
  | .enterAt now _ => some now
  | .checkDeadline now _ => some now
  | .mayRebuildAt now _ => some now
  | .finishAt now _ _ _ _ => some now
  | .resultAt now _ => some now
  | _ => none

inductive Milestone where
  | requested (startedMs : UInt64) (result : Except Int32 Unit)
  | entered (result : Except Int32 Unit)
  | finished (after empty : UInt8) (status : Int32)

def Label.milestone : Label → Option Milestone
  | .requestAt startedMs result => some (.requested startedMs result)
  | .enterAt _ result => some (.entered result)
  | .finishAt _ _ after empty status => some (.finished after empty status)
  | _ => none

def Label.posted : Label → Option Int32
  | .postReturned status => some status
  | _ => none

structure Course where
  phase : Phase
  requested : Bool
  startedMs : UInt64
  postReturned : Bool

def Course.new : Course := ⟨.idle, false, 0, false⟩

def Transaction.course (t : Transaction) : Course :=
  ⟨t.phase, t.diagnostic.requested, t.startedMs, t.diagnostic.postReturned⟩

def Course.Timely (c : Course) (now : Option UInt64) : Prop :=
  c.requested = true ∧ InTime c.startedMs now

inductive Course.Step (c : Course) : Label → Course → Prop where
  | silent {label : Label} : label.milestone = none → label.posted = none →
      (∀ now, label.sample = some now → c.Timely now) → Step c label c
  | requested (startedMs : UInt64) : c.phase = .idle →
      Step c (.requestAt startedMs (.ok ()))
        { c with phase := .requested, requested := true, startedMs := startedMs }
  | entered {now : Option UInt64} : c.phase = .requested → c.Timely now →
      Step c (.enterAt now (.ok ())) { c with phase := .executing }
  | finished {now : Option UInt64} (before : UInt8) : c.phase = .executing → c.Timely now →
      Step c (.finishAt now before 0 1 0) { c with phase := .returned }
  | posted : c.requested = true → c.postReturned = false →
      Step c (.postReturned 0) { c with postReturned := true }

def courseSystem : System Course Label := ⟨Course.Step⟩

def passed (labels : List Label) : List Milestone := labels.filterMap Label.milestone

def postReturns (labels : List Label) : List Int32 := labels.filterMap Label.posted

theorem passed_concat (labels : List Label) (label : Label) :
    passed (labels ++ [label]) = passed labels ++ label.milestone.toList :=
  filterMap_concat _ labels label

theorem postReturns_concat (labels : List Label) (label : Label) :
    postReturns (labels ++ [label]) = postReturns labels ++ label.posted.toList :=
  filterMap_concat _ labels label

def Phase.milestones (startedMs : UInt64) : Phase → List Milestone
  | .idle => []
  | .requested => [.requested startedMs (.ok ())]
  | .executing => [.requested startedMs (.ok ()), .entered (.ok ())]
  | .returned => [.requested startedMs (.ok ()), .entered (.ok ()), .finished 0 1 0]

structure Told (c : Course) (labels : List Label) : Prop where
  requested : c.requested = true ↔ c.phase ≠ .idle
  milestones : passed labels = c.phase.milestones c.startedMs
  posts : postReturns labels = if c.postReturned then [0] else []
  timely : ∀ label ∈ labels, ∀ now, label.sample = some now → c.Timely now

variable {c c' : Course} {label : Label} {labels : List Label}

theorem Told.step (told : Told c labels) (step : c.Step label c') : Told c' (labels ++ [label]) := by
  have timely {d : Course} (past : ∀ other ∈ labels, ∀ now, other.sample = some now → d.Timely now)
      (present : ∀ now, label.sample = some now → d.Timely now) :
      ∀ other ∈ labels ++ [label], ∀ now, other.sample = some now → d.Timely now :=
    forall_mem_append.mpr ⟨past, forall_mem_singleton.mpr present⟩
  cases step with
  | silent quiet unposted fits =>
    refine ⟨told.requested, ?_, ?_, timely told.timely fits⟩
    · rw [passed_concat, told.milestones, quiet]
      exact append_nil _
    · rw [postReturns_concat, told.posts, unposted]
      exact append_nil _
  | requested startedMs idle =>
    -- No sample passed before the request, so the new deadline has none to explain.
    have unrequested : c.requested ≠ true := fun requested => told.requested.mp requested idle
    refine ⟨by simp, ?_, ?_, timely ?_ nofun⟩
    · rw [passed_concat, told.milestones, idle]
      rfl
    · rw [postReturns_concat, told.posts]
      exact append_nil _
    · intro other member now sampled
      exact absurd (told.timely other member now sampled).1 unrequested
  | entered phase fits | finished _ phase fits =>
    refine ⟨?_, ?_, ?_, timely told.timely ?_⟩
    · simpa [phase] using told.requested
    · rw [passed_concat, told.milestones, phase]
      rfl
    · rw [postReturns_concat, told.posts]
      exact append_nil _
    · intro now sampled
      exact Option.some.inj sampled ▸ fits
  | posted requested unposted =>
    refine ⟨told.requested, ?_, ?_, timely told.timely nofun⟩
    · rw [passed_concat, told.milestones]
      exact append_nil _
    · rw [postReturns_concat, told.posts, unposted]
      rfl

theorem Course.Step.timely {now : Option UInt64} (step : c.Step label c')
    (sampled : label.sample = some now) : c.Timely now := by
  cases step with
  | silent _ _ timely => exact timely now sampled
  | entered _ timely | finished _ _ timely => exact Option.some.inj sampled ▸ timely
  | requested | posted => cases sampled

theorem told_of_run (run : Run courseSystem .new labels c) : Told c labels := by
  induction run with
  | start => exact ⟨by decide, rfl, rfl, nofun⟩
  | next _ step ih => exact ih.step step

structure Effect (t : Transaction) (label : Label) (t' : Transaction) : Prop where
  faulted : t.fault ≠ 0 → t'.fault = t.fault
  started : t.phase ≠ .idle → t'.phase ≠ .idle
  went : t'.fault = 0 → t.course.Step label t'.course

variable {t t' : Transaction}

theorem fail_fault (status : Int32) :
    (t.fail status).fault = if t.fault = 0 then status else t.fault := rfl

variable {status : Int32} {s : Transaction}

theorem fail_ne_zero (nonzero : status ≠ 0) : (t.fail status).fault ≠ 0 := by
  rw [fail_fault]
  split
  · exact nonzero
  next faulted => exact faulted

theorem contract_ne_zero : contract ≠ 0 := by decide

/-- A step that ends in a report may have come as far as `s` before it. -/
theorem effect_fail (nonzero : status ≠ 0) (fault : t.fault ≠ 0 → s.fault = t.fault)
    (started : t.phase ≠ .idle → s.phase ≠ .idle) : Effect t label (s.fail status) where
  faulted := by
    intro faulted
    have same := fault faulted
    rw [fail_fault, same, if_neg faulted]
  started := started
  went := fun fine => absurd fine (fail_ne_zero nonzero)

theorem effect_step (fault : t'.fault = t.fault) (started : t.phase ≠ .idle → t'.phase ≠ .idle)
    (went : t'.fault = 0 → t.course.Step label t'.course) : Effect t label t' :=
  ⟨fun _ => fault, started, went⟩

theorem observe_cases (checkpoint : Checkpoint) (now : Option UInt64) :
    (t.observe checkpoint now).course = t.course ∧ (t.observe checkpoint now).fault = t.fault := by
  unfold observe
  dsimp only
  split <;> exact ⟨rfl, rfl⟩

theorem observe_phase (checkpoint : Checkpoint) (now : Option UInt64) :
    (t.observe checkpoint now).phase = t.phase :=
  congrArg Course.phase (observe_cases checkpoint now).1

theorem checkDeadline_cases (now : Option UInt64) :
    (t.fault = 0 ∧ t.course.Timely now ∧ t.checkDeadline now = (.ok (), t)) ∨
      ∃ status, status ≠ 0 ∧ t.checkDeadline now = t.refuse status := by
  unfold checkDeadline
  split_ifs with faulted unrequested
  · refine .inr ⟨contract, contract_ne_zero, ?_⟩
    have same : t.fail contract = t := by
      unfold fail
      rw [if_neg faulted]
    rw [refuse, same]
  · exact .inr ⟨contract, contract_ne_zero, rfl⟩
  cases now with
  | none => exact .inr ⟨contract, contract_ne_zero, rfl⟩
  | some now =>
    cases left : checkedSub now t.startedMs with
    | none => exact .inr ⟨timeout, by decide, by simp [left]⟩
    | some elapsed =>
      by_cases early : elapsed < deadlineMs
      · obtain ⟨after, difference⟩ := Machine.checkedSub_eq_some left
        have bound : elapsed.toNat < 1000 := UInt64.lt_iff_toNat_lt.mp early
        refine .inl ⟨not_not.mp faulted, ⟨?_, now, rfl, after, ?_⟩, ?_⟩
        · exact (Bool.not_eq_false _).mp unrequested
        · change now.toNat < t.startedMs.toNat + 1000
          omega
        · simp [left, early]
      · refine .inr ⟨timeout, by decide, ?_⟩
        simp [left, early]

theorem requestAt_effect (startedMs : UInt64) :
    Effect t (.requestAt startedMs (t.requestAt startedMs).1) (t.requestAt startedMs).2 := by
  unfold requestAt request
  split_ifs with refused
  · exact effect_fail contract_ne_zero (fun _ => rfl) id
  · simp only [not_or, not_not] at refused
    exact effect_step rfl (fun _ => nofun) fun _ => .requested startedMs refused.2.1

theorem enterAt_effect (now : Option UInt64) :
    Effect t (.enterAt now (t.enterAt now).1) (t.enterAt now).2 := by
  obtain ⟨course, fault⟩ := observe_cases (t := t) .entered now
  have phase := observe_phase (t := t) .entered now
  unfold enterAt
  generalize t.observe .entered now = seen at course fault phase
  have started : t.phase ≠ .idle → seen.phase ≠ .idle := phase ▸ id
  rcases checkDeadline_cases (t := seen) now with ⟨_, timely, passed⟩ | ⟨status, nonzero, refused⟩
  · rw [passed]
    unfold enter
    dsimp only
    split_ifs with early
    · exact effect_fail contract_ne_zero (fun _ => fault) started
    · simp only [not_or, not_not] at early
      refine effect_step fault (fun _ => nofun) fun _ => ?_
      rw [course] at timely
      have entered := Course.Step.entered (c := t.course) (phase.symm.trans early.1) timely
      rw [← course] at entered ⊢
      exact entered
  · rw [refused]
    exact effect_fail nonzero (fun _ => fault) started

theorem check_effect {now : Option UInt64} (quiet : label.milestone = none)
    (unposted : label.posted = none) (sample : label.sample = some now) :
    Effect t label (t.checkDeadline now).2 := by
  rcases checkDeadline_cases (t := t) now with ⟨_, timely, passed⟩ | ⟨status, nonzero, refused⟩
  · rw [passed]
    refine effect_step rfl id fun _ => .silent quiet unposted ?_
    intro other sampled
    rw [sample] at sampled
    exact Option.some.inj sampled ▸ timely
  · rw [refused]
    exact effect_fail nonzero (fun _ => rfl) id

theorem postReturned_effect (status : Int32) :
    Effect t (.postReturned status) (t.postReturned status) := by
  unfold postReturned
  dsimp only
  split_ifs with failed refused refused
  · exact effect_fail failed (fun faulted => if_neg faulted) id
  · exact effect_fail failed (fun _ => rfl) id
  · -- The flag is set after the report, which comes to the same.
    exact effect_fail (s := { t with diagnostic := { t.diagnostic with postReturned := true } })
      contract_ne_zero (fun _ => rfl) id
  · simp only [not_or, not_not] at failed refused
    subst failed
    refine effect_step rfl id fun _ => .posted ?_ ?_
    · exact (Bool.not_eq_false _).mp refused.2
    · exact (Bool.not_eq_true _).mp refused.1

theorem finish_keeps (before after empty : UInt8) (status : Int32) :
    (t.fault ≠ 0 → (t.finish before after empty status).fault = t.fault) ∧
      (t.phase ≠ .idle → (t.finish before after empty status).phase ≠ .idle) := by
  unfold finish
  split_ifs
  · exact ⟨fun faulted => if_neg faulted, id⟩
  · exact ⟨fun faulted => if_neg faulted, fun _ => nofun⟩
  · exact ⟨fun faulted => if_neg faulted, fun _ => nofun⟩
  · exact ⟨fun faulted => if_neg faulted, fun _ => nofun⟩
  · grind

theorem finish_went {before after empty : UInt8}
    (fine : (t.finish before after empty status).fault = 0) :
    t.phase = .executing ∧ after = 0 ∧ empty = 1 ∧ status = 0 ∧
      (t.finish before after empty status).course = { t.course with phase := .returned } := by
  unfold finish at fine ⊢
  split_ifs at fine ⊢ with unready failed enabled remain
  · exact absurd fine (fail_ne_zero contract_ne_zero)
  · exact absurd fine (fail_ne_zero failed)
  · exact absurd fine (fail_ne_zero (by decide))
  · exact absurd fine (fail_ne_zero (by decide))
  · exact ⟨not_not.mp unready, not_not.mp enabled, not_not.mp remain, not_not.mp failed, rfl⟩

theorem finishAt_effect (now : Option UInt64) (before after empty : UInt8) (status : Int32) :
    Effect t (.finishAt now before after empty status)
      (t.finishAt now before after empty status) := by
  obtain ⟨course, fault⟩ := observe_cases (t := t) .finished now
  have phase := observe_phase (t := t) .finished now
  unfold finishAt
  generalize t.observe .finished now = seen at course fault phase
  rcases checkDeadline_cases (t := seen) now with ⟨_, timely, passed⟩ | ⟨late, nonzero, refused⟩
  · rw [passed]
    have keeps := finish_keeps (t := seen) before after empty status
    refine ⟨fun faulted => ?_, phase ▸ keeps.2, fun fine => ?_⟩
    · grind
    · obtain ⟨executing, rfl, rfl, rfl, returned⟩ := finish_went fine
      rw [course] at timely
      rw [returned, course]
      exact .finished before (phase.symm.trans executing) timely
  · rw [refused]
    have keeps := finish_keeps (t := seen.fail late) before after empty status
    have reported : (seen.fail late).fault ≠ 0 := fail_ne_zero nonzero
    refine ⟨fun faulted => ?_, phase ▸ keeps.2, fun fine => ?_⟩
    · rw [refuse, keeps.1 reported, fail_fault, fault, if_neg faulted]
    · exact absurd ((keeps.1 reported).symm.trans fine) reported

theorem Effect.congr (effect : Effect t label s) (course : t'.course = s.course)
    (fault : t'.fault = s.fault) : Effect t label t' where
  faulted := fun faulted => fault.trans (effect.faulted faulted)
  started := by
    have phase : t'.phase = s.phase := congrArg Course.phase course
    rw [phase]
    exact effect.started
  went := by
    rw [fault, course]
    exact effect.went

theorem resultAt_checks (now : Option UInt64) :
    (t.resultAt now).2.course = (t.checkDeadline now).2.course ∧
      (t.resultAt now).2.fault = (t.checkDeadline now).2.fault := by
  grind [resultAt, observe_cases]

theorem step_effect (step : Step t label t') : Effect t label t' := by
  cases step with
  | install => exact effect_step rfl id fun _ => .silent rfl rfl nofun
  | requestAt startedMs => exact requestAt_effect startedMs
  | enterAt now => exact enterAt_effect now
  | checkDeadline => exact check_effect rfl rfl rfl
  | mayRebuildAt now =>
    have same : (t.mayRebuildAt now).2 = (t.checkDeadline now).2 := by
      unfold mayRebuildAt
      rcases t.checkDeadline now with ⟨_ | _, _⟩ <;> rfl
    rw [same]
    exact check_effect rfl rfl rfl
  | finishAt now before after empty status => exact finishAt_effect now before after empty status
  | postReturned status => exact postReturned_effect status
  | resultAt now =>
    obtain ⟨course, fault⟩ := resultAt_checks (t := t) now
    exact (check_effect rfl rfl rfl).congr course fault
  | observe checkpoint now =>
    obtain ⟨course, fault⟩ := observe_cases (t := t) checkpoint now
    have still : Effect t (.observe checkpoint now) t :=
      effect_step rfl id fun _ => .silent rfl rfl nofun
    exact still.congr course fault
  | fail status =>
    by_cases zero : status = 0
    · subst zero
      refine effect_step ?_ id fun _ => .silent rfl rfl nofun
      rw [fail_fault]
      split
      next unfaulted => exact unfaulted.symm
      · rfl
    · exact effect_fail zero (fun _ => rfl) id

theorem faulted_run (run : Run transactionSystem t labels t') (faulted : t.fault ≠ 0) :
    t'.fault = t.fault := by
  have keeps (u : Transaction) (label : Label) (v : Transaction) (same : u.fault = t.fault)
      (step : transactionSystem.step u label v) : v.fault = t.fault :=
    ((step_effect step).faulted (same ▸ faulted)).trans same
  exact run.invariant keeps rfl

/-- Without a fault the calls are a run of the machine that knows none. -/
theorem course_of_run (run : Run transactionSystem .new labels t) (fine : t.fault = 0) :
    Run courseSystem .new labels t.course := by
  induction run with
  | start => exact .start
  | @next earlier before after label _ step ih =>
    have effect := step_effect step
    have unfaulted : before.fault = 0 := by
      by_contra faulted
      exact faulted ((effect.faulted faulted).symm.trans fine)
    exact (ih unfaulted).next (effect.went fine)

theorem started_run (run : Run transactionSystem t labels t') (started : t.phase ≠ .idle) :
    t'.phase ≠ .idle :=
  run.invariant (fun _ _ _ started step => (step_effect step).started started) started

variable {startedMs : UInt64} {now : Option UInt64}

theorem requestAt_inv (step : Step t (.requestAt startedMs (.ok ())) t') :
    t.phase = .idle ∧ t'.phase = .requested := by
  generalize named : Label.requestAt startedMs (.ok ()) = label at step
  cases step with
  | requestAt =>
    obtain ⟨rfl, went⟩ := Label.requestAt.inj named
    unfold requestAt request at went ⊢
    split_ifs at went ⊢ with refused
    · cases went
    · grind
  | _ => cases named

theorem request_once {other : UInt64} {first rest : List Label}
    (run : Run transactionSystem t (first ++ .requestAt startedMs (.ok ()) :: rest) t') :
    .requestAt other (.ok ()) ∉ rest := by
  intro member
  obtain ⟨between, last, rfl⟩ := append_of_mem member
  obtain ⟨_, after, _, request, later⟩ := run.step_at
  obtain ⟨before, _, middle, again, _⟩ := later.step_at
  have requested : after.phase ≠ .idle := by
    rw [(requestAt_inv request).2]
    exact nofun
  exact started_run middle requested (requestAt_inv again).1

theorem late_faults (step : Step t label t') (sampled : label.sample = some now)
    (late : ¬ t.course.Timely now) : t'.fault ≠ 0 :=
  fun fine => late (((step_effect step).went fine).timely sampled)

def Label.proceeds : Label → Bool
  | .enterAt _ (.ok ()) => true
  | .mayRebuildAt _ true => true
  | _ => false

theorem proceeds_unfaulted (step : Step t label t') (proceeds : label.proceeds = true) :
    t.fault = 0 := by
  cases step with
  | enterAt now =>
    obtain ⟨_, fault⟩ := observe_cases (t := t) .entered now
    unfold enterAt at proceeds
    generalize t.observe .entered now = seen at fault proceeds
    rcases checkDeadline_cases (t := seen) now with ⟨fine, _, _⟩ | ⟨status, _, refused⟩
    · grind
    · rw [refused] at proceeds
      cases proceeds
  | mayRebuildAt now =>
    unfold mayRebuildAt at proceeds
    rcases checkDeadline_cases (t := t) now with ⟨fine, _, _⟩ | ⟨status, _, refused⟩
    · exact fine
    · rw [refused] at proceeds
      cases proceeds
  | _ => cases proceeds

/-- A success of the waiter finds no fault, its own sample in time and both parts returned. -/
theorem resultAt_true (succeeded : (t.resultAt now).1 = .ok true) :
    t.fault = 0 ∧ t.course.Timely now ∧ t.phase = .returned ∧ t.diagnostic.postReturned = true := by
  unfold resultAt at succeeded
  rcases checkDeadline_cases (t := t) now with ⟨fine, timely, passed⟩ | ⟨status, _, refused⟩
  · grind [result]
  · rw [refused] at succeeded
    cases succeeded

/-- The waiter succeeds only after exactly one request, one entry, one finish that found the MAC off
and no descriptors, and one return of the post, all without an error and with every checked sample
within the deadline. There is one request in a boot, a fault is permanent, and after a sample that
came too late the native work does not go on. -/
theorem rx_stop_succeeds_once_in_order (run : Run transactionSystem .new labels t) :
    (∀ now, (t.resultAt now).1 = .ok true → ∃ startedMs,
      passed labels = [.requested startedMs (.ok ()), .entered (.ok ()), .finished 0 1 0] ∧
      postReturns labels = [0] ∧ InTime startedMs now ∧
      (∀ label ∈ labels, ∀ sample, label.sample = some sample → InTime startedMs sample) ∧
      ∀ first rest u, labels = first ++ rest → Run transactionSystem .new first u →
        Run transactionSystem u rest t → u.fault = 0) ∧
    (∀ first rest startedMs other, labels = first ++ .requestAt startedMs (.ok ()) :: rest →
      .requestAt other (.ok ()) ∉ rest) ∧
    (t.fault ≠ 0 → ∀ more t', Run transactionSystem t more t' → t'.fault = t.fault) ∧
    ∀ label t' now, Step t label t' → label.sample = some now → ¬ t.course.Timely now →
      ∀ more t'', Run transactionSystem t' more t'' → ∀ later ∈ more, later.proceeds = false := by
  refine ⟨?_, ?_, fun faulted more t' further => faulted_run further faulted, ?_⟩
  · intro now succeeded
    obtain ⟨fine, timely, returned, posted⟩ := resultAt_true succeeded
    have told := told_of_run (course_of_run run fine)
    have phase : t.course.phase = .returned := returned
    have post : t.course.postReturned = true := posted
    refine ⟨t.startedMs, ?_, ?_, timely.2, fun label member sample sampled =>
      (told.timely label member sample sampled).2, ?_⟩
    · rw [told.milestones, phase]
      rfl
    · rw [told.posts, post]
      rfl
    · intro first rest u _ _ later
      by_contra faulted
      exact faulted ((faulted_run later faulted).symm.trans fine)
  · rintro first rest startedMs other rfl
    exact request_once run
  · intro label t' now step sampled late more t'' further later member
    rw [Bool.eq_false_iff]
    intro proceeds
    obtain ⟨between, last, rfl⟩ := append_of_mem member
    obtain ⟨before, _, middle, again, _⟩ := further.step_at
    have faulted := late_faults step sampled late
    exact faulted ((faulted_run middle faulted).symm.trans (proceeds_unfaulted again proceeds))

/-- A stop in which the post returns before the device worker enters. -/
def oneStop : Transaction :=
  ((((Transaction.new.install.requestAt 10).2.postReturned 0).enterAt (some 12)).2.finishAt
    (some 13) 1 0 1 0)

theorem oneStop_succeeds : (oneStop.resultAt (some 14)).1 = .ok true ∧ ∃ startedMs,
    InTime startedMs (some 14) := by
  have fresh : Run transactionSystem .new [] .new := .start
  have run := ((((fresh.next .install).next (.requestAt 10)).next (.postReturned 0)).next
    (.enterAt (some 12))).next (.finishAt (some 13) 1 0 1 0)
  have succeeded : (oneStop.resultAt (some 14)).1 = .ok true := by decide +kernel
  obtain ⟨startedMs, _, _, inTime, _⟩ :=
    (rx_stop_succeeds_once_in_order run).1 (some 14) succeeded
  exact ⟨succeeded, startedMs, inTime⟩

end HisiRf.RxStop
