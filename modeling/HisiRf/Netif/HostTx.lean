import HisiRf.Interaction.Transition
import HisiRf.Machine.Word
import HisiRf.Storage.Slots

/-! The tracker of host queue-4 ownership and everything one of its steps can do.

A buffer is accepted under a ticket and occupies a slot until the posting call
has returned and the buffer was either dispatched or freed. These three events
come in any order and for addresses that the allocator has handed out again, so
a slot is retired by its ticket only. The tracker never enters native code: each
of its methods is the body of one critical section.
-/

namespace HisiRf.HostTx

open Interaction
open Machine (checkedAdd saturatingAdd)
open Storage (Slots)

def capacity : Nat := 32
def contractError : Int32 := -0x1002
def drainTimeout : Int32 := -0x1003

structure Ticket where
  raw : UInt64
  deriving DecidableEq

inductive Stage where | queued | executing | executed | freeing | freed deriving DecidableEq

/-- The stage in which a dispatch or a free has begun, and the one in which it is done. -/
def Stage.expected (freeing : Bool) : Stage := if freeing then .freeing else .executing

def Stage.done (freeing : Bool) : Stage := if freeing then .freed else .executed

structure Active where
  ticket : Ticket
  pointer : Nat
  stage : Stage
  postReturned : Bool
  deriving DecidableEq

open Active

structure HostTxDiagnostics where
  accepted : UInt64
  processed : UInt64
  dropped : UInt64
  pending : UInt32
  peak : UInt32
  rejected : UInt64
  callbackErrors : UInt64
  closed : Bool
  fault : Int32

structure Tracker where
  slots : Slots Active capacity
  diagnostic : HostTxDiagnostics
  terminal : Bool

/-- Whether a rejected buffer is released, or still belongs to its first owner. -/
inductive Rejection where | release | duplicate deriving DecidableEq

/-- The call that posted the buffer has returned and the buffer was dispatched or freed. -/
def Active.finished (a : Active) : Bool :=
  a.postReturned && (a.stage == .executed || a.stage == .freed)

namespace Tracker

def new : Tracker := ⟨.empty, ⟨0, 0, 0, 0, 0, 0, 0, false, 0⟩, false⟩

def fail (t : Tracker) (status : Int32) : Tracker :=
  { t with
    diagnostic :=
      { t.diagnostic with
        fault := if t.diagnostic.fault = 0 then status else t.diagnostic.fault
        closed := true } }

def countRejected (t : Tracker) : Tracker :=
  { t with diagnostic := { t.diagnostic with rejected := saturatingAdd t.diagnostic.rejected 1 } }

/-- The record with one more buffer, in the slot that was found vacant. -/
def accept (t : Tracker) (index : Nat) (sequence : UInt64) (pointer : Nat) : Tracker :=
  { t with
    slots := t.slots.put index ⟨⟨sequence⟩, pointer, .queued, false⟩
    diagnostic :=
      { t.diagnostic with
        accepted := sequence
        pending := t.diagnostic.pending + 1
        peak := max t.diagnostic.peak (t.diagnostic.pending + 1) } }

def isQueued (pointer : Nat) (a : Active) : Bool := a.pointer == pointer && a.stage == .queued

def begin (t : Tracker) (pointer : Nat) : Except Rejection Ticket × Tracker :=
  if t.slots.live.any (isQueued pointer) then
    (.error .duplicate, (t.fail contractError).countRejected)
  else
    let slot := t.slots.vacant
    let sequence := checkedAdd t.diagnostic.accepted 1
    let t := if pointer = 0 ∨ slot = none ∨ sequence = none then t.fail contractError else t
    if t.diagnostic.closed then (.error .release, t.countRejected)
    else
      match slot, sequence with
      | some index, some sequence => (.ok ⟨sequence⟩, t.accept index sequence pointer)
      -- The failed check has closed the tracker, so this line is not reached.
      | _, _ => (.error .release, t)

/-- Clear the slot of a finished ticket and count how its buffer ended. -/
def retire (t : Tracker) (ticket : Ticket) : Tracker :=
  match t.slots.find? (·.ticket == ticket) with
  | none => t
  | some a =>
    if a.finished = false then t
    else
      let d := { t.diagnostic with pending := t.diagnostic.pending - 1 }
      { t with
        slots := t.slots.alter (·.ticket == ticket) fun _ => none
        diagnostic :=
          if a.stage = .executed then { d with processed := d.processed + 1 }
          else { d with dropped := d.dropped + 1 } }

def mark (t : Tracker) (fits : Active → Bool) (change : Active → Active) : Tracker :=
  { t with slots := t.slots.alter fits fun a => some (change a) }

def postReturned (t : Tracker) (ticket : Ticket) (status : Int32) : Tracker :=
  match t.slots.find? (·.ticket == ticket) with
  | none => t.fail contractError
  | some a =>
    if a.postReturned then t.fail contractError
    else
      let marked := t.mark (·.ticket == ticket) fun a => { a with postReturned := true }
      -- A failure alone does not retire an opaque owner without a free.
      (if status ≠ 0 then marked.fail status else marked).retire ticket

def dispatch (t : Tracker) (pointer : Nat) : Option Ticket × Tracker :=
  match t.slots.find? (isQueued pointer) with
  | none => (none, t.fail contractError)
  | some a => (some a.ticket, t.mark (isQueued pointer) fun a => { a with stage := .executing })

-- A free of a buffer that is not queued here is none of the tracker's business.
def beforeFree (t : Tracker) (pointer : Nat) : Option Ticket × Tracker :=
  match t.slots.find? (isQueued pointer) with
  | none => (none, t)
  | some a => (some a.ticket, t.mark (isQueued pointer) fun a => { a with stage := .freeing })

def complete (t : Tracker) (ticket : Ticket) (freeing : Bool) (status : Int32) : Tracker :=
  match t.slots.find? (·.ticket == ticket) with
  | none => t.fail contractError
  | some a =>
    if a.stage ≠ .expected freeing then t.fail contractError
    else if freeing ∧ status ≠ 0 then t.fail status
    else
      let staged := t.mark (·.ticket == ticket) fun a => { a with stage := .done freeing }
      let counted :=
        if ¬ freeing ∧ status ≠ 0 then
          { staged with
            diagnostic :=
              { staged.diagnostic with
                callbackErrors := saturatingAdd staged.diagnostic.callbackErrors 1 } }.fail status
        else staged
      counted.retire ticket

def close (t : Tracker) : Tracker := { t with diagnostic := { t.diagnostic with closed := true } }

/-- The source's `seal`, whose name is a keyword here; only RX-stop builds have it. -/
def sealAdmission (t : Tracker) : Tracker := { t with terminal := true }.close

def resumeHandshake (t : Tracker) (nativeStatus : Int32) : Except Int32 Unit × Tracker :=
  if nativeStatus ≠ 0 then (.error nativeStatus, t)
  else if t.diagnostic.fault ≠ 0 then (.error t.diagnostic.fault, t)
  else if t.terminal ∨ t.diagnostic.pending ≠ 0 then (.error contractError, t)
  else (.ok (), { t with diagnostic := { t.diagnostic with closed := false } })

def drained (t : Tracker) : Except Int32 Bool :=
  if t.diagnostic.fault ≠ 0 then .error t.diagnostic.fault
  else .ok (t.diagnostic.closed && t.diagnostic.pending == 0)

end Tracker

open Tracker (isQueued retire mark)

/-- A call of one of the tracker's methods, with what it returned. -/
inductive Label where
  | begin (pointer : Nat) (result : Except Rejection Ticket)
  | postReturned (ticket : Ticket) (status : Int32)
  | dispatch (pointer : Nat) (result : Option Ticket)
  | beforeFree (pointer : Nat) (result : Option Ticket)
  | complete (ticket : Ticket) (freeing : Bool) (status : Int32)
  | close
  | sealAdmission
  | resumeHandshake (nativeStatus : Int32) (result : Except Int32 Unit)
  | fail (status : Int32)

inductive Step (t : Tracker) : Label → Tracker → Prop where
  | begin (pointer : Nat) : Step t (.begin pointer (t.begin pointer).1) (t.begin pointer).2
  | postReturned (ticket : Ticket) (status : Int32) :
      Step t (.postReturned ticket status) (t.postReturned ticket status)
  | dispatch (pointer : Nat) :
      Step t (.dispatch pointer (t.dispatch pointer).1) (t.dispatch pointer).2
  | beforeFree (pointer : Nat) :
      Step t (.beforeFree pointer (t.beforeFree pointer).1) (t.beforeFree pointer).2
  | complete (ticket : Ticket) (freeing : Bool) (status : Int32) :
      Step t (.complete ticket freeing status) (t.complete ticket freeing status)
  | close : Step t .close t.close
  | sealAdmission : Step t .sealAdmission t.sealAdmission
  | resumeHandshake (nativeStatus : Int32) :
      Step t (.resumeHandshake nativeStatus (t.resumeHandshake nativeStatus).1)
        (t.resumeHandshake nativeStatus).2
  | fail (status : Int32) : Step t (.fail status) (t.fail status)

def trackerSystem : System Tracker Label := ⟨Step⟩

/-! What a step can do: leave every slot alone, accept a buffer, or move one slot on. -/

abbrev Tracker.live (t : Tracker) : List Active := t.slots.live

abbrev Tracker.fault (t : Tracker) : Int32 := t.diagnostic.fault

abbrev Tracker.closed (t : Tracker) : Bool := t.diagnostic.closed

/-- The four counters that tell accepted buffers from finished ones. -/
structure SameCounts (t t' : Tracker) : Prop where
  accepted : t'.diagnostic.accepted = t.diagnostic.accepted
  processed : t'.diagnostic.processed = t.diagnostic.processed
  dropped : t'.diagnostic.dropped = t.diagnostic.dropped
  pending : t'.diagnostic.pending = t.diagnostic.pending

structure Accepts (t t' : Tracker) (ticket : Ticket) (pointer : Nat) : Prop where
  isOpen : t.closed = false
  nonzero : pointer ≠ 0
  unqueued : ∀ a ∈ t.live, isQueued pointer a = false
  next : ticket.raw.toNat = t.diagnostic.accepted.toNat + 1
  inserted : ∃ before after, t.live = before ++ after ∧
    t'.live = before ++ ⟨ticket, pointer, .queued, false⟩ :: after
  accepted : t'.diagnostic.accepted = ticket.raw
  processed : t'.diagnostic.processed = t.diagnostic.processed
  dropped : t'.diagnostic.dropped = t.diagnostic.dropped
  pending : t'.diagnostic.pending = t.diagnostic.pending + 1

/-- The slot `a` becomes `a'`, and is cleared and counted if that finishes it. -/
structure Advances (t t' : Tracker) (a a' : Active) : Prop where
  ticket : a'.ticket = a.ticket
  pointer : a'.pointer = a.pointer
  unqueues : a'.stage = .queued → a.stage = .queued
  replaced : ∃ before after, t.live = before ++ a :: after ∧
    t'.live = before ++ ((if a'.finished then none else some a').toList ++ after)
  accepted : t'.diagnostic.accepted = t.diagnostic.accepted
  processed : t'.diagnostic.processed = t.diagnostic.processed +
    if a'.finished && a'.stage == .executed then 1 else 0
  dropped : t'.diagnostic.dropped = t.diagnostic.dropped +
    if a'.finished && a'.stage != .executed then 1 else 0
  pending : t'.diagnostic.pending =
    if a'.finished then t.diagnostic.pending - 1 else t.diagnostic.pending

/-- The call names this slot: by its ticket, or by its address while it is queued. -/
inductive Label.Aims (a : Active) : Label → Prop where
  | postReturned (status : Int32) : Aims a (.postReturned a.ticket status)
  | complete (freeing : Bool) (status : Int32) : Aims a (.complete a.ticket freeing status)
  | dispatch : a.stage = .queued → Aims a (.dispatch a.pointer (some a.ticket))
  | beforeFree : a.stage = .queued → Aims a (.beforeFree a.pointer (some a.ticket))

inductive Label.Ends (ticket : Ticket) : Label → Prop where
  | postReturned (status : Int32) : Ends ticket (.postReturned ticket status)
  | complete (freeing : Bool) (status : Int32) : Ends ticket (.complete ticket freeing status)

/-- What happened to the buffer of a ticket, apart from the return of its post. -/
inductive Handling where
  | begun (pointer : Nat)
  | taken (freeing : Bool) (pointer : Nat)
  | completed (freeing : Bool) (status : Int32)
  deriving DecidableEq

def Label.handling (ticket : Ticket) : Label → Option Handling
  | .begin pointer (.ok other) => if other = ticket then some (.begun pointer) else none
  | .dispatch pointer (some other) => if other = ticket then some (.taken false pointer) else none
  | .beforeFree pointer (some other) => if other = ticket then some (.taken true pointer) else none
  | .complete other freeing status =>
    if other = ticket then some (.completed freeing status) else none
  | _ => none

def Label.posting (ticket : Ticket) : Label → Option Int32
  | .postReturned other status => if other = ticket then some status else none
  | _ => none

/-- The history that a slot without a fault must have had. -/
def Active.history (a : Active) : List Handling :=
  match a.stage with
  | .queued => [.begun a.pointer]
  | .executing => [.begun a.pointer, .taken false a.pointer]
  | .executed => [.begun a.pointer, .taken false a.pointer, .completed false 0]
  | .freeing => [.begun a.pointer, .taken true a.pointer]
  | .freed => [.begun a.pointer, .taken true a.pointer, .completed true 0]

def Active.posts (a : Active) : List Int32 := if a.postReturned then [0] else []

inductive Effect (t : Tracker) (label : Label) (t' : Tracker) : Prop where
  | spared (slots : t'.slots = t.slots) (counts : SameCounts t t')
      (silent : t'.fault = 0 → ∀ ticket, label.handling ticket = none ∧ label.posting ticket = none)
  | accepted {ticket : Ticket} {pointer : Nat} (named : label = .begin pointer (.ok ticket))
      (accepts : Accepts t t' ticket pointer)
  | advanced {a a' : Active} (aims : label.Aims a) (advances : Advances t t' a a')
      (ends : a'.finished = true → label.Ends a.ticket)
      (logged : t'.fault = 0 → a'.history = a.history ++ (label.handling a.ticket).toList ∧
        a'.posts = a.posts ++ (label.posting a.ticket).toList)

variable {t : Tracker}

theorem sameCounts_fail (status : Int32) : SameCounts t (t.fail status) := ⟨rfl, rfl, rfl, rfl⟩

theorem fault_fail (status : Int32) :
    (t.fail status).fault = if t.fault = 0 then status else t.fault := rfl

variable {status : Int32} {pointer : Nat} {a : Active} {before after : List Active}

theorem fail_ne_zero (nonzero : status ≠ 0) : (t.fail status).fault ≠ 0 := by
  rw [fault_fail]
  split
  · exact nonzero
  next faulted => exact faulted

theorem contractError_ne_zero : contractError ≠ 0 := by decide

/-- A step that only reports a fault says nothing about any ticket, because the fault shows. -/
theorem effect_fail (label : Label) (nonzero : status ≠ 0) : Effect t label (t.fail status) :=
  .spared rfl (sameCounts_fail status) fun fine => absurd fine (fail_ne_zero nonzero)

theorem Tracker.begin_cases (t : Tracker) (pointer : Nat) :
    (∃ rejection, t.begin pointer = (.error rejection, (t.fail contractError).countRejected)) ∨
      (t.closed = true ∧ t.begin pointer = (.error .release, t.countRejected)) ∨
      ∃ index sequence, t.closed = false ∧ pointer ≠ 0 ∧
        (∀ a ∈ t.live, isQueued pointer a = false) ∧ t.slots.vacant = some index ∧
        checkedAdd t.diagnostic.accepted 1 = some sequence ∧
        t.begin pointer = (.ok ⟨sequence⟩, t.accept index sequence pointer) := by
  unfold Tracker.begin
  dsimp only
  cases duplicate : t.slots.live.any (isQueued pointer) with
  | true => exact .inl ⟨_, rfl⟩
  | false =>
    rw [if_neg Bool.false_ne_true]
    by_cases refused : pointer = 0 ∨ t.slots.vacant = none ∨
        checkedAdd t.diagnostic.accepted 1 = none
    · rw [if_pos refused]
      exact .inl ⟨.release, if_pos rfl⟩
    rw [if_neg refused]
    simp only [not_or] at refused
    obtain ⟨nonzero, vacant, room⟩ := refused
    obtain ⟨index, found⟩ := Option.ne_none_iff_exists'.mp vacant
    obtain ⟨sequence, counted⟩ := Option.ne_none_iff_exists'.mp room
    right
    cases closed : t.diagnostic.closed with
    | true => exact .inl ⟨closed, rfl⟩
    | false => grind

theorem begin_accepts {ticket : Ticket} (went : (t.begin pointer).1 = .ok ticket) :
    Accepts t (t.begin pointer).2 ticket pointer := by
  rcases t.begin_cases pointer with ⟨rejection, refused⟩ | ⟨_, refused⟩ |
    ⟨index, sequence, isOpen, nonzero, unqueued, found, counted, accepted⟩
  · rw [refused] at went
    cases went
  · rw [refused] at went
    cases went
  rw [accepted] at went ⊢
  obtain rfl := Except.ok.inj went
  obtain ⟨before, after, split, put⟩ := Slots.live_put found
  exact
    { isOpen, nonzero, unqueued, accepted := rfl, processed := rfl, dropped := rfl,
      pending := rfl, next := Machine.checkedAdd_eq_some counted,
      inserted := ⟨before, after, split, put _⟩ }

theorem begin_effect (pointer : Nat) :
    Effect t (.begin pointer (t.begin pointer).1) (t.begin pointer).2 := by
  have accepts (ticket : Ticket) (went : (t.begin pointer).1 = .ok ticket) := begin_accepts went
  rcases t.begin_cases pointer with ⟨_, same⟩ | ⟨_, same⟩ | ⟨_, _, _, _, _, _, _, same⟩ <;>
    rw [same] at accepts ⊢
  · exact .spared rfl ⟨rfl, rfl, rfl, rfl⟩ fun _ _ => ⟨rfl, rfl⟩
  · exact .spared rfl ⟨rfl, rfl, rfl, rfl⟩ fun _ _ => ⟨rfl, rfl⟩
  · exact .accepted rfl (accepts _ rfl)

theorem retire_advances {marked : Tracker} {a' : Active} (split : t.live = before ++ a :: after)
    (marks : marked.live = before ++ a' :: after)
    (first : ∀ b ∈ before, (b.ticket == a.ticket) = false) (counts : SameCounts t marked)
    (ticket : a'.ticket = a.ticket) (pointer : a'.pointer = a.pointer)
    (unqueues : a'.stage = .queued → a.stage = .queued) :
    Advances t (marked.retire a.ticket) a a' := by
  have own : (a'.ticket == a.ticket) = true := beq_iff_eq.mpr ticket
  have found : marked.slots.find? (·.ticket == a.ticket) = some a' :=
    Slots.find_of_split marks own first
  cases finished : a'.finished with
  | false =>
    have kept : marked.retire a.ticket = marked := by
      simp only [retire, found, finished, if_true]
    rw [kept]
    exact
      { ticket, pointer, unqueues
        replaced := ⟨before, after, split, by rw [marks, finished]; rfl⟩
        accepted := counts.accepted
        processed := by simp [counts.processed, finished]
        dropped := by simp [counts.dropped, finished]
        pending := by simp [counts.pending, finished] }
  | true =>
    have cleared : (marked.slots.alter (·.ticket == a.ticket) fun _ => none).live =
        before ++ ([] ++ after) := Slots.live_alter marks own first
    have retired : (marked.retire a.ticket).live = before ++ ([] ++ after) ∧
        (marked.retire a.ticket).diagnostic.accepted = marked.diagnostic.accepted ∧
        (marked.retire a.ticket).diagnostic.pending = marked.diagnostic.pending - 1 := by
      simp only [retire, found, finished, Bool.true_eq_false, if_false]
      refine ⟨cleared, ?_, ?_⟩ <;> split <;> rfl
    exact
      { ticket, pointer, unqueues
        replaced := ⟨before, after, split, by rw [retired.1, finished]; rfl⟩
        accepted := retired.2.1.trans counts.accepted
        processed := by
          simp only [retire, found, finished, Bool.true_eq_false, if_false]
          by_cases executed : a'.stage = .executed <;> simp [executed, counts.processed]
        dropped := by
          simp only [retire, found, finished, Bool.true_eq_false, if_false]
          by_cases executed : a'.stage = .executed <;> simp [executed, counts.dropped]
        pending := by rw [retired.2.2, counts.pending, finished]; rfl }

variable (ticket : Ticket)

theorem retire_fault : (t.retire ticket).fault = t.fault := by
  unfold retire
  split
  · rfl
  · grind

theorem postReturned_effect (status : Int32) :
    Effect t (.postReturned ticket status) (t.postReturned ticket status) := by
  unfold Tracker.postReturned
  rcases t.slots.find_cases (·.ticket == ticket) with
    ⟨absent, _⟩ | ⟨a, before, after, found, own, split, first⟩
  · rw [absent]
    exact effect_fail _ contractError_ne_zero
  rw [found]
  obtain rfl := beq_iff_eq.mp own
  cases returned : a.postReturned with
  | true =>
    simp only [returned, if_true]
    exact effect_fail _ contractError_ne_zero
  | false =>
    simp only [returned, Bool.false_eq_true, if_false]
    generalize named : (t.mark (·.ticket == a.ticket) fun a =>
      { a with postReturned := true }) = marked
    have marks : marked.live = before ++ { a with postReturned := true } :: after :=
      named ▸ Slots.live_alter split own first
    have counts : SameCounts t marked := named ▸ ⟨rfl, rfl, rfl, rfl⟩
    by_cases failed : status ≠ 0
    · rw [if_pos failed]
      refine .advanced (.postReturned status)
        (retire_advances split marks first { counts with } rfl rfl id)
        (fun _ => .postReturned status) ?_
      rw [retire_fault]
      exact fun fine => absurd fine (fail_ne_zero failed)
    · rw [if_neg failed]
      refine .advanced (.postReturned status)
        (retire_advances split marks first counts rfl rfl id)
        (fun _ => .postReturned status) fun _ => ?_
      have clean : status = 0 := not_not.mp failed
      refine ⟨by simp [history, Label.handling], ?_⟩
      simp [posts, Label.posting, returned, clean]

theorem queued_of_isQueued (queued : isQueued pointer a = true) :
    a.pointer = pointer ∧ a.stage = .queued := by
  simpa [isQueued] using queued

/-- A queued slot that is found by its address goes into a stage that is not an end. -/
theorem mark_effect {label : Label} (stage : Stage) (split : t.live = before ++ a :: after)
    (found : isQueued pointer a = true)
    (first : ∀ b ∈ before, isQueued pointer b = false)
    (unfinished : stage = .executing ∨ stage = .freeing) (aims : label.Aims a)
    (logged : history { a with stage := stage } = a.history ++ (label.handling a.ticket).toList)
    (silent : label.posting a.ticket = none) :
    Effect t label (t.mark (isQueued pointer) fun a => { a with stage := stage }) := by
  have goesOn : finished { a with stage := stage } = false := by
    rcases unfinished with rfl | rfl <;> simp [finished]
  have advances : Advances t (t.mark (isQueued pointer) fun a => { a with stage := stage }) a
      { a with stage := stage } :=
    { ticket := rfl
      pointer := rfl
      unqueues := by grind
      replaced := ⟨before, after, split, by rw [goesOn]; exact Slots.live_alter split found first⟩
      accepted := rfl
      processed := by simp [mark, goesOn]
      dropped := by simp [mark, goesOn]
      pending := by simp [mark, goesOn] }
  have unended (finished : finished { a with stage := stage } = true) : label.Ends a.ticket :=
    absurd (goesOn.symm.trans finished) nofun
  refine .advanced aims advances unended fun _ => ⟨logged, ?_⟩
  simp [posts, silent]

theorem dispatch_effect (pointer : Nat) :
    Effect t (.dispatch pointer (t.dispatch pointer).1) (t.dispatch pointer).2 := by
  unfold Tracker.dispatch
  rcases t.slots.find_cases (isQueued pointer) with
    ⟨absent, _⟩ | ⟨a, before, after, found, queued, split, first⟩
  · rw [absent]
    exact effect_fail _ contractError_ne_zero
  · rw [found]
    obtain ⟨rfl, stage⟩ := queued_of_isQueued queued
    refine mark_effect .executing split queued first (.inl rfl) (.dispatch stage) ?_ rfl
    simp [history, stage, Label.handling]

theorem beforeFree_effect (pointer : Nat) :
    Effect t (.beforeFree pointer (t.beforeFree pointer).1) (t.beforeFree pointer).2 := by
  unfold Tracker.beforeFree
  rcases t.slots.find_cases (isQueued pointer) with
    ⟨absent, _⟩ | ⟨a, before, after, found, queued, split, first⟩
  · rw [absent]
    exact .spared rfl ⟨rfl, rfl, rfl, rfl⟩ fun _ _ => ⟨rfl, rfl⟩
  · rw [found]
    obtain ⟨rfl, stage⟩ := queued_of_isQueued queued
    refine mark_effect .freeing split queued first (.inr rfl) (.beforeFree stage) ?_ rfl
    simp [history, stage, Label.handling]

theorem complete_effect (freeing : Bool) (status : Int32) :
    Effect t (.complete ticket freeing status) (t.complete ticket freeing status) := by
  unfold Tracker.complete
  rcases t.slots.find_cases (·.ticket == ticket) with
    ⟨absent, _⟩ | ⟨a, before, after, found, own, split, first⟩
  · rw [absent]
    exact effect_fail _ contractError_ne_zero
  rw [found]
  obtain rfl := beq_iff_eq.mp own
  dsimp only
  have marks : (t.mark (·.ticket == a.ticket) fun a => { a with stage := .done freeing }).live =
      before ++ { a with stage := .done freeing } :: after := Slots.live_alter split own first
  have ended : Stage.done freeing = .queued → a.stage = .queued := by
    cases freeing <;> exact nofun
  split_ifs with unexpected kept failed
  · exact effect_fail _ contractError_ne_zero
  · exact effect_fail _ kept.2
  · refine .advanced (.complete freeing status)
      (retire_advances split marks first ⟨rfl, rfl, rfl, rfl⟩ rfl rfl ended)
      (fun _ => .complete freeing status) ?_
    rw [retire_fault]
    exact fun fine => absurd fine (fail_ne_zero failed.2)
  refine .advanced (.complete freeing status)
    (retire_advances split marks first ⟨rfl, rfl, rfl, rfl⟩ rfl rfl ended)
    (fun _ => .complete freeing status) ?_
  have expected : a.stage = .expected freeing := not_not.mp unexpected
  have clean : status = 0 := by
    by_contra nonzero
    cases freeing with
    | true => exact kept ⟨rfl, nonzero⟩
    | false => grind
  intro _
  refine ⟨?_, by simp [posts, Label.posting]⟩
  cases freeing <;>
    simp [history, Label.handling, expected, clean, Stage.expected, Stage.done]

theorem step_effect {label : Label} {t' : Tracker} (step : Step t label t') :
    Effect t label t' := by
  have quiet (slots : t'.slots = t.slots) (counts : SameCounts t t')
      (silent : ∀ ticket, label.handling ticket = none ∧ label.posting ticket = none) :
      Effect t label t' := .spared slots counts fun _ => silent
  cases step with
  | begin pointer => exact begin_effect pointer
  | postReturned ticket status => exact postReturned_effect ticket status
  | dispatch pointer => exact dispatch_effect pointer
  | beforeFree pointer => exact beforeFree_effect pointer
  | complete ticket freeing status => exact complete_effect ticket freeing status
  | close | sealAdmission | fail _ => exact quiet rfl ⟨rfl, rfl, rfl, rfl⟩ fun _ => ⟨rfl, rfl⟩
  | resumeHandshake =>
    unfold Tracker.resumeHandshake at quiet ⊢
    split_ifs at quiet ⊢ <;> exact quiet rfl ⟨rfl, rfl, rfl, rfl⟩ fun _ => ⟨rfl, rfl⟩

end HisiRf.HostTx
