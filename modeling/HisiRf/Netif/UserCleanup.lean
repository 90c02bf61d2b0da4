import HisiRf.Interaction.Transition
import HisiRf.Machine.Word
import HisiRf.Storage.Slots
import Mathlib.Data.List.Nodup

/-! The checked teardown of native users.

The native delete routine drops the status of the final free, so the tracker
matches the nested free to its delete by the user's address and by a ticket that
is never given out again. A free that is missing, failed or seen twice is a
fault, and one fault decides the result of every later delete.
-/

namespace HisiRf.UserCleanup

open Interaction List
open Machine (checkedAdd saturatingAdd)
open Storage (Slots)

def capacity : Nat := 4
def contractError : UInt32 := 0xffffff01

structure Ticket where
  raw : UInt64
  deriving DecidableEq

inductive Free where
  | notSeen
  | running
  | returned (status : UInt32)
  | invalid
  deriving DecidableEq

structure Active where
  ticket : Ticket
  user : Nat
  free : Free

structure UserCleanupDiagnostics where
  entered : UInt64
  completed : UInt64
  active : UInt32
  freeCompleted : UInt64
  unscopedFree : UInt64
  fault : UInt32
  lastOuterStatus : UInt32
  lastFreeStatus : Option UInt32
  lastCheckedStatus : UInt32

structure Tracker where
  slots : Slots Active capacity
  issued : UInt64
  diagnostic : UserCleanupDiagnostics

def Free.status : Free → Option UInt32
  | .returned status => some status
  | _ => none

/-- What a delete that took the slot `a` has to report by itself. -/
def Active.checked (a : Active) (outer : UInt32) : UInt32 :=
  if outer ≠ 0 then outer else a.free.status.getD contractError

namespace Tracker

def new : Tracker := ⟨.empty, 0, ⟨0, 0, 0, 0, 0, 0, 0, none, 0⟩⟩

abbrev live (t : Tracker) : List Active := t.slots.live

abbrev fault (t : Tracker) : UInt32 := t.diagnostic.fault

def fail (t : Tracker) (status : UInt32) : Tracker :=
  { t with
    diagnostic :=
      { t.diagnostic with fault := if t.fault = 0 then status else t.fault } }

def checkedStatus (t : Tracker) (status : UInt32) : UInt32 :=
  if status ≠ 0 then status else t.fault

def handshakeStatus (t : Tracker) : UInt32 :=
  if t.fault ≠ 0 then t.fault
  else if t.diagnostic.active ≠ 0 then contractError
  else 0

/-- The record with one more delete, in the slot that was found vacant. -/
def enter (t : Tracker) (index : Nat) (sequence : UInt64) (user : Nat) : Tracker :=
  { t with
    slots := t.slots.put index ⟨⟨sequence⟩, user, .notSeen⟩
    issued := sequence
    diagnostic :=
      { t.diagnostic with entered := sequence, active := t.diagnostic.active + 1 } }

def begin (t : Tracker) (user : Nat) : Option Ticket × Tracker :=
  if user = 0 ∨ t.live.any (·.user == user) then (none, t.fail contractError)
  else
    match t.slots.vacant, checkedAdd t.issued 1 with
    | some index, some sequence => (some ⟨sequence⟩, t.enter index sequence user)
    | _, _ => (none, t.fail contractError)

def mark (t : Tracker) (fits : Active → Bool) (free : Free) : Tracker :=
  { t with slots := t.slots.alter fits fun a => some { a with free := free } }

def beginFree (t : Tracker) (user : Nat) : Option Ticket × Tracker :=
  match t.slots.find? (·.user == user) with
  | none =>
    -- Frees outside a delete are native business and satisfy no delete.
    (none, { t with diagnostic :=
      { t.diagnostic with unscopedFree := saturatingAdd t.diagnostic.unscopedFree 1 } })
  | some a =>
    if a.free ≠ .notSeen then (none, (t.mark (·.user == user) .invalid).fail contractError)
    else (some a.ticket, t.mark (·.user == user) .running)

def finishFree (t : Tracker) (ticket : Ticket) (status : UInt32) : Tracker :=
  match t.slots.find? (·.ticket == ticket) with
  | none => t.fail contractError
  | some a =>
    if a.free ≠ .running then (t.mark (·.ticket == ticket) .invalid).fail contractError
    else
      let marked := t.mark (·.ticket == ticket) (.returned status)
      let counted :=
        { marked with diagnostic :=
          { marked.diagnostic with
            freeCompleted := saturatingAdd marked.diagnostic.freeCompleted 1 } }
      if status ≠ 0 then counted.fail status else counted

/-- The record without the slot of the delete, which was `a`. -/
def leave (t : Tracker) (a : Active) (outer : UInt32) : Tracker :=
  { t with
    slots := t.slots.alter (·.ticket == a.ticket) fun _ => none
    diagnostic :=
      { t.diagnostic with
        active := t.diagnostic.active - 1
        completed := t.diagnostic.completed + 1
        lastOuterStatus := outer
        lastFreeStatus := a.free.status } }

def finish (t : Tracker) (ticket : Option Ticket) (outer : UInt32) : UInt32 × Tracker :=
  match ticket.bind fun ticket => t.slots.find? (·.ticket == ticket) with
  | none => (contractError, t.fail contractError)
  | some a =>
    let left := t.leave a outer
    let told := if a.checked outer ≠ 0 then left.fail (a.checked outer) else left
    -- An earlier fault of this boot shows here in place of a success.
    (told.fault, { told with diagnostic :=
      { told.diagnostic with lastCheckedStatus := told.fault } })

end Tracker

/-- A call of one of the tracker's methods, with what it returned. -/
inductive Label where
  | begin (user : Nat) (result : Option Ticket)
  | beginFree (user : Nat) (result : Option Ticket)
  | finishFree (ticket : Ticket) (status : UInt32)
  | finish (ticket : Option Ticket) (outer result : UInt32)

open Label

inductive Step (t : Tracker) : Label → Tracker → Prop where
  | begin (user : Nat) : Step t (.begin user (t.begin user).1) (t.begin user).2
  | beginFree (user : Nat) : Step t (.beginFree user (t.beginFree user).1) (t.beginFree user).2
  | finishFree (ticket : Ticket) (status : UInt32) :
      Step t (.finishFree ticket status) (t.finishFree ticket status)
  | finish (ticket : Option Ticket) (outer : UInt32) :
      Step t (.finish ticket outer (t.finish ticket outer).1) (t.finish ticket outer).2

def trackerSystem : System Tracker Label := ⟨Step⟩

structure SameCounts (t t' : Tracker) : Prop where
  issued : t'.issued = t.issued
  entered : t'.diagnostic.entered = t.diagnostic.entered
  completed : t'.diagnostic.completed = t.diagnostic.completed
  active : t'.diagnostic.active = t.diagnostic.active

structure Enters (t t' : Tracker) (ticket : Ticket) (user : Nat) : Prop where
  nonzero : user ≠ 0
  distinct : ∀ a ∈ t.live, a.user ≠ user
  next : ticket.raw.toNat = t.issued.toNat + 1
  live : t'.live.Perm (⟨ticket, user, .notSeen⟩ :: t.live)
  issued : t'.issued = ticket.raw
  entered : t'.diagnostic.entered = ticket.raw
  completed : t'.diagnostic.completed = t.diagnostic.completed
  active : t'.diagnostic.active = t.diagnostic.active + 1

structure Leaves (t t' : Tracker) (a : Active) : Prop where
  live : t.live.Perm (a :: t'.live)
  issued : t'.issued = t.issued
  entered : t'.diagnostic.entered = t.diagnostic.entered
  completed : t'.diagnostic.completed = t.diagnostic.completed + 1
  active : t'.diagnostic.active = t.diagnostic.active - 1

def Label.begins (ticket : Ticket) : Label → Bool
  | .begin _ (some other) => other == ticket
  | _ => false

def Label.freeing (user : Nat) : Label → Bool
  | .beginFree other _ => other == user
  | _ => false

/-- The status with which a free under this ticket returned. -/
def Label.freed (ticket : Ticket) : Label → Option UInt32
  | .finishFree other status => if other = ticket then some status else none
  | _ => none

def freesBegun (user : Nat) (labels : List Label) : Nat := labels.countP (freeing user)

def freesReturned (ticket : Ticket) (labels : List Label) : List UInt32 :=
  labels.filterMap (freed ticket)

/-- How many frees a slot has seen begun, and the statuses of those that returned. -/
def Free.begun : Free → Nat
  | .notSeen => 0
  | _ => 1

abbrev Free.returns (free : Free) : List UInt32 := free.status.toList

inductive Effect (t : Tracker) (label : Label) (t' : Tracker) : Prop where
  | spared (slots : t'.slots = t.slots) (counts : SameCounts t t')
      (unbegun : ∀ ticket, label.begins ticket = false)
      (silent : t'.fault = 0 → ∀ a ∈ t.live,
        label.freeing a.user = false ∧ label.freed a.ticket = none)
  | entered {ticket : Ticket} {user : Nat} (named : label = .begin user (some ticket))
      (enters : Enters t t' ticket user)
  | freed {a : Active} {free : Free} {rest : List Active} (before : t.live.Perm (a :: rest))
      (after : t'.live.Perm ({ a with free := free } :: rest)) (counts : SameCounts t t')
      (aims : label.freeing a.user = true ∨ ∃ status, label = .finishFree a.ticket status)
      (logged : t'.fault = 0 → free.begun = a.free.begun + (label.freeing a.user).toNat ∧
        free.returns = a.free.returns ++ (label.freed a.ticket).toList)
      (unbegun : ∀ ticket, label.begins ticket = false)
  | left {a : Active} {outer result : UInt32} (named : label = .finish (some a.ticket) outer result)
      (leaves : Leaves t t' a)

variable {t : Tracker}

theorem fail_ne_zero {status : UInt32} (nonzero : status ≠ 0) : (t.fail status).fault ≠ 0 := by
  change (if t.fault = 0 then status else t.fault) ≠ 0
  split
  · exact nonzero
  next faulted => exact faulted

theorem contractError_ne_zero : contractError ≠ 0 := by decide

variable {label : Label} {t' : Tracker}

theorem effect_fail (unbegun : ∀ ticket, label.begins ticket = false) :
    Effect t label (t.fail contractError) :=
  .spared rfl ⟨rfl, rfl, rfl, rfl⟩ unbegun fun fine => absurd fine (fail_ne_zero contractError_ne_zero)

theorem begin_cases (user : Nat) : t.begin user = (none, t.fail contractError) ∨
      ∃ ticket, (t.begin user).1 = some ticket ∧ Enters t (t.begin user).2 ticket user := by
  unfold Tracker.begin
  split_ifs with refused
  · exact .inl rfl
  simp only [not_or, any_eq_true, not_exists, not_and, beq_iff_eq] at refused
  cases vacant : t.slots.vacant with
  | none => exact .inl rfl
  | some =>
    cases counted : checkedAdd t.issued 1 with
    | none => exact .inl rfl
    | some sequence =>
      exact .inr ⟨⟨sequence⟩, rfl,
        { nonzero := refused.1
          distinct := refused.2
          next := Machine.checkedAdd_eq_some counted
          live := Slots.perm_put vacant _
          issued := rfl
          entered := rfl
          completed := rfl
          active := rfl }⟩

theorem begin_effect (user : Nat) : Effect t (.begin user (t.begin user).1) (t.begin user).2 := by
  rcases begin_cases (t := t) user with refused | ⟨ticket, named, enters⟩
  · rw [refused]
    exact effect_fail fun _ => rfl
  · rw [named]
    exact .entered rfl enters

theorem beginFree_effect (user : Nat) :
    Effect t (.beginFree user (t.beginFree user).1) (t.beginFree user).2 := by
  unfold Tracker.beginFree
  cases found : t.slots.find? (·.user == user) with
  | none =>
    refine .spared rfl ⟨rfl, rfl, rfl, rfl⟩ (fun _ => rfl) ?_
    intro _ a live
    have other : a.user ≠ user := fun same =>
      find?_eq_none.mp found a live (beq_iff_eq.mpr same)
    exact ⟨beq_eq_false_iff_ne.mpr other.symm, rfl⟩
  | some =>
    obtain ⟨own, rest, before, after⟩ := Slots.perm_alter found
    obtain rfl := beq_iff_eq.mp own
    dsimp only
    split_ifs with seen
    · exact .freed before (after _) ⟨rfl, rfl, rfl, rfl⟩ (.inl (by simp [freeing]))
        (fun fine => absurd fine (fail_ne_zero contractError_ne_zero)) fun _ => rfl
    · refine .freed before (after _) ⟨rfl, rfl, rfl, rfl⟩ (.inl (by simp [freeing])) ?_
        fun _ => rfl
      simp [not_not.mp seen, Free.begun, Free.returns, Free.status, freeing, freed]

theorem finishFree_effect (ticket : Ticket) (status : UInt32) :
    Effect t (.finishFree ticket status) (t.finishFree ticket status) := by
  unfold Tracker.finishFree
  cases found : t.slots.find? (·.ticket == ticket) with
  | none => exact effect_fail fun _ => rfl
  | some =>
    obtain ⟨own, rest, before, after⟩ := Slots.perm_alter found
    obtain rfl := beq_iff_eq.mp own
    dsimp only
    split_ifs with early failed
    · exact .freed before (after _) ⟨rfl, rfl, rfl, rfl⟩ (.inr ⟨status, rfl⟩)
        (fun fine => absurd fine (fail_ne_zero contractError_ne_zero)) fun _ => rfl
    · exact .freed before (after _) ⟨rfl, rfl, rfl, rfl⟩ (.inr ⟨status, rfl⟩)
        (fun fine => absurd fine (fail_ne_zero failed)) fun _ => rfl
    · refine .freed before (after _) ⟨rfl, rfl, rfl, rfl⟩ (.inr ⟨status, rfl⟩) ?_ fun _ => rfl
      simp [not_not.mp early, Free.begun, Free.returns, Free.status, freeing, freed]

theorem leave_leaves {a : Active} (outer : UInt32)
    (found : t.slots.find? (·.ticket == a.ticket) = some a) : Leaves t (t.leave a outer) a := by
  obtain ⟨_, rest, before, after⟩ := Slots.perm_alter found
  exact
    { live := before.trans ((after fun _ => none).symm.cons a)
      issued := rfl
      entered := rfl
      completed := rfl
      active := rfl }

theorem finish_cases (ticket : Option Ticket) (outer : UInt32) :
    ((∀ a ∈ t.live, ticket ≠ some a.ticket) ∧
        t.finish ticket outer = (contractError, t.fail contractError)) ∨
      ∃ a ∈ t.live, ticket = some a.ticket ∧ Leaves t (t.finish ticket outer).2 a ∧
        (t.finish ticket outer).2.fault = (t.finish ticket outer).1 ∧ (t.finish ticket outer).1 =
          if t.fault = 0 then a.checked outer else t.fault := by
  unfold Tracker.finish
  cases found : ticket.bind fun ticket => t.slots.find? (·.ticket == ticket) with
  | none =>
    refine .inl ⟨?_, rfl⟩
    rintro a live rfl
    have absent := find?_eq_none.mp found a live
    exact absent (beq_self_eq_true a.ticket)
  | some a =>
    obtain ⟨key, rfl, slot⟩ := Option.bind_eq_some_iff.mp found
    obtain ⟨own, rest, before, _⟩ := Slots.perm_alter slot
    obtain rfl := beq_iff_eq.mp own
    have leaves := leave_leaves outer slot
    refine .inr ⟨a, before.mem_iff.mpr mem_cons_self, rfl, ?_, rfl, ?_⟩
    · dsimp only
      split <;> exact { leaves with }
    · dsimp only
      split_ifs with reported unfaulted unfaulted
      · exact if_pos unfaulted
      · exact if_neg unfaulted
      · exact unfaulted.trans (not_not.mp reported).symm
      · rfl

theorem finish_effect (ticket : Option Ticket) (outer : UInt32) :
    Effect t (.finish ticket outer (t.finish ticket outer).1) (t.finish ticket outer).2 := by
  rcases finish_cases (t := t) ticket outer with ⟨_, refused⟩ | ⟨a, _, rfl, leaves, _⟩
  · rw [refused]
    exact effect_fail fun _ => rfl
  · exact .left rfl leaves

theorem step_effect (step : Step t label t') : Effect t label t' := by
  cases step with
  | begin user => exact begin_effect user
  | beginFree user => exact beginFree_effect user
  | finishFree ticket status => exact finishFree_effect ticket status
  | finish ticket outer => exact finish_effect ticket outer

theorem step_faulted (step : Step t label t') (faulted : t.fault ≠ 0) : t'.fault = t.fault := by
  have kept (marked : Tracker) (same : marked.fault = t.fault) (status : UInt32) :
      (marked.fail status).fault = t.fault := by
    change (if marked.fault = 0 then status else marked.fault) = t.fault
    rw [same, if_neg faulted]
  cases step with
  | begin =>
    unfold Tracker.begin
    split_ifs
    · exact kept t rfl _
    · split
      · rfl
      · exact kept t rfl _
  | beginFree =>
    unfold Tracker.beginFree
    split
    · rfl
    · split_ifs
      · exact kept _ rfl _
      · rfl
  | finishFree =>
    unfold Tracker.finishFree
    split
    · exact kept t rfl _
    · dsimp only
      split_ifs
      · exact kept _ rfl _
      · exact kept _ rfl _
      · rfl
  | finish ticket outer =>
    rcases finish_cases (t := t) ticket outer with ⟨_, refused⟩ | ⟨a, _, _, _, told, result⟩ <;>
      grind

variable {labels : List Label}

structure Orderly (live : List Active) (issued : Nat) : Prop where
  tickets : (live.map Active.ticket).Nodup
  bounded : ∀ a ∈ live, a.ticket.raw.toNat ≤ issued
  users : (live.map Active.user).Nodup
  nonzero : ∀ a ∈ live, a.user ≠ 0

variable {issued : Nat} {a : Active} {rest : List Active} {user : Nat} {ticket : Ticket}

theorem Orderly.perm {first second : List Active} (same : first.Perm second)
    (orderly : Orderly first issued) : Orderly second issued where
  tickets := (same.map _).nodup_iff.mp orderly.tickets
  bounded := fun a member => orderly.bounded a (same.mem_iff.mpr member)
  users := (same.map _).nodup_iff.mp orderly.users
  nonzero := fun a member => orderly.nonzero a (same.mem_iff.mpr member)

theorem Orderly.tail (orderly : Orderly (a :: rest) issued) : Orderly rest issued where
  tickets := (nodup_cons.mp orderly.tickets).2
  bounded := (forall_mem_cons.mp orderly.bounded).2
  users := (nodup_cons.mp orderly.users).2
  nonzero := (forall_mem_cons.mp orderly.nonzero).2

theorem Orderly.enter (orderly : Orderly rest issued) (next : ticket.raw.toNat = issued + 1)
    (nonzero : user ≠ 0) (distinct : ∀ a ∈ rest, a.user ≠ user) :
    Orderly (⟨ticket, user, .notSeen⟩ :: rest) (issued + 1) where
  tickets := by
    simp only [map_cons, nodup_cons, mem_map, not_exists, not_and]
    refine ⟨?_, orderly.tickets⟩
    rintro a live rfl
    have bound := orderly.bounded a live
    omega
  bounded := forall_mem_cons.mpr
    ⟨Nat.le_of_eq next, fun a live => Nat.le_succ_of_le (orderly.bounded a live)⟩
  users := by
    simp only [map_cons, nodup_cons, mem_map, not_exists, not_and]
    exact ⟨distinct, orderly.users⟩
  nonzero := forall_mem_cons.mpr ⟨nonzero, orderly.nonzero⟩

theorem Orderly.refree (free : Free) (orderly : Orderly (a :: rest) issued) :
    Orderly ({ a with free := free } :: rest) issued where
  tickets := orderly.tickets
  bounded := forall_mem_cons.mpr (forall_mem_cons.mp orderly.bounded)
  users := orderly.users
  nonzero := forall_mem_cons.mpr (forall_mem_cons.mp orderly.nonzero)

structure Accounted (t : Tracker) : Prop where
  orderly : Orderly t.live t.issued.toNat
  entered : t.diagnostic.entered = t.issued
  balance : t.diagnostic.entered.toNat = t.diagnostic.completed.toNat + t.live.length
  active : t.diagnostic.active.toNat = t.live.length

theorem accounted_new : Accounted .new where
  orderly := ⟨nodup_nil, nofun, nodup_nil, nofun⟩
  entered := rfl
  balance := rfl
  active := rfl

section

variable (accounted : Accounted t)
include accounted

theorem Accounted.enters (enters : Enters t t' ticket user) :
    Accounted t' := by
  have sequence : t'.issued.toNat = t.issued.toNat + 1 := by rw [enters.issued, enters.next]
  have length : t'.live.length = t.live.length + 1 := enters.live.length_eq
  have room : t'.live.length ≤ 4 := t'.slots.length_live_le
  have entered : t.diagnostic.entered.toNat = t.issued.toNat := by rw [accounted.entered]
  have balance := accounted.balance
  refine ⟨?_, enters.entered.trans enters.issued.symm, ?_, ?_⟩
  · rw [sequence]
    exact (accounted.orderly.enter enters.next enters.nonzero enters.distinct).perm enters.live.symm
  · rw [enters.entered, enters.next, enters.completed]
    omega
  · rw [enters.active, UInt32.toNat_add, accounted.active, UInt32.toNat_one]
    omega

theorem Accounted.leaves (leaves : Leaves t t' a) : Accounted t' := by
  have length : t.live.length = t'.live.length + 1 := leaves.live.length_eq
  have balance := accounted.balance
  have bound := t.diagnostic.entered.toNat_lt
  have active := accounted.active
  refine ⟨?_, ?_, ?_, ?_⟩
  · rw [leaves.issued]
    exact (accounted.orderly.perm leaves.live).tail
  · rw [leaves.entered, leaves.issued, accounted.entered]
  · rw [leaves.entered, leaves.completed, UInt64.toNat_add, UInt64.toNat_one]
    omega
  · have one : (1 : UInt32) ≤ t.diagnostic.active := by
      rw [UInt32.le_iff_toNat_le, UInt32.toNat_one]
      omega
    rw [leaves.active, UInt32.toNat_sub_of_le _ _ one, UInt32.toNat_one]
    omega

theorem Accounted.same (counts : SameCounts t t')
    (orderly : Orderly t'.live t.issued.toNat) (length : t'.live.length = t.live.length) :
    Accounted t' := by
  refine ⟨?_, ?_, ?_, ?_⟩
  · rwa [counts.issued]
  · rw [counts.entered, counts.issued, accounted.entered]
  · rw [counts.entered, counts.completed, length, accounted.balance]
  · rw [counts.active, length, accounted.active]

theorem Accounted.step (step : Step t label t') : Accounted t' := by
  cases step_effect step with
  | spared slots counts =>
    have live : t'.live = t.live := congrArg Slots.live slots
    exact accounted.same counts (live ▸ accounted.orderly) (congrArg length live)
  | entered _ enters => exact accounted.enters enters
  | freed before after counts =>
    refine accounted.same counts ?_ (after.length_eq.trans before.length_eq.symm)
    exact ((accounted.orderly.perm before).refree _).perm after.symm
  | left _ leaves => exact accounted.leaves leaves

end

theorem Accounted.of_run (run : Run trackerSystem .new labels t) : Accounted t :=
  run.invariant (fun _ _ _ accounted step => accounted.step step) accounted_new

/-- The frees since a delete was entered are those that its slot shows. -/
structure Followed (a : Active) (labels : List Label) : Prop where
  entered : .begin a.user (some a.ticket) ∈ labels
  begun : freesBegun a.user (since (begins a.ticket) labels) = a.free.begun
  returned : freesReturned a.ticket (since (begins a.ticket) labels) = a.free.returns

variable {outer : UInt32}

theorem Followed.extend (free : Free) (followed : Followed a labels)
    (unbegun : label.begins a.ticket = false)
    (begun : free.begun = a.free.begun + (label.freeing a.user).toNat)
    (returned : free.returns = a.free.returns ++ (label.freed a.ticket).toList) :
    Followed { a with free := free } (labels ++ [label]) := by
  have still : since (begins a.ticket) (labels ++ [label]) =
      since (begins a.ticket) labels ++ [label] := by
    rw [since_concat, unbegun, if_neg Bool.false_ne_true]
  refine ⟨mem_append_left _ followed.entered, ?_, ?_⟩
  · grind [freesBegun, begun]
  · change freesReturned a.ticket _ = _
    have statuses := followed.returned
    unfold freesReturned at statuses ⊢
    rw [still, filterMap_concat, statuses, returned]

theorem Followed.quiet (followed : Followed a labels) (unbegun : label.begins a.ticket = false)
    (silent : label.freeing a.user = false ∧ label.freed a.ticket = none) :
    Followed a (labels ++ [label]) := by
  refine followed.extend a.free unbegun ?_ ?_
  · rw [silent.1]
    rfl
  · grind

theorem aims_silent {b : Active}
    (aims : label.freeing a.user = true ∨ ∃ status, label = .finishFree a.ticket status)
    (user : a.user ≠ b.user) (ticket : a.ticket ≠ b.ticket) :
    label.freeing b.user = false ∧ label.freed b.ticket = none := by
  rcases aims with freeing | ⟨status, rfl⟩
  · cases label with
    | beginFree other =>
      have same : other = a.user := beq_iff_eq.mp freeing
      exact ⟨beq_eq_false_iff_ne.mpr (same ▸ user), rfl⟩
    | _ => cases freeing
  · exact ⟨rfl, if_neg ticket⟩

theorem followed_step (accounted : Accounted t) (step : Step t label t') (fine : t'.fault = 0)
    (followed : ∀ a ∈ t.live, Followed a labels) : ∀ a ∈ t'.live, Followed a (labels ++ [label]) := by
  cases step_effect step with
  | spared slots _ unbegun silent =>
    intro a live
    have same : t'.live = t.live := congrArg Slots.live slots
    have before : a ∈ t.live := same ▸ live
    exact (followed a before).quiet (unbegun _) (silent fine a before)
  | @entered ticket user named enters =>
    subst named
    intro a live
    rcases mem_cons.mp (enters.live.mem_iff.mp live) with rfl | old
    · have started : since (begins ticket) (labels ++ [.begin user (some ticket)]) = [] := by
        rw [since_concat, begins, if_pos (beq_self_eq_true ticket)]
      refine ⟨by simp, ?_, ?_⟩
      · rw [started]
        rfl
      · rw [started]
        rfl
    -- The new ticket is larger than that of any delete still running.
    have fresh : (ticket == a.ticket) = false := by
      rw [beq_eq_false_iff_ne]
      rintro rfl
      have bound := accounted.orderly.bounded a old
      have next := enters.next
      omega
    exact (followed a old).quiet fresh ⟨rfl, rfl⟩
  | @freed a free rest before after _ aims logged unbegun =>
    have distinct := accounted.orderly.perm before
    obtain ⟨begun, returned⟩ := logged fine
    intro b live
    rcases mem_cons.mp (after.mem_iff.mp live) with rfl | other
    · have slot := followed a (before.mem_iff.mpr mem_cons_self)
      exact slot.extend free (unbegun _) begun returned
    · have user : a.user ≠ b.user := fun same =>
        (nodup_cons.mp distinct.users).1 (mem_map.mpr ⟨b, other, same.symm⟩)
      have ticket : a.ticket ≠ b.ticket := fun same =>
        (nodup_cons.mp distinct.tickets).1 (mem_map.mpr ⟨b, other, same.symm⟩)
      have slot := followed b (before.mem_iff.mpr (mem_cons_of_mem _ other))
      exact slot.quiet (unbegun _) (aims_silent aims user ticket)
  | left named leaves =>
    subst named
    intro b live
    have slot := followed b (leaves.live.mem_iff.mpr (mem_cons_of_mem _ live))
    exact slot.quiet rfl ⟨rfl, rfl⟩

theorem followed_of_run (run : Run trackerSystem .new labels t) (fine : t.fault = 0) :
    ∀ a ∈ t.live, Followed a labels := by
  induction run with
  | start => exact nofun
  | @next earlier before after label run step ih =>
    have unfaulted : before.fault = 0 := by
      by_contra faulted
      exact faulted ((step_faulted step faulted).symm.trans fine)
    exact followed_step (Accounted.of_run run) step fine (ih unfaulted)

theorem checked_eq_zero : a.checked outer = 0 ↔ outer = 0 ∧ a.free = .returned 0 := by
  unfold Active.checked
  by_cases failed : outer ≠ 0
  · simp [failed]
  · have contract := contractError_ne_zero
    cases free : a.free <;> simp_all [Free.status]

/-- A slot shows a free that returned zero exactly if it saw one free and one zero status. -/
theorem returned_iff {free : Free} : free = .returned 0 ↔ free.begun = 1 ∧ free.returns = [0] := by
  cases free <;> simp [Free.begun, Free.returns, Free.status]

theorem finish_eq_zero {ticket : Option Ticket} (run : Run trackerSystem .new labels t) :
    (t.finish ticket outer).1 = 0 ↔ outer = 0 ∧ t.fault = 0 ∧ ∃ a ∈ t.live,
      ticket = some a.ticket ∧ .begin a.user (some a.ticket) ∈ labels ∧
      freesBegun a.user (since (begins a.ticket) labels) = 1 ∧
      freesReturned a.ticket (since (begins a.ticket) labels) = [0] := by
  rcases finish_cases (t := t) ticket outer with ⟨absent, refused⟩ | ⟨a, live, rfl, _, _, result⟩
  · rw [refused]
    refine iff_of_false contractError_ne_zero ?_
    rintro ⟨_, _, a, live, named, _⟩
    exact absent a live named
  rw [result]
  by_cases fine : t.fault = 0
  · have followed := followed_of_run run fine a live
    rw [if_pos fine, checked_eq_zero, returned_iff, ← followed.begun, ← followed.returned]
    constructor
    · rintro ⟨rfl, logs⟩
      exact ⟨rfl, fine, a, live, rfl, followed.entered, logs⟩
    · rintro ⟨rfl, _, b, other, same, _, logs⟩
      have own := inj_on_of_nodup_map (Accounted.of_run run).orderly.tickets live other
        (Option.some.inj same)
      exact ⟨rfl, own ▸ logs⟩
  · grind

theorem beginFree_unscoped (unscoped : ∀ a ∈ t.live, a.user ≠ user) :
    (t.beginFree user).1 = none ∧ (t.beginFree user).2.slots = t.slots := by
  have absent : t.slots.find? (·.user == user) = none := by
    refine find?_eq_none.mpr fun a live => ?_
    simpa using unscoped a live
  unfold Tracker.beginFree
  rw [absent]
  exact ⟨rfl, rfl⟩

/-- A slot is changed by a free of its own user, by the return of its own free or by its own end. -/
theorem step_spares (step : Step t label t') (live : a ∈ t.live) :
    a ∈ t'.live ∨ label.freeing a.user = true ∨ (∃ status, label = .finishFree a.ticket status) ∨
      ∃ outer result, label = .finish (some a.ticket) outer result := by
  cases step_effect step with
  | entered _ enters => exact .inl (enters.live.mem_iff.mpr (mem_cons_of_mem _ live))
  | spared | freed => grind
  | left named leaves =>
    rcases mem_cons.mp (leaves.live.mem_iff.mp live) with rfl | other
    · grind
    · exact .inl other

theorem handshakeStatus_eq_zero (accounted : Accounted t) :
    t.handshakeStatus = 0 ↔ t.fault = 0 ∧ t.live = [] := by
  have counted : t.diagnostic.active = 0 ↔ t.live = [] := by
    rw [← UInt32.toNat_inj, accounted.active, UInt32.toNat_zero, length_eq_zero_iff]
  unfold Tracker.handshakeStatus
  have contract := contractError_ne_zero
  by_cases fine : t.fault = 0
  · grind
  · simp_all

/-- A delete ends with zero exactly if the native delete did, exactly one free of its own user was
begun since and returned zero under its own ticket, and no fault came before. No other free takes
part, the counters account for every delete, and a first fault is permanent. -/
theorem user_cleanup_checks_own_free (run : Run trackerSystem .new labels t) :
    (∀ ticket outer, (t.finish ticket outer).1 = 0 ↔ outer = 0 ∧ t.fault = 0 ∧ ∃ a ∈ t.live,
      ticket = some a.ticket ∧ .begin a.user (some a.ticket) ∈ labels ∧
      freesBegun a.user (since (Label.begins a.ticket) labels) = 1 ∧
      freesReturned a.ticket (since (Label.begins a.ticket) labels) = [0]) ∧
    (∀ user, (∀ a ∈ t.live, a.user ≠ user) →
      (t.beginFree user).1 = none ∧ (t.beginFree user).2.slots = t.slots) ∧
    (∀ label t', Step t label t' → ∀ a ∈ t.live, a ∈ t'.live ∨ label.freeing a.user = true ∨
      (∃ status, label = .finishFree a.ticket status) ∨
      ∃ outer result, label = .finish (some a.ticket) outer result) ∧
    t.diagnostic.entered.toNat = t.diagnostic.completed.toNat + t.diagnostic.active.toNat ∧
    t.diagnostic.active.toNat = t.live.length ∧ t.live.length ≤ 4 ∧
    (t.live.map Active.user).Nodup ∧ (∀ a ∈ t.live, a.user ≠ 0) ∧
    (t.fault ≠ 0 → ∀ more t', Run trackerSystem t more t' → t'.fault = t.fault) ∧
    (t.handshakeStatus = 0 ↔ t.fault = 0 ∧ t.live = []) := by
  have accounted := Accounted.of_run run
  refine ⟨fun ticket outer => finish_eq_zero run, fun user => beginFree_unscoped,
    fun label t' step a live => step_spares step live, ?_, accounted.active,
    t.slots.length_live_le, accounted.orderly.users, accounted.orderly.nonzero, ?_,
    handshakeStatus_eq_zero accounted⟩
  · rw [accounted.active]
    exact accounted.balance
  · intro faulted more t' further
    have keeps (u : Tracker) (label : Label) (v : Tracker) (same : u.fault = t.fault)
        (step : trackerSystem.step u label v) : v.fault = t.fault :=
      (step_faulted step (same ▸ faulted)).trans same
    exact further.invariant keeps rfl

def oneDelete : Tracker := (((Tracker.new.begin 1).2.beginFree 1).2.finishFree ⟨1⟩ 0)

theorem oneDelete_checks_own_free : (oneDelete.finish (some ⟨1⟩) 0).1 = 0 ∧ freesReturned ⟨1⟩
      (since (Label.begins ⟨1⟩) [.begin 1 (Tracker.new.begin 1).1,
        .beginFree 1 ((Tracker.new.begin 1).2.beginFree 1).1, .finishFree ⟨1⟩ 0]) = [0] := by
  have fresh : Run trackerSystem .new [] .new := .start
  have run := ((fresh.next (.begin 1)).next (.beginFree 1)).next (.finishFree ⟨1⟩ 0)
  have clean : (oneDelete.finish (some ⟨1⟩) 0).1 = 0 := by decide +kernel
  obtain ⟨_, _, a, _, own, _, _, returned⟩ :=
    ((user_cleanup_checks_own_free run).1 (some ⟨1⟩) 0).mp clean
  rw [← Option.some.inj own] at returned
  exact ⟨clean, returned⟩

end HisiRf.UserCleanup
