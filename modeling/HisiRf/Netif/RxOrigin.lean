import HisiRf.Interaction.Transition
import HisiRf.Netif.Route
import HisiRf.Storage.Slots
import Mathlib.Data.List.Sort

/-! The census of native receive buffers and of the epoch each of them comes from.

A descriptor is bound to a buffer, and the buffer is later delivered or freed.
Addresses are used again and again, and neither a free nor a delivery need be
observed, so a new binding supersedes whatever is known of its descriptor and of
its buffer. The census only counts; it refuses nothing and repairs nothing.
-/

namespace HisiRf.RxOrigin

open Interaction Function List
open Machine (checkedAdd)
open Storage (Slots)

variable {capacity : Nat}

inductive Counter where
  | bindings | failedBindings | replaced | retiredOnFreeAttempt | freeCalls | capacityFailures
  | matched | unmatched | closedOrigin | currentOrigin | staleOrigin
  deriving DecidableEq

structure RxOriginDiagnostics where
  counts : Counter → UInt64
  occupied : Nat
  peak : Nat
  exhausted : Bool

structure Entry where
  descriptor : Nat
  netbuf : Nat
  revision : UInt64
  isOpen : Bool
  deriving DecidableEq

open Entry

structure Tracker (capacity : Nat) where
  slots : Slots Entry capacity
  diagnostic : RxOriginDiagnostics

namespace RxOriginDiagnostics

def increment (d : RxOriginDiagnostics) (counter : Counter) : RxOriginDiagnostics :=
  match checkedAdd (d.counts counter) 1 with
  | some next => { d with counts := update d.counts counter next }
  | none => { d with exhausted := true }

def retire (counter : Counter) (d : RxOriginDiagnostics) : RxOriginDiagnostics :=
  { d with occupied := d.occupied - 1 }.increment counter

def occupy (d : RxOriginDiagnostics) : RxOriginDiagnostics :=
  let bound := d.increment .bindings
  { bound with occupied := bound.occupied + 1, peak := max bound.peak (bound.occupied + 1) }

end RxOriginDiagnostics

def Entry.new (descriptor netbuf : Nat) (epoch : AllocationEpoch) : Entry :=
  ⟨descriptor, netbuf, epoch.revision.getD 0, epoch.revision.isSome⟩

def Entry.origin (entry : Entry) : Option UInt64 :=
  if entry.isOpen then some entry.revision else none

def classify (origin : Option UInt64) (current : AllocationEpoch) : Counter :=
  match origin with
  | none => .closedOrigin
  | some revision => if current.revision = some revision then .currentOrigin else .staleOrigin

namespace Tracker

def new : Tracker capacity := ⟨.empty, ⟨fun _ => 0, 0, 0, false⟩⟩

def increment (t : Tracker capacity) (counter : Counter) : Tracker capacity :=
  { t with diagnostic := t.diagnostic.increment counter }

def retire (t : Tracker capacity) (fits : Entry → Bool) (counter : Counter) : Tracker capacity :=
  let swept := t.slots.sweep fits (RxOriginDiagnostics.retire counter) t.diagnostic
  ⟨swept.1, swept.2⟩

/-- What is known of the descriptor or of the buffer is superseded. -/
def supersede (t : Tracker capacity) (descriptor netbuf : Nat) : Tracker capacity :=
  t.retire (fun entry => entry.netbuf == netbuf || entry.descriptor == descriptor) .replaced

def bind (t : Tracker capacity) (descriptor netbuf : Nat) (epoch : AllocationEpoch)
    (status : UInt32) : Tracker capacity :=
  let cleared := t.supersede descriptor netbuf
  if status ≠ 0 ∨ descriptor = 0 ∨ netbuf = 0 then cleared.increment .failedBindings
  else
    match cleared.slots.vacant with
    | none => cleared.increment .capacityFailures
    | some slot =>
      ⟨cleared.slots.put slot (.new descriptor netbuf epoch), cleared.diagnostic.occupy⟩

def delivered (t : Tracker capacity) (netbuf : Nat) (current : AllocationEpoch) :
    Tracker capacity :=
  let fits := fun entry : Entry => netbuf != 0 && entry.netbuf == netbuf
  match t.slots.find? fits with
  | none => t.increment .unmatched
  | some entry =>
    let matched := t.diagnostic.retire .matched
    ⟨t.slots.alter fits fun _ => none, matched.increment (classify entry.origin current)⟩

def beforeFree (t : Tracker capacity) (netbuf : Nat) : Tracker capacity :=
  (t.increment .freeCalls).retire (fun entry => netbuf != 0 && entry.netbuf == netbuf)
    .retiredOnFreeAttempt

end Tracker

inductive Label where
  | bind (descriptor netbuf : Nat) (epoch : AllocationEpoch) (status : UInt32) (stored : Bool)
  | delivered (netbuf : Nat) (current : AllocationEpoch)
  | beforeFree (netbuf : Nat)

def Tracker.stores (t : Tracker capacity) (descriptor netbuf : Nat) (status : UInt32) : Bool :=
  status == 0 && descriptor != 0 && netbuf != 0 &&
    (t.supersede descriptor netbuf).slots.vacant.isSome

inductive Step (t : Tracker capacity) : Label → Tracker capacity → Prop where
  | bind (descriptor netbuf : Nat) (epoch : AllocationEpoch) (status : UInt32) :
      Step t (.bind descriptor netbuf epoch status (t.stores descriptor netbuf status))
        (t.bind descriptor netbuf epoch status)
  | delivered (netbuf : Nat) (current : AllocationEpoch) :
      Step t (.delivered netbuf current) (t.delivered netbuf current)
  | beforeFree (netbuf : Nat) : Step t (.beforeFree netbuf) (t.beforeFree netbuf)

def trackerSystem (capacity : Nat) : System (Tracker capacity) Label := ⟨Step⟩

variable {counter : Counter}

variable {d : RxOriginDiagnostics}

def RxOriginDiagnostics.value (d : RxOriginDiagnostics) (counter : Counter) : Nat :=
  (d.counts counter).toNat

theorem increment_occupied : (d.increment counter).occupied = d.occupied := by
  unfold RxOriginDiagnostics.increment
  split <;> rfl

theorem increment_peak : (d.increment counter).peak = d.peak := by
  unfold RxOriginDiagnostics.increment
  split <;> rfl

/-- As long as no counter has overflowed each counts exactly, and the record says so. -/
theorem increment_counts (exact : (d.increment counter).exhausted = false) : d.exhausted = false ∧
      (d.increment counter).value = update d.value counter (d.value counter + 1) := by
  unfold RxOriginDiagnostics.increment at exact ⊢
  cases counted : checkedAdd (d.counts counter) 1 with
  | none => grind
  | some =>
    rw [counted] at exact
    refine ⟨exact, ?_⟩
    have sum := Machine.checkedAdd_eq_some counted
    funext other
    by_cases same : other = counter
    · subst same
      simpa [RxOriginDiagnostics.value] using sum
    · simp [RxOriginDiagnostics.value, same]

theorem retire_counts (exact : (d.retire counter).exhausted = false) : d.exhausted = false ∧
      (d.retire counter).value = update d.value counter (d.value counter + 1) :=
  increment_counts exact

theorem retire_occupied : (d.retire counter).occupied = d.occupied - 1 := increment_occupied

theorem retire_peak : (d.retire counter).peak = d.peak := increment_peak

theorem retires_counts (n : Nat)
    (exact : ((RxOriginDiagnostics.retire counter)^[n] d).exhausted = false) :
    d.exhausted = false ∧ ((RxOriginDiagnostics.retire counter)^[n] d).value =
      update d.value counter (d.value counter + n) := by
  induction n generalizing d with
  | zero => exact ⟨exact, by simp⟩
  | succ n ih =>
    rw [iterate_succ_apply] at exact ⊢
    obtain ⟨later, counted⟩ := ih exact
    obtain ⟨before, first⟩ := retire_counts later
    refine ⟨before, ?_⟩
    rw [counted, first, update_idem, update_self]
    congr 1
    omega

theorem retires_occupied (n : Nat) :
    ((RxOriginDiagnostics.retire counter)^[n] d).occupied = d.occupied - n := by
  induction n generalizing d with
  | zero => rfl
  | succ n ih =>
    rw [iterate_succ_apply, ih, retire_occupied]
    omega

theorem retires_peak (n : Nat) : ((RxOriginDiagnostics.retire counter)^[n] d).peak = d.peak := by
  induction n generalizing d with
  | zero => rfl
  | succ n ih => rw [iterate_succ_apply, ih, retire_peak]

variable {t : Tracker capacity}

def Tracker.live (t : Tracker capacity) : List Entry := t.slots.live

@[simp] theorem live_increment (counter : Counter) : (t.increment counter).live = t.live := rfl

theorem live_retire (fits : Entry → Bool) (counter : Counter) :
    (t.retire fits counter).live = t.live.filter fun entry => !fits entry :=
  t.slots.live_sweep _ _ _

theorem diagnostic_retire (fits : Entry → Bool) (counter : Counter) :
    (t.retire fits counter).diagnostic =
      (RxOriginDiagnostics.retire counter)^[t.live.countP fits] t.diagnostic :=
  t.slots.notes_of_sweep _ _ _

theorem delivered_cases (netbuf : Nat) (current : AllocationEpoch) :
    ((∀ entry ∈ t.live, entry.netbuf = netbuf → netbuf = 0) ∧
        t.delivered netbuf current = t.increment .unmatched) ∨
      ∃ entry rest, netbuf ≠ 0 ∧ entry.netbuf = netbuf ∧ t.live.Perm (entry :: rest) ∧
        (t.delivered netbuf current).live.Perm rest ∧ (t.delivered netbuf current).diagnostic =
          (t.diagnostic.retire .matched).increment (classify entry.origin current) := by
  unfold Tracker.delivered
  dsimp only
  cases found : t.slots.find? fun entry => netbuf != 0 && entry.netbuf == netbuf with
  | none =>
    refine .inl ⟨?_, rfl⟩
    intro entry member same
    have unfit := find?_eq_none.mp found entry member
    simpa [same] using unfit
  | some entry =>
    obtain ⟨fit, rest, before, after⟩ := Slots.perm_alter found
    obtain ⟨nonzero, same⟩ : netbuf ≠ 0 ∧ entry.netbuf = netbuf := by simpa using fit
    exact .inr ⟨entry, rest, nonzero, same, before, after fun _ => none, rfl⟩

/-- These counters take no part in the balance. -/
def Counter.apart : Counter → Bool
  | .failedBindings | .freeCalls | .capacityFailures | .unmatched => true
  | _ => false

theorem bind_cases (descriptor netbuf : Nat) (epoch : AllocationEpoch) (status : UInt32) :
    (∃ counter : Counter, counter.apart = true ∧ t.stores descriptor netbuf status = false ∧
        t.bind descriptor netbuf epoch status = (t.supersede descriptor netbuf).increment counter) ∨
      t.stores descriptor netbuf status = true ∧ descriptor ≠ 0 ∧ netbuf ≠ 0 ∧
        (t.bind descriptor netbuf epoch status).live.Perm
          (.new descriptor netbuf epoch :: (t.supersede descriptor netbuf).live) ∧
        (t.bind descriptor netbuf epoch status).diagnostic =
          (t.supersede descriptor netbuf).diagnostic.occupy := by
  unfold Tracker.bind Tracker.stores
  dsimp only
  split_ifs with refused
  · exact .inl ⟨.failedBindings, rfl, by grind, rfl⟩
  simp only [not_or, not_not] at refused
  obtain ⟨rfl, some_descriptor, some_netbuf⟩ := refused
  cases vacant : (t.supersede descriptor netbuf).slots.vacant with
  | none => exact .inl ⟨.capacityFailures, rfl, by simp, rfl⟩
  | some =>
    right
    refine ⟨by grind, some_descriptor, some_netbuf, ?_, rfl⟩
    exact Slots.perm_put vacant _

variable {t' : Tracker capacity} {label : Label}

structure Sound (t : Tracker capacity) : Prop where
  occupied : t.diagnostic.occupied = t.live.length
  peak : t.diagnostic.occupied ≤ t.diagnostic.peak
  netbufs : (t.live.map netbuf).Nodup
  descriptors : (t.live.map descriptor).Nodup
  nonzero : ∀ entry ∈ t.live, entry.netbuf ≠ 0 ∧ entry.descriptor ≠ 0

theorem Sound.new : Sound (.new : Tracker capacity) := by
  have empty : (.new : Tracker capacity).live = [] := Slots.live_empty
  refine ⟨?_, Nat.le_refl 0, ?_, ?_, ?_⟩ <;> rw [empty]
  · rfl
  · exact nodup_nil
  · exact nodup_nil
  · exact forall_mem_nil _

theorem Sound.increment (sound : Sound t) (counter : Counter) : Sound (t.increment counter) := by
  refine ⟨?_, ?_, sound.netbufs, sound.descriptors, sound.nonzero⟩
  · exact increment_occupied.trans sound.occupied
  · exact (increment_occupied.trans_le sound.peak).trans_eq increment_peak.symm

theorem length_kept (fits : Entry → Bool) (entries : List Entry) :
    (entries.filter fun entry => !fits entry).length = entries.length - entries.countP fits := by
  have whole := length_eq_length_filter_add fits (l := entries)
  rw [countP_eq_length_filter]
  omega

theorem Sound.retire (sound : Sound t) (fits : Entry → Bool) (counter : Counter) :
    Sound (t.retire fits counter) := by
  have kept : (t.retire fits counter).live.Sublist t.live := by
    rw [live_retire]
    exact filter_sublist
  refine ⟨?_, ?_, sound.netbufs.sublist (kept.map _), sound.descriptors.sublist (kept.map _), ?_⟩
  · rw [diagnostic_retire, retires_occupied, live_retire, length_kept, sound.occupied]
  · rw [diagnostic_retire, retires_occupied, retires_peak]
    exact Nat.le_trans (Nat.sub_le _ _) sound.peak
  · exact fun entry member => sound.nonzero entry (kept.subset member)

/-- After the old entries are gone the descriptor and the buffer are free. -/
theorem supersede_free (descriptor netbuf : Nat) : ∀ entry ∈ (t.supersede descriptor netbuf).live,
      entry.netbuf ≠ netbuf ∧ entry.descriptor ≠ descriptor := by
  intro entry member
  have unfit := (mem_filter.mp (live_retire _ _ ▸ member)).2
  simpa using unfit

theorem Sound.bind (sound : Sound t) (descriptor netbuf : Nat) (epoch : AllocationEpoch)
    (status : UInt32) : Sound (t.bind descriptor netbuf epoch status) := by
  have cleared : Sound (t.supersede descriptor netbuf) := sound.retire _ _
  rcases bind_cases descriptor netbuf epoch status with
    ⟨_, _, _, failed⟩ | ⟨_, some_descriptor, some_netbuf, added, counted⟩
  · rw [failed]
    exact cleared.increment _
  have fresh := supersede_free (t := t) descriptor netbuf
  have distinct (part : Entry → Nat) (old : ((t.supersede descriptor netbuf).live.map part).Nodup)
      (apart : ∀ entry ∈ (t.supersede descriptor netbuf).live,
        part entry ≠ part (.new descriptor netbuf epoch)) :
      ((t.bind descriptor netbuf epoch status).live.map part).Nodup := by
    refine (added.map _).nodup_iff.mpr (nodup_cons.mpr ⟨?_, old⟩)
    intro taken
    obtain ⟨entry, member, same⟩ := mem_map.mp taken
    exact apart entry member same
  refine ⟨?_, ?_, ?_, ?_, ?_⟩
  · rw [counted, added.length_eq]
    exact congrArg (· + 1) (increment_occupied.trans cleared.occupied)
  · rw [counted]
    exact Nat.le_max_right _ _
  · exact distinct _ cleared.netbufs fun entry member => (fresh entry member).1
  · exact distinct _ cleared.descriptors fun entry member => (fresh entry member).2
  · intro entry member
    rcases mem_cons.mp (added.mem_iff.mp member) with rfl | old
    · exact ⟨some_netbuf, some_descriptor⟩
    · exact cleared.nonzero entry old

theorem Sound.delivered (sound : Sound t) (netbuf : Nat) (current : AllocationEpoch) :
    Sound (t.delivered netbuf current) := by
  rcases delivered_cases netbuf current with ⟨_, missed⟩ | ⟨entry, rest, _, _, before, after, counted⟩
  · rw [missed]
    exact sound.increment _
  have kept : ∀ other ∈ (t.delivered netbuf current).live, other ∈ t.live :=
    fun other member => before.mem_iff.mpr (mem_cons_of_mem _ (after.mem_iff.mp member))
  have netbufs := (before.map Entry.netbuf).nodup_iff.mp sound.netbufs
  have descriptors := (before.map Entry.descriptor).nodup_iff.mp sound.descriptors
  refine ⟨?_, ?_, ?_, ?_, fun other member => sound.nonzero other (kept other member)⟩
  · rw [counted, increment_occupied, retire_occupied, sound.occupied, before.length_eq,
      after.length_eq]
    rfl
  · rw [counted, increment_occupied, increment_peak, retire_occupied, retire_peak]
    exact Nat.le_trans (Nat.sub_le _ _) sound.peak
  · grind
  · grind

theorem Sound.step (sound : Sound t) (step : Step t label t') : Sound t' := by
  cases step with
  | bind descriptor netbuf epoch status => exact sound.bind descriptor netbuf epoch status
  | delivered netbuf current => exact sound.delivered netbuf current
  | beforeFree => exact (sound.increment _).retire _ _

def Tracker.value (t : Tracker capacity) (counter : Counter) : Nat := t.diagnostic.value counter

def Tracker.exact (t : Tracker capacity) : Prop := t.diagnostic.exhausted = false

/-- Every binding has ended in one way or is still there, and every match has one origin. -/
structure Balanced (t : Tracker capacity) : Prop where
  bindings : t.value .bindings =
    t.value .matched + t.value .replaced + t.value .retiredOnFreeAttempt + t.diagnostic.occupied
  origins : t.value .matched =
    t.value .closedOrigin + t.value .currentOrigin + t.value .staleOrigin

theorem value_increment (exact : (t.increment counter).exact) :
    t.exact ∧ (t.increment counter).value = update t.value counter (t.value counter + 1) :=
  increment_counts exact

variable {fits : Entry → Bool} {netbuf : Nat} {current : AllocationEpoch}

theorem value_retire (exact : (t.retire fits counter).exact) :
    t.exact ∧ (t.retire fits counter).value =
      update t.value counter (t.value counter + t.live.countP fits) := by
  unfold Tracker.exact at exact
  rw [diagnostic_retire] at exact
  obtain ⟨before, counted⟩ := retires_counts _ exact
  refine ⟨before, ?_⟩
  unfold Tracker.value
  rw [diagnostic_retire]
  exact counted

theorem Balanced.increment (balanced : Balanced t) (exact : (t.increment counter).exact)
    (apart : counter.apart = true) : Balanced (t.increment counter) := by
  obtain ⟨_, counted⟩ := value_increment exact
  have occupied : (t.increment counter).diagnostic.occupied = t.diagnostic.occupied :=
    increment_occupied
  have bindings := balanced.bindings
  have origins := balanced.origins
  cases counter <;> cases apart <;>
    constructor <;> simp only [counted, occupied, update_apply] <;> simpa

variable {epoch : AllocationEpoch}

section

variable (balanced : Balanced t) (sound : Sound t)
include balanced sound

theorem Balanced.retire (exact : (t.retire fits counter).exact)
    (ending : counter = .replaced ∨ counter = .retiredOnFreeAttempt) :
    Balanced (t.retire fits counter) := by
  obtain ⟨_, counted⟩ := value_retire exact
  have occupied : (t.retire fits counter).diagnostic.occupied =
      t.diagnostic.occupied - t.live.countP fits := by
    rw [diagnostic_retire, retires_occupied]
  have bound : t.live.countP fits ≤ t.diagnostic.occupied := by
    rw [sound.occupied]
    exact countP_le_length
  have bindings := balanced.bindings
  have origins := balanced.origins
  rcases ending with rfl | rfl <;> constructor <;>
    simp only [counted, occupied, update_apply] <;> simp <;> omega

theorem Balanced.bind {descriptor : Nat} {status : UInt32}
    (exact : (t.bind descriptor netbuf epoch status).exact) :
    Balanced (t.bind descriptor netbuf epoch status) := by
  have cleared (unspent : (t.supersede descriptor netbuf).exact) :
      Balanced (t.supersede descriptor netbuf) := balanced.retire sound unspent (.inl rfl)
  rcases bind_cases (t := t) descriptor netbuf epoch status with
    ⟨_, apart, _, failed⟩ | ⟨_, _, _, added, counted⟩
  · rw [failed] at exact ⊢
    exact (cleared (value_increment exact).1).increment exact apart
  unfold Tracker.exact at exact
  rw [counted] at exact
  obtain ⟨unspent, values⟩ := increment_counts exact
  have old := cleared unspent
  have bindings := old.bindings
  have origins := old.origins
  have value : (t.bind descriptor netbuf epoch status).value =
      update (t.supersede descriptor netbuf).value .bindings
        ((t.supersede descriptor netbuf).value .bindings + 1) := by
    unfold Tracker.value
    rw [counted]
    exact values
  have occupied : (t.bind descriptor netbuf epoch status).diagnostic.occupied =
      (t.supersede descriptor netbuf).diagnostic.occupied + 1 := by
    rw [counted]
    exact congrArg (· + 1) increment_occupied
  constructor <;> simp only [value, occupied, update_apply] <;> simp <;> omega

omit balanced sound in
/-- A delivery that finds an entry is counted once among the matches and once by its origin. -/
theorem value_matched {entry : Entry}
    (counts : (t.delivered netbuf current).diagnostic = (t.diagnostic.retire .matched).increment
      (classify entry.origin current))
    (exact : (t.delivered netbuf current).exact) : t.exact ∧ (t.delivered netbuf current).value =
      update (update t.value .matched (t.value .matched + 1))
        (classify entry.origin current) (t.value (classify entry.origin current) + 1) := by
  unfold Tracker.exact at exact
  rw [counts] at exact
  obtain ⟨middle, second⟩ := increment_counts exact
  obtain ⟨before, first⟩ := retire_counts middle
  refine ⟨before, ?_⟩
  unfold Tracker.value
  rw [counts, second, first]
  have apart : classify entry.origin current ≠ .matched := by
    unfold classify
    split
    · decide
    · split <;> decide
  rw [update_of_ne apart]

theorem Balanced.delivered (exact : (t.delivered netbuf current).exact) :
    Balanced (t.delivered netbuf current) := by
  rcases delivered_cases (t := t) netbuf current with
    ⟨_, missed⟩ | ⟨entry, rest, _, _, before, after, counts⟩
  · rw [missed] at exact ⊢
    exact balanced.increment exact rfl
  obtain ⟨_, value⟩ := value_matched counts exact
  have bindings := balanced.bindings
  have origins := balanced.origins
  have occupied : (t.delivered netbuf current).diagnostic.occupied + 1 = t.diagnostic.occupied := by
    rw [counts, increment_occupied, retire_occupied, sound.occupied, before.length_eq]
    rfl
  have kinds : classify entry.origin current = .closedOrigin ∨
      classify entry.origin current = .currentOrigin ∨
      classify entry.origin current = .staleOrigin := by
    unfold classify
    split
    · exact .inl rfl
    · grind
  rcases kinds with kind | kind | kind <;> rw [kind] at value <;> constructor <;>
    simp only [value, update_apply] <;> simp <;> omega

omit balanced sound in
theorem exact_of_step (step : Step t label t') (exact : t'.exact) : t.exact := by
  cases step with
  | bind descriptor netbuf epoch status =>
    have cleared (unspent : (t.supersede descriptor netbuf).exact) : t.exact :=
      (value_retire unspent).1
    rcases bind_cases (t := t) descriptor netbuf epoch status with
      ⟨_, _, _, failed⟩ | ⟨_, _, _, _, counted⟩
    · rw [failed] at exact
      exact cleared (value_increment exact).1
    · unfold Tracker.exact at exact
      rw [counted] at exact
      exact cleared (increment_counts exact).1
  | delivered => grind [delivered_cases, value_increment, value_matched]
  | beforeFree => exact (value_increment (value_retire exact).1).1

theorem Balanced.step (step : Step t label t') (exact : t'.exact) : Balanced t' := by
  cases step with
  | bind => exact balanced.bind sound exact
  | delivered => exact balanced.delivered sound exact
  | beforeFree =>
    have counted := balanced.increment (value_retire exact).1 rfl
    exact counted.retire (sound.increment _) exact (.inr rfl)

end

variable {labels : List Label}

/-- The call says something new about the descriptor or the buffer. -/
def Label.touches (descriptor netbuf : Nat) : Label → Bool
  | .bind otherDescriptor otherNetbuf _ _ _ => otherNetbuf == netbuf || otherDescriptor == descriptor
  | .delivered other _ => other == netbuf
  | .beforeFree other => other == netbuf

/-- The last call that says something of the descriptor or the buffer bound them to each other. -/
def Bound (labels : List Label) (descriptor netbuf : Nat) (epoch : AllocationEpoch) : Prop :=
  ∃ earlier status later, labels = earlier ++ .bind descriptor netbuf epoch status true :: later ∧
    ∀ label ∈ later, label.touches descriptor netbuf = false

def Label.binds (entry : Entry) : Label → Prop
  | .bind descriptor netbuf epoch _ true => entry = .new descriptor netbuf epoch
  | _ => False

variable {entry : Entry}

theorem binds_inv (binds : label.binds entry) :
    ∃ descriptor netbuf epoch status, label = .bind descriptor netbuf epoch status true ∧
      entry = .new descriptor netbuf epoch := by
  cases label with
  | bind descriptor netbuf epoch status stored =>
    cases stored with
    | true => exact ⟨descriptor, netbuf, epoch, status, rfl, binds⟩
    | false => exact binds.elim
  | delivered | beforeFree => exact binds.elim

theorem mem_live_retire :
    entry ∈ (t.retire fits counter).live ↔ entry ∈ t.live ∧ fits entry = false := by
  rw [live_retire, mem_filter]
  simp

theorem mem_live_step (sound : Sound t) (step : Step t label t') (entry : Entry) :
    entry ∈ t'.live ↔ label.binds entry ∨
      entry ∈ t.live ∧ label.touches entry.descriptor entry.netbuf = false := by
  cases step with
  | bind descriptor netbuf epoch status =>
    have cleared : entry ∈ (t.supersede descriptor netbuf).live ↔ entry ∈ t.live ∧
        (netbuf == entry.netbuf || descriptor == entry.descriptor) = false := by
      rw [@BEq.comm _ _ _ netbuf, @BEq.comm _ _ _ descriptor]
      exact mem_live_retire
    rcases bind_cases (t := t) descriptor netbuf epoch status with
      ⟨_, _, unstored, failed⟩ | ⟨stored, _, _, added, _⟩
    · rw [failed, unstored, live_increment]
      exact cleared.trans (iff_of_eq (false_or _)).symm
    · rw [stored, added.mem_iff, mem_cons]
      exact or_congr Iff.rfl cleared
  | delivered netbuf current =>
    simp only [Label.binds, Label.touches, false_or]
    rcases delivered_cases (t := t) netbuf current with
      ⟨absent, missed⟩ | ⟨found, rest, nonzero, same, before, after, _⟩
    · rw [missed, live_increment]
      refine ⟨fun member => ⟨member, ?_⟩, And.left⟩
      rw [beq_eq_false_iff_ne]
      rintro rfl
      exact (sound.nonzero entry member).1 (absent entry member rfl)
    · have distinct := (before.map Entry.netbuf).nodup_iff.mp sound.netbufs
      have apart := (nodup_cons.mp distinct).1
      rw [after.mem_iff, before.mem_iff, mem_cons, beq_eq_false_iff_ne]
      constructor
      · grind
      · grind
  | beforeFree netbuf =>
    simp only [Label.binds, Label.touches, false_or]
    refine mem_live_retire.trans (and_congr_right fun member => ?_)
    have nonzero := (sound.nonzero entry member).1
    by_cases same : netbuf = entry.netbuf
    · simp [same, nonzero]
    · grind

theorem bound_concat {descriptor : Nat} :
    Bound (labels ++ [label]) descriptor netbuf epoch ↔
      (∃ status, label = .bind descriptor netbuf epoch status true) ∨
        Bound labels descriptor netbuf epoch ∧ label.touches descriptor netbuf = false := by
  constructor
  · rintro ⟨earlier, status, later, whole, untouched⟩
    rcases eq_nil_or_concat later with rfl | ⟨rest, last, rfl⟩
    · simp_all
    · rw [concat_eq_append, ← cons_append, ← append_assoc] at whole
      obtain ⟨rfl, same⟩ := append_inj' whole rfl
      obtain rfl := singleton_inj.mp same
      rw [concat_eq_append] at untouched
      refine .inr ⟨⟨earlier, status, rest, rfl, ?_⟩, untouched _ (by simp)⟩
      exact fun other member => untouched other (mem_append_left _ member)
  · rintro (⟨status, rfl⟩ | ⟨⟨earlier, status, later, rfl, untouched⟩, last⟩)
    · exact ⟨labels, status, [], rfl, forall_mem_nil _⟩
    · refine ⟨earlier, status, later ++ [label], by simp, ?_⟩
      exact forall_mem_append.mpr ⟨untouched, forall_mem_singleton.mpr last⟩

structure Recorded (labels : List Label) (t : Tracker capacity) : Prop where
  sound : Sound t
  balanced : t.exact → Balanced t
  entries : ∀ entry, entry ∈ t.live ↔ ∃ epoch, entry = .new entry.descriptor entry.netbuf epoch ∧
    Bound labels entry.descriptor entry.netbuf epoch

theorem Recorded.new : Recorded [] (.new : Tracker capacity) := by
  refine ⟨.new, fun _ => ⟨rfl, rfl⟩, ?_⟩
  intro entry
  have empty : (.new : Tracker capacity).live = [] := Slots.live_empty
  rw [empty]
  constructor
  · intro member
    cases member
  · rintro ⟨epoch, _, earlier, status, later, whole, _⟩
    simp at whole

theorem Recorded.step (recorded : Recorded labels t) (step : Step t label t') :
    Recorded (labels ++ [label]) t' := by
  refine ⟨recorded.sound.step step, ?_, ?_⟩
  · intro exact
    exact (recorded.balanced (exact_of_step step exact)).step recorded.sound step exact
  intro entry
  rw [mem_live_step recorded.sound step, recorded.entries]
  simp only [bound_concat]
  constructor
  · rintro (binds | ⟨⟨epoch, same, bound⟩, untouched⟩)
    · obtain ⟨descriptor, netbuf, epoch, status, rfl, rfl⟩ := binds_inv binds
      exact ⟨epoch, rfl, .inl ⟨status, rfl⟩⟩
    · exact ⟨epoch, same, .inr ⟨bound, untouched⟩⟩
  · rintro ⟨epoch, same, ⟨status, rfl⟩ | ⟨bound, untouched⟩⟩
    · exact .inl same
    · exact .inr ⟨⟨epoch, same, bound⟩, untouched⟩

theorem recorded_of_run (run : Run (trackerSystem capacity) .new labels t) : Recorded labels t := by
  induction run with
  | start => exact .new
  | next _ step ih => exact ih.step step

theorem classify_new (descriptor netbuf : Nat) (epoch current : AllocationEpoch) :
    classify (new descriptor netbuf epoch).origin current =
      if epoch.revision = none then .closedOrigin
      else if epoch.revision = current.revision then .currentOrigin else .staleOrigin := by
  obtain ⟨revision⟩ := epoch
  cases revision with
  | none => rfl
  | some => simp [classify, origin, new, eq_comm]

/-- After any history of calls, as long as no counter has overflowed: every binding is accounted
for and every match has one origin; the entries in use are counted, fit into the table and share
neither a buffer nor a descriptor; a delivery is closed, current or stale by the epoch of the last
binding of the buffer, if nothing touched it since, and is unmatched otherwise; and a binding that
finds no room removes only what shares its descriptor or its buffer. -/
theorem rx_origin_census_balances (run : Run (trackerSystem capacity) .new labels t)
    (exact : t.exact) : Balanced t ∧ Sound t ∧ t.diagnostic.occupied ≤ capacity ∧
      (∀ netbuf current, (t.delivered netbuf current).exact →
        (∀ descriptor epoch, Bound labels descriptor netbuf epoch →
          let origin : Counter := if epoch.revision = none then .closedOrigin
            else if epoch.revision = current.revision then .currentOrigin else .staleOrigin
          (t.delivered netbuf current).value = update
            (update t.value .matched (t.value .matched + 1)) origin (t.value origin + 1)) ∧
        ((∀ descriptor epoch, ¬ Bound labels descriptor netbuf epoch) →
          (t.delivered netbuf current).value =
            update t.value .unmatched (t.value .unmatched + 1))) ∧ ∀ descriptor netbuf epoch status,
        (t.bind descriptor netbuf epoch status).value .capacityFailures ≠ t.value .capacityFailures →
          ∀ entry ∈ t.live, entry.netbuf ≠ netbuf → entry.descriptor ≠ descriptor →
            entry ∈ (t.bind descriptor netbuf epoch status).live := by
  have recorded := recorded_of_run run
  have sound := recorded.sound
  refine ⟨recorded.balanced exact, sound, ?_, ?_, ?_⟩
  · rw [sound.occupied]
    exact t.slots.length_live_le
  · intro netbuf current unspent
    rcases delivered_cases (t := t) netbuf current with
      ⟨absent, missed⟩ | ⟨entry, rest, nonzero, same, before, _, counts⟩
    · constructor
      · intro descriptor epoch bound
        -- A bound buffer is in the table, under an address that is not zero.
        have member : new descriptor netbuf epoch ∈ t.live :=
          (recorded.entries _).mpr ⟨epoch, rfl, bound⟩
        exact absurd (absent _ member rfl) (sound.nonzero _ member).1
      · intro _
        rw [missed] at unspent ⊢
        exact (value_increment unspent).2
    have member : entry ∈ t.live := before.mem_iff.mpr mem_cons_self
    obtain ⟨_, value⟩ := value_matched counts unspent
    constructor
    · intro descriptor epoch bound
      have other : new descriptor netbuf epoch ∈ t.live :=
        (recorded.entries _).mpr ⟨epoch, rfl, bound⟩
      have only : entry = .new descriptor netbuf epoch :=
        inj_on_of_nodup_map sound.netbufs member other same
      rw [value, only, classify_new]
    · intro unbound
      obtain ⟨epoch, _, bound⟩ := (recorded.entries entry).mp member
      rw [same] at bound
      exact absurd bound (unbound _ epoch)
  · intro descriptor netbuf epoch status _ entry member otherNetbuf otherDescriptor
    refine (mem_live_step sound (.bind descriptor netbuf epoch status) entry).mpr (.inr ⟨member, ?_⟩)
    simp [Label.touches, Ne.symm otherNetbuf, Ne.symm otherDescriptor]

/-- One buffer in a table of one row: its delivery, one of another buffer, and a binding for which
there is no room. -/
theorem census_of_one_binding : let t := (Tracker.new : Tracker 1).bind 16 32 ⟨some 5⟩ 0
    t.exact ∧ Balanced t ∧ (t.delivered 32 ⟨some 5⟩).value .currentOrigin = 1 ∧
      (t.delivered 32 ⟨some 6⟩).value .staleOrigin = 1 ∧
      (t.delivered 48 ⟨some 5⟩).value .unmatched = 1 ∧
      Entry.new 16 32 ⟨some 5⟩ ∈ (t.bind 17 33 ⟨none⟩ 0).live := by
  intro t
  have run : Run (trackerSystem 1) .new [.bind 16 32 ⟨some 5⟩ 0 true] t :=
    .next .start (.bind 16 32 ⟨some 5⟩ 0)
  obtain ⟨balanced, _, _, deliveries, bindings⟩ := rx_origin_census_balances run rfl
  have bound : Bound [.bind 16 32 ⟨some 5⟩ 0 true] 16 32 ⟨some 5⟩ :=
    ⟨[], 0, [], rfl, forall_mem_nil _⟩
  have unbound : ∀ descriptor epoch, ¬ Bound [.bind 16 32 ⟨some 5⟩ 0 true] descriptor 48 epoch := by
    rintro descriptor epoch ⟨earlier, status, later, whole, _⟩
    have member : Label.bind descriptor 48 epoch status true ∈
        [Label.bind 16 32 ⟨some 5⟩ 0 true] := by
      rw [whole]
      simp
    simp at member
  have here : new 16 32 ⟨some 5⟩ ∈ t.live := by decide
  refine ⟨rfl, balanced, ?_, ?_, ?_,
    bindings 17 33 ⟨none⟩ 0 (by decide) _ here (by decide) (by decide)⟩
  · rw [(deliveries 32 ⟨some 5⟩ rfl).1 16 ⟨some 5⟩ bound]
    rfl
  · rw [(deliveries 32 ⟨some 6⟩ rfl).1 16 ⟨some 5⟩ bound]
    rfl
  · rw [(deliveries 48 ⟨some 5⟩ rfl).2 unbound]
    rfl

end HisiRf.RxOrigin
