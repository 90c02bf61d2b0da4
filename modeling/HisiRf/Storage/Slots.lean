import Mathlib.Data.List.Basic
import Mathlib.Logic.Function.Iterate

/-! Tables with a fixed number of slots, read through the list of the values they hold.

Every search runs from the first slot on. A value goes into the first slot that
is vacant; a stored value is replaced or cleared where the search finds it. The
laws say what each operation does to the list of held values, so that a user of
the table need not speak of slots.
-/

namespace Storage

open List

variable {A : Type}

/-- The values in occupied cells, in the order of the cells. -/
def held (cells : List (Option A)) : List A := cells.filterMap id

@[simp] theorem held_none (cells : List (Option A)) : held (none :: cells) = held cells := rfl

@[simp] theorem held_some (a : A) (cells : List (Option A)) :
    held (some a :: cells) = a :: held cells := rfl

theorem held_replicate (n : Nat) : held (replicate n (none : Option A)) = [] := by
  induction n with
  | zero => rfl
  | succ n ih => rw [replicate_succ, held_none, ih]

theorem length_held_le (cells : List (Option A)) : (held cells).length ≤ cells.length :=
  length_filterMap_le _ _

/-- Change the first held value that fits; `none` clears its cell. -/
def alterFirst (fits : A → Bool) (change : A → Option A) : List (Option A) → List (Option A)
  | [] => []
  | none :: rest => none :: alterFirst fits change rest
  | some a :: rest =>
    if fits a then change a :: rest else some a :: alterFirst fits change rest

theorem length_alterFirst (fits : A → Bool) (change : A → Option A) (cells : List (Option A)) :
    (alterFirst fits change cells).length = cells.length := by
  induction cells with
  | nil => rfl
  | cons cell rest ih =>
    cases cell with
    | none => simp [alterFirst, ih]
    | some =>
      unfold alterFirst
      split
      · rfl
      · simp [ih]

variable {change : A → Option A}

theorem held_alterFirst {fits : A → Bool} {cells : List (Option A)} {before after : List A}
    {a : A} (split : held cells = before ++ a :: after) (found : fits a = true)
    (first : ∀ b ∈ before, fits b = false) :
    held (alterFirst fits change cells) = before ++ ((change a).toList ++ after) := by
  induction cells generalizing before with
  | nil => simp [held] at split
  | cons cell rest ih =>
    cases cell with
    | none => exact ih split first
    | some b =>
      cases before with
      | nil =>
        obtain ⟨rfl, rfl⟩ := cons.inj split
        rw [alterFirst, if_pos found]
        cases change b <;> rfl
      | cons =>
        obtain ⟨rfl, later⟩ := cons.inj split
        have unfit := first b mem_cons_self
        rw [alterFirst, if_neg (Bool.eq_false_iff.mp unfit), held_some,
          ih later fun other member => first other (mem_cons_of_mem _ member)]
        rfl

/-- A value put into the first vacant cell, with what is held before and after it. -/
theorem held_set {cells : List (Option A)} {i : Nat} (found : cells.findIdx? Option.isNone = some i) :
    ∃ before after, held cells = before ++ after ∧
      ∀ a, held (cells.set i (some a)) = before ++ a :: after := by
  induction cells generalizing i with
  | nil => cases found
  | cons cell rest ih =>
    cases cell with
    | none =>
      cases found
      exact ⟨[], held rest, rfl, fun _ => rfl⟩
    | some b =>
      simp only [findIdx?_cons, Option.isNone_some, Bool.false_eq_true, if_false] at found
      obtain ⟨j, later, rfl⟩ := Option.map_eq_some_iff.mp found
      obtain ⟨before, after, split, put⟩ := ih later
      refine ⟨b :: before, after, ?_, ?_⟩
      · rw [held_some, split]
        rfl
      · intro a
        rw [set_cons_succ, held_some, put]
        rfl

/-- Clear every held value that fits, one cell after the other, and take note of each. -/
def sweep {S : Type} (fits : A → Bool) (note : S → S) : List (Option A) → S → List (Option A) × S
  | [], s => ([], s)
  | none :: rest, s =>
    let swept := sweep fits note rest s
    (none :: swept.1, swept.2)
  | some a :: rest, s =>
    if fits a then
      let swept := sweep fits note rest (note s)
      (none :: swept.1, swept.2)
    else
      let swept := sweep fits note rest s
      (some a :: swept.1, swept.2)

theorem sweep_spec {S : Type} (fits : A → Bool) (note : S → S) (cells : List (Option A)) (s : S) :
    (sweep fits note cells s).1.length = cells.length ∧
      held (sweep fits note cells s).1 = (held cells).filter (fun a => !fits a) ∧
      (sweep fits note cells s).2 = note^[(held cells).countP fits] s := by
  induction cells generalizing s with
  | nil => exact ⟨rfl, rfl, rfl⟩
  | cons cell rest ih =>
    cases cell with
    | none => simp [sweep, ih]
    | some =>
      unfold sweep
      split
      next fit => simp [ih, fit]
      next unfit => simp [ih, unfit]

structure Slots (A : Type) (capacity : Nat) where
  cells : List (Option A)
  size : cells.length = capacity

namespace Slots

variable {capacity : Nat}

def empty : Slots A capacity := ⟨replicate capacity none, length_replicate⟩

def live (table : Slots A capacity) : List A := held table.cells

def vacant (table : Slots A capacity) : Option Nat := table.cells.findIdx? Option.isNone

def put (table : Slots A capacity) (i : Nat) (a : A) : Slots A capacity :=
  ⟨table.cells.set i (some a), by rw [length_set, table.size]⟩

def find? (table : Slots A capacity) (fits : A → Bool) : Option A := table.live.find? fits

def alter (table : Slots A capacity) (fits : A → Bool) (change : A → Option A) : Slots A capacity :=
  ⟨alterFirst fits change table.cells, by rw [length_alterFirst, table.size]⟩

def sweep {S : Type} (table : Slots A capacity) (fits : A → Bool) (note : S → S) (s : S) :
    Slots A capacity × S :=
  (⟨(Storage.sweep fits note table.cells s).1, (sweep_spec fits note _ s).1.trans table.size⟩,
    (Storage.sweep fits note table.cells s).2)

@[simp] theorem live_empty : (empty : Slots A capacity).live = [] := held_replicate capacity

variable (table : Slots A capacity)

theorem live_sweep {S : Type} (fits : A → Bool) (note : S → S) (s : S) :
    (table.sweep fits note s).1.live = table.live.filter fun a => !fits a :=
  (sweep_spec fits note table.cells s).2.1

theorem notes_of_sweep {S : Type} (fits : A → Bool) (note : S → S) (s : S) :
    (table.sweep fits note s).2 = note^[table.live.countP fits] s :=
  (sweep_spec fits note table.cells s).2.2

theorem length_live_le : table.live.length ≤ capacity :=
  Nat.le_trans (length_held_le table.cells) (Nat.le_of_eq table.size)

/-- A search either finds nothing or splits the held values at the first that fits. -/
theorem find_cases (fits : A → Bool) :
    (table.find? fits = none ∧ ∀ a ∈ table.live, fits a = false) ∨
      ∃ a before after, table.find? fits = some a ∧ fits a = true ∧
        table.live = before ++ a :: after ∧ ∀ b ∈ before, fits b = false := by
  cases found : table.find? fits with
  | none =>
    refine .inl ⟨rfl, ?_⟩
    intro a member
    exact Bool.eq_false_iff.mpr (find?_eq_none.mp found a member)
  | some a =>
    obtain ⟨fit, before, after, split, first⟩ := find?_eq_some_iff_append.mp found
    refine .inr ⟨a, before, after, rfl, fit, split, ?_⟩
    intro b member
    simpa using first b member

variable {table} {fits : A → Bool} {before after : List A} {a : A}

theorem find_of_split (split : table.live = before ++ a :: after) (found : fits a = true)
    (first : ∀ b ∈ before, fits b = false) : table.find? fits = some a := by
  refine find?_eq_some_iff_append.mpr ⟨found, before, after, split, ?_⟩
  intro b member
  simp [first b member]

theorem live_alter (split : table.live = before ++ a :: after) (found : fits a = true)
    (first : ∀ b ∈ before, fits b = false) :
    (table.alter fits change).live = before ++ ((change a).toList ++ after) :=
  held_alterFirst split found first

theorem live_put {i : Nat} (found : table.vacant = some i) : ∃ before after,
    table.live = before ++ after ∧ ∀ a, (table.put i a).live = before ++ a :: after := held_set found

/-! Up to the order of the slots a value is added in front, or the first one is changed. -/

theorem perm_put {i : Nat} (found : table.vacant = some i) (a : A) :
    (table.put i a).live.Perm (a :: table.live) := by
  obtain ⟨before, after, split, put⟩ := live_put found
  rw [put, split]
  exact perm_middle

theorem perm_alter (found : table.find? fits = some a) : fits a = true ∧
    ∃ rest, table.live.Perm (a :: rest) ∧ ∀ change : A → Option A,
      (table.alter fits change).live.Perm ((change a).toList ++ rest) := by
  rcases table.find_cases fits with ⟨absent, _⟩ | ⟨b, before, after, other, fit, split, first⟩
  · rw [absent] at found
    cases found
  · obtain rfl := Option.some.inj (other.symm.trans found)
    refine ⟨fit, before ++ after, ?_, ?_⟩
    · rw [split]
      exact perm_middle
    · intro change
      rw [live_alter split fit first]
      exact perm_append_comm_assoc before (change b).toList after

end Slots

end Storage
