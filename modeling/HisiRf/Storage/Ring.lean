import HisiRf.Storage.Slots
import Mathlib.Algebra.Group.Fin.Basic
import Mathlib.Algebra.GroupWithZero.Nat
import Mathlib.Data.List.OfFn

/-! Two users of a circle of cells: a bounded queue and a log that overwrites its oldest entry.

The positions are counted modulo the number of cells. `Ring.Holds` and
`Log.Keeps` relate a circle to the list it stands for; the laws say how each
operation changes that list, and that a search through the cells in their own
order finds exactly its members.
-/

namespace Storage

open Function List Nat

variable {A : Type} {n : Nat} [NeZero n]

/-- What the cells hold, in the order in which the cells lie. -/
def cellValues (cells : Fin n → Option A) : List A := held (ofFn cells)

omit [NeZero n] in
theorem mem_cellValues {cells : Fin n → Option A} {a : A} :
    a ∈ cellValues cells ↔ ∃ i, cells i = some a := by
  unfold cellValues held
  rw [mem_filterMap]
  simp only [mem_ofFn, id_eq]
  constructor
  · rintro ⟨_, ⟨i, rfl⟩, found⟩
    exact ⟨i, found⟩
  · rintro ⟨i, found⟩
    exact ⟨_, ⟨i, rfl⟩, found⟩

theorem val_one_add (i : Fin n) :
    (i.val + 1 < n ∧ (1 + i).val = i.val + 1) ∨ (i.val + 1 = n ∧ 1 + i = 0) := by
  have sum : (1 + i).val = (1 + i.val) % n := by
    rw [Fin.val_add, Fin.val_one', mod_add_mod]
  by_cases last : i.val + 1 = n
  · right
    refine ⟨last, Fin.ext ?_⟩
    rw [sum, add_comm, last, mod_self, Fin.val_zero]
  · left
    refine ⟨by omega, ?_⟩
    rw [sum, mod_eq_of_lt (by omega), add_comm]

structure Ring (A : Type) (n : Nat) where
  cells : Fin n → Option A
  head : Fin n
  len : Nat

namespace Ring

def empty : Ring A n := ⟨fun _ => none, 0, 0⟩

def push (ring : Ring A n) (a : A) : Ring A n :=
  { ring with
    cells := update ring.cells (ring.head + Fin.ofNat n ring.len) (some a)
    len := ring.len + 1 }

omit [NeZero n] in
def front (ring : Ring A n) : Option A := ring.cells ring.head

/-- Clear the cell at the head and go on to the next one. -/
def drop (ring : Ring A n) : Ring A n :=
  ⟨update ring.cells ring.head none, ring.head + 1, ring.len - 1⟩

/-- The cells from the head on hold exactly these items; the others are empty. -/
structure Holds (ring : Ring A n) (items : List A) : Prop where
  len : ring.len = items.length
  fits : items.length ≤ n
  cells : ∀ i : Fin n, ring.cells (ring.head + i) = items[i.val]?

variable {ring : Ring A n} {items : List A} {a : A}

theorem holds_empty : Holds (empty : Ring A n) [] := ⟨rfl, zero_le n, fun _ => rfl⟩

theorem Holds.push (holds : Holds ring items) (room : items.length < n) (a : A) :
    Holds (ring.push a) (items ++ [a]) where
  len := by
    rw [length_append, ← holds.len]
    rfl
  fits := by
    rw [length_append]
    exact room
  cells := by
    intro i
    have tail : (Fin.ofNat n ring.len).val = items.length := by
      rw [Fin.val_ofNat, holds.len, mod_eq_of_lt room]
    change update ring.cells (ring.head + Fin.ofNat n ring.len) (some a) (ring.head + i) = _
    by_cases last : i = Fin.ofNat n ring.len
    · subst last
      rw [update_self, tail, getElem?_concat_length]
    · have other : ring.head + i ≠ ring.head + Fin.ofNat n ring.len :=
        fun same => last (add_left_cancel same)
      rw [update_of_ne other, holds.cells, getElem?_append]
      split
      · rfl
      · rw [getElem?_eq_none (by omega), getElem?_eq_none (by simp; omega)]

theorem Holds.front (holds : Holds ring (a :: items)) : ring.front = some a := by
  have first := holds.cells 0
  rw [add_zero] at first
  exact first

theorem Holds.drop (holds : Holds ring (a :: items)) : Holds ring.drop items where
  len := by
    change ring.len - 1 = items.length
    rw [holds.len]
    rfl
  fits := le_of_succ_le holds.fits
  cells := by
    intro i
    change update ring.cells ring.head none (ring.head + 1 + i) = _
    rw [add_assoc]
    have fits := holds.fits
    rw [length_cons] at fits
    rcases val_one_add i with ⟨inside, next⟩ | ⟨last, wrapped⟩
    · have other : ring.head + (1 + i) ≠ ring.head := by
        intro same
        have zero : 1 + i = 0 := add_eq_left.mp same
        rw [zero, Fin.val_zero] at next
        omega
      rw [update_of_ne other, holds.cells, next, getElem?_cons_succ]
    · -- The last position is the cell that was just cleared.
      rw [wrapped, add_zero, update_self, getElem?_eq_none (by omega)]

end Ring

structure Log (A : Type) (n : Nat) where
  cells : Fin n → Option A
  next : Fin n

namespace Log

def empty : Log A n := ⟨fun _ => none, 0⟩

def add (log : Log A n) (a : A) : Log A n :=
  ⟨update log.cells log.next (some a), log.next + 1⟩

/-- Counted backwards from the next position, the cells hold the latest entries. -/
def Keeps (log : Log A n) (entries : List A) : Prop :=
  ∀ i : Fin n, log.cells (log.next - (1 + i)) = entries.reverse[i.val]?

variable {log : Log A n} {entries : List A} {a : A}

theorem keeps_empty : Keeps (empty : Log A n) [] := fun _ => rfl

theorem Keeps.add (keeps : Keeps log entries) (a : A) : Keeps (log.add a) (entries ++ [a]) := by
  intro i
  have shift : log.next + 1 - (1 + i) = log.next - i := by
    rw [add_comm 1 i, add_sub_add_right_eq_sub]
  change update log.cells log.next (some a) (log.next + 1 - (1 + i)) = _
  rw [shift, reverse_concat]
  by_cases newest : i = 0
  · subst newest
    rw [sub_zero, update_self, Fin.val_zero, getElem?_cons_zero]
  · -- An older entry was one place nearer before.
    have other : log.next - i ≠ log.next := fun same => newest (sub_eq_self.mp same)
    obtain ⟨j, rfl⟩ : ∃ j, i = 1 + j := ⟨i - 1, (add_sub_cancel 1 i).symm⟩
    rcases val_one_add j with ⟨_, next⟩ | ⟨_, wrapped⟩
    · rw [update_of_ne other, keeps j, next, getElem?_cons_succ]
    · exact absurd wrapped newest

theorem Keeps.mem_cells (keeps : Keeps log entries) :
    a ∈ cellValues log.cells ↔ a ∈ entries.reverse.take n := by
  rw [mem_cellValues, mem_iff_getElem?]
  constructor
  · rintro ⟨k, found⟩
    have back : log.next - (1 + (log.next - 1 - k)) = k := by
      rw [← sub_sub, sub_sub_cancel]
    refine ⟨(log.next - 1 - k).val, ?_⟩
    rw [getElem?_take_of_lt (Fin.isLt _), ← keeps, back, found]
  · rintro ⟨i, found⟩
    obtain ⟨bound, _⟩ := List.getElem?_eq_some_iff.mp found
    have position : i < n := lt_of_lt_of_le bound (List.length_take_le n _)
    rw [getElem?_take_of_lt position] at found
    exact ⟨_, (keeps ⟨i, position⟩).trans found⟩

end Log

end Storage
