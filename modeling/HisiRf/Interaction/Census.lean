import Mathlib.Data.Finset.Card

/-! How many of the threads are in phases of one kind.

There are infinitely many threads, of which finitely many are in such phases at
any time; the number changes only with the phase of the thread that acts.
-/

namespace Interaction

open Function

variable {Phase : Type} {wanted : Phase → Bool} {phases : Nat → Phase} {n i : Nat} {place later : Phase}

/-- Exactly `n` threads are in wanted phases. -/
def Numbers (wanted : Phase → Bool) (phases : Nat → Phase) (n : Nat) : Prop :=
  ∃ who : Finset Nat, (∀ j, j ∈ who ↔ wanted (phases j) = true) ∧ who.card = n

namespace Numbers

theorem zero (none : ∀ j, wanted (phases j) = false) : Numbers wanted phases 0 :=
  ⟨∅, by simp [none], rfl⟩

section

variable (numbers : Numbers wanted phases n) (here : phases i = place)
include numbers here

theorem keep (same : wanted later = wanted place) : Numbers wanted (update phases i later) n := by
  obtain ⟨who, members, card⟩ := numbers
  refine ⟨who, ?_, card⟩
  intro j
  by_cases mine : j = i
  · subst mine
    rw [update_self, same, ← here, members]
  · rw [update_of_ne mine, members]

theorem enter (outside : wanted place = false) (inside : wanted later = true) :
    Numbers wanted (update phases i later) (n + 1) := by
  obtain ⟨who, members, card⟩ := numbers
  have absent : i ∉ who := by simp [members, here, outside]
  refine ⟨insert i who, ?_, by rw [Finset.card_insert_of_notMem absent, card]⟩
  intro j
  by_cases mine : j = i
  · subst mine
    simp [inside]
  · simp [mine, members]

theorem leave (inside : wanted place = true) (outside : wanted later = false) :
    ∃ fewer, n = fewer + 1 ∧ Numbers wanted (update phases i later) fewer := by
  obtain ⟨who, members, card⟩ := numbers
  have present : i ∈ who := by simp [members, here, inside]
  have positive := Finset.card_pos.mpr ⟨i, present⟩
  refine ⟨n - 1, by omega, who.erase i, ?_, by rw [Finset.card_erase_of_mem present, card]⟩
  intro j
  by_cases mine : j = i
  · subst mine
    simp [outside]
  · simp [mine, members]

theorem pos (inside : wanted place = true) : 0 < n := by
  obtain ⟨who, members, rfl⟩ := numbers
  exact Finset.card_pos.mpr ⟨i, by simp [members, here, inside]⟩

end

end Numbers

end Interaction
