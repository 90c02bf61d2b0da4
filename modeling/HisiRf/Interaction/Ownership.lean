import Mathlib.Logic.Function.Basic

/-! What a thread holds, as a partial function of the threads.

No two threads hold the same thing; this outlasts a change of one thread as long
as it does not lay hands on what another one holds.
-/

namespace Interaction

open Function

variable {A : Type} {owner : Nat → Option A} {value : Option A} {i : Nat}

def Apart (owner : Nat → Option A) : Prop :=
  ∀ i j a, owner i = some a → owner j = some a → i = j

theorem Apart.update (apart : Apart owner)
    (fresh : ∀ j, j ≠ i → owner j = value → value = none) : Apart (update owner i value) := by
  intro j k a one two
  by_cases first : j = i
  · by_cases second : k = i
    · rw [first, second]
    · rw [first, update_self] at one
      rw [update_of_ne second] at two
      rw [fresh k second (two.trans one.symm)] at one
      cases one
  · rw [update_of_ne first] at one
    by_cases second : k = i
    · rw [second, update_self] at two
      rw [fresh j first (one.trans two.symm)] at two
      cases two
    · rw [update_of_ne second] at two
      exact apart j k a one two

theorem exists_update {a : A} : (∃ j, update owner i value j = some a) ↔
    value = some a ∨ ∃ j, j ≠ i ∧ owner j = some a := by
  constructor
  · rintro ⟨j, here⟩
    by_cases same : j = i
    · rw [same, update_self] at here
      exact .inl here
    · rw [update_of_ne same] at here
      exact .inr ⟨j, same, here⟩
  · rintro (here | ⟨j, other, there⟩)
    · exact ⟨i, by rw [update_self, here]⟩
    · exact ⟨j, by rw [update_of_ne other, there]⟩

end Interaction
