import HisiRf.Interaction.Transition

/-! Readings that only move forward along the runs of a system.

A counter that saturates, or that refuses to be used again once it is spent,
is such a reading. Equal readings below the limit then prove that nothing that
moves the clock happened in between, however long the run was.
-/

namespace Interaction

variable {State Label : Type}

/-- A reading that never goes back and that each advancing label moves on below the limit. -/
structure Clock (sys : System State Label) where
  reading : State → Nat
  limit : Nat
  advances : Label → Bool
  forward : ∀ {s t : State} {label : Label}, sys.step s label t → reading s ≤ reading t
  moves : ∀ {s t : State} {label : Label}, sys.step s label t → advances label = true →
    reading s < limit → reading s < reading t

namespace Clock

variable {sys : System State Label} (clock : Clock sys) {s t u : State} {labels later : List Label}

theorem le_of_run (run : Run sys s labels t) : clock.reading s ≤ clock.reading t := by
  induction run with
  | start => exact Nat.le_refl _
  | next _ step ih => exact Nat.le_trans ih (clock.forward step)

/-- Readings that agree below the limit have no advance between them. -/
theorem still (run : Run sys s labels t) (same : clock.reading t = clock.reading s)
    (below : clock.reading t < clock.limit) : ∀ label ∈ labels, clock.advances label = false := by
  intro label member
  obtain ⟨first, second, rfl⟩ := List.append_of_mem member
  obtain ⟨before, after, earlier, step, rest⟩ := run.step_at
  have grown := clock.le_of_run earlier
  have bound := clock.le_of_run rest
  have stepped := clock.forward step
  cases moving : clock.advances label with
  | false => rfl
  | true =>
    -- The advance would separate the two readings for the rest of the run.
    have moved := clock.moves step moving (by omega)
    omega

/-- A reading that was left never comes back. -/
theorem left_for_good (first : Run sys s labels t) (second : Run sys t later u)
    (left : clock.reading t ≠ clock.reading s) : clock.reading u ≠ clock.reading s := by
  have grown := clock.le_of_run first
  have kept := clock.le_of_run second
  omega

end Clock

end Interaction
