import Mathlib.Algebra.Group.Nat.Defs

/-! A counter that runs from one to a last value and then starts again from one.

Zero is the value before the first use only. Two uses that show the same value are
the same use, or at least a whole lap apart.
-/

namespace Storage

/-- The value after so many uses. -/
def lap (last : Nat) : Nat → Nat
  | 0 => 0
  | uses + 1 => uses % last + 1

variable {last uses other : Nat}

theorem lap_succ (uses : Nat) : lap last (uses + 1) = lap last uses % last + 1 := by
  cases uses with
  | zero => simp [lap]
  | succ => simp only [lap, Nat.mod_add_mod]

theorem lap_le (room : 0 < last) (uses : Nat) : lap last uses ≤ last := by
  cases uses with
  | zero => exact Nat.zero_le last
  | succ uses => exact Nat.mod_lt uses room

theorem lap_ne_zero (used : 0 < uses) : lap last uses ≠ 0 := by
  cases uses with
  | zero => omega
  | succ => simp [lap]

theorem lap_inj (used : 0 < uses) (later : uses ≤ other) (near : other < uses + last)
    (same : lap last uses = lap last other) : uses = other := by
  obtain ⟨first, rfl⟩ := Nat.exists_eq_add_of_lt used
  obtain ⟨distance, rfl⟩ := Nat.exists_eq_add_of_le later
  have shifted : 0 + first + 1 + distance = (first + distance) + 1 := by omega
  rw [shifted] at same
  simp only [lap, Nat.zero_add, Nat.add_right_cancel_iff] at same
  have none : (first + distance - first) % last = 0 := Nat.sub_mod_eq_zero_of_mod_eq same.symm
  rw [Nat.add_sub_cancel_left] at none
  have small : distance % last = distance := Nat.mod_eq_of_lt (by omega)
  omega

end Storage
