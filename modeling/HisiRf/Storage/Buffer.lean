import Mathlib.Data.List.OfFn

/-! A buffer of a fixed size that is written cell by cell.

A copy is a list of plain stores, so that others may be let in between two of
them. The front of the buffer shows what was copied, whatever was there before.
-/

namespace Storage

variable {Cell : Type} {size : Nat}

def putAt (position : Nat) (value : Cell) (buffer : Fin size → Cell) : Fin size → Cell :=
  fun k => if k.val = position then value else buffer k

/-- The stores that copy some values into a buffer, from a position on. -/
def copies : Nat → List Cell → List ((Fin size → Cell) → Fin size → Cell)
  | _, [] => []
  | position, value :: rest => putAt position value :: copies (position + 1) rest

/-- One store after the other. -/
def storeAll {Content : Type} (stores : List (Content → Content)) (content : Content) : Content :=
  stores.foldl (fun now store => store now) content

def front (len : Nat) (buffer : Fin size → Cell) : List Cell := (List.ofFn buffer).take len

theorem storeAll_copies (values : List Cell) (position : Nat) (buffer : Fin size → Cell)
    (k : Fin size) : storeAll (copies position values) buffer k =
      if k.val < position then buffer k else (values[k.val - position]?).getD (buffer k) := by
  induction values generalizing position buffer with
  | nil => simp [storeAll, copies]
  | cons value rest ih =>
    have step : storeAll (copies position (value :: rest)) buffer k =
      storeAll (copies (position + 1) rest) (putAt position value buffer) k := rfl
    rw [step, ih]
    -- The cell lies before, at or behind the one that is stored first.
    rcases Nat.lt_trichotomy k.val position with before | here | behind
    · have skip : k.val < position + 1 := by omega
      have other : k.val ≠ position := by omega
      simp [putAt, before, skip, other]
    · have skip : k.val < position + 1 := by omega
      simp [putAt, here]
    · have past : ¬k.val < position + 1 := by omega
      have first : ¬k.val < position := by omega
      have other : k.val ≠ position := by omega
      have index : k.val - position = (k.val - (position + 1)) + 1 := by omega
      rw [if_neg past, if_neg first, index, List.getElem?_cons_succ]
      simp [putAt, other]

theorem front_copies {values : List Cell} (fits : values.length ≤ size) (buffer : Fin size → Cell) :
    front values.length (storeAll (copies 0 values) buffer) = values := by
  refine List.ext_getElem ?_ ?_
  · simp [front, fits]
  · intro k inside within
    simp [front, storeAll_copies, within]

/-- Stores into one part of a record leave the rest of it alone. -/
theorem storeAll_part {Whole Part : Type} (get : Whole → Part) (put : Part → Whole → Whole)
    (same : ∀ whole, put (get whole) whole = whole)
    (got : ∀ part whole, get (put part whole) = part)
    (twice : ∀ first second whole, put second (put first whole) = put second whole)
    (stores : List (Part → Part)) (whole : Whole) :
    storeAll (stores.map fun store now => put (store (get now)) now) whole =
      put (storeAll stores (get whole)) whole := by
  induction stores generalizing whole with
  | nil => exact (same whole).symm
  | cons store rest ih =>
    have later := ih (put (store (get whole)) whole)
    rw [got, twice] at later
    exact later

theorem storeAll_append {Content : Type} (first second : List (Content → Content))
    (content : Content) :
    storeAll (first ++ second) content = storeAll second (storeAll first content) :=
  List.foldl_append

end Storage
