import HisiRf.Storage.Ring
import Mathlib.Data.List.Induction
import Mathlib.Order.Bounds.Basic

/-! The rings of BLE events, BLE bond records, SLE events and received frames.

Each push and each pop works on its ring in one critical section, so that calls of
several tasks come one after the other. Only the bond records count a refused push
after that, in a step of its own.
-/

namespace HisiRf.Rings

open Storage List

variable {A S : Type} {n : Nat} [NeZero n]

inductive Call (A : Type) where
  | push (item : A)
  | pop (room : Nat)
  | count

inductive Answer (A : Type) where
  | stored
  | full
  | unfit
  | popped (item : Option A)
  | counted

def Answer.isFull : Answer A → Bool
  | .full => true
  | _ => false

/-- The bounded queue that the rings stand for. -/
def queue (capacity : Nat) (fits : A → Bool) (cut : Nat → A → A) (items : List A) :
    Call A → Answer A × List A
  | .push item =>
    if fits item = false then (.unfit, items)
    else if items.length = capacity then (.full, items)
    else (.stored, items ++ [item])
  | .pop room => (.popped (items.head?.map (cut room)), items.tail)
  | .count => (.counted, items)

def run (step : S → Call A → Answer A × S) (s : S) (calls : List (Call A)) : List (Answer A) × S :=
  calls.foldl (fun past call => (past.1 ++ [(step past.2 call).1], (step past.2 call).2)) ([], s)

/-- Events have all of these counters, bond records only `dropped`, frames only `dropped` and the
mark; what a ring does not count is for the record. So are the refused pushes yet to be counted. -/
structure Queue (A : Type) (n : Nat) where
  ring : Ring A n
  accepted : Nat
  consumed : Nat
  dropped : Nat
  highWater : Nat
  refusing : Nat

def Queue.new : Queue A n := ⟨.empty, 0, 0, 0, 0, 0⟩

/-- What tells one ring from another. -/
structure Kind (A : Type) (n : Nat) where
  fits : A → Bool
  cut : Nat → A → A
  full : Nat → Bool
  late : Bool
  full_iff : ∀ len ≤ n, full len = true ↔ len = n

def saturate (count : Nat) : Nat := min count 4294967295

namespace Kind

def push (kind : Kind A n) (q : Queue A n) (item : A) : Answer A × Queue A n :=
  if kind.fits item = false then (.unfit, q)
  else if kind.full q.ring.len then
    (.full, if kind.late then { q with refusing := q.refusing + 1 }
      else { q with dropped := saturate (q.dropped + 1) })
  else
    (.stored, { q with
      ring := q.ring.push item
      accepted := saturate (q.accepted + 1)
      highWater := max q.highWater (q.ring.len + 1) })

def pop (kind : Kind A n) (q : Queue A n) (room : Nat) : Option A × Queue A n :=
  if q.ring.len = 0 then (none, q)
  else (q.ring.front.map (kind.cut room),
    { q with ring := q.ring.drop, consumed := saturate (q.consumed + 1) })

def step (kind : Kind A n) (q : Queue A n) : Call A → Answer A × Queue A n
  | .push item => kind.push q item
  | .pop room => (.popped (kind.pop q room).1, (kind.pop q room).2)
  | .count => (.counted,
    if q.refusing = 0 then q
    else { q with refusing := q.refusing - 1, dropped := (q.dropped + 1) % 4294967296 })

end Kind

variable {q : Queue A n} {items : List A} {past : List (Answer A)} {calls : List (Call A)}

/-- The ring holds what the queue does, and counts what has happened. -/
structure Follows (q : Queue A n) (items : List A) (past : List (Answer A)) : Prop where
  holds : q.ring.Holds items
  accepted : q.accepted < 4294967295 → q.accepted = q.consumed + q.ring.len
  dropped : past.countP Answer.isFull < 4294967296 →
    q.dropped + q.refusing = past.countP Answer.isFull
  mark : q.ring.len ≤ q.highWater

/-- A call of the ring and the same call of the queue. -/
structure Agrees (q : Queue A n) (past : List (Answer A)) (got : Answer A × Queue A n)
    (spec : Answer A × List A) : Prop where
  answer : got.1 = spec.1
  follows : Follows got.2 spec.2 (past ++ [got.1])
  mark : got.2.highWater = max q.highWater got.2.ring.len

section Steps

variable (kind : Kind A n) (follows : Follows q items past)
include follows

omit [NeZero n] in
theorem Follows.quiet {answer : Answer A} (silent : answer.isFull = false) :
    Agrees q past (answer, q) (answer, items) := by
  obtain ⟨holds, accepted, dropped, mark⟩ := follows
  refine ⟨rfl, ⟨holds, accepted, ?_, mark⟩, (Nat.max_eq_left mark).symm⟩
  simpa [silent] using dropped

theorem Kind.follows_push (item : A) :
    Agrees q past (kind.push q item) (queue n kind.fits kind.cut items (.push item)) := by
  have full_iff := kind.full_iff q.ring.len (follows.holds.len ▸ follows.holds.fits)
  unfold Kind.push queue saturate
  dsimp only
  split
  · exact follows.quiet rfl
  rw [← follows.holds.len]
  obtain ⟨holds, accepted, dropped, mark⟩ := follows
  by_cases full : q.ring.len = n
  · rw [if_pos full, if_pos (full_iff.mpr full)]
    refine ⟨rfl, ?_, ?_⟩
    · split <;> refine ⟨holds, accepted, ?_, mark⟩ <;>
        simp only [countP_append, countP_singleton, Answer.isFull, if_true] <;> omega
    · split <;> exact (Nat.max_eq_left mark).symm
  · rw [if_neg full, if_neg (mt full_iff.mp full)]
    have room : items.length < n := Nat.lt_of_le_of_ne holds.fits (holds.len ▸ full)
    refine ⟨rfl, ⟨holds.push room item, ?_, ?_, Nat.le_max_right _ _⟩, rfl⟩
    · change min (q.accepted + 1) _ < _ → min (q.accepted + 1) _ = q.consumed + (q.ring.len + 1)
      omega
    · simpa [Answer.isFull] using dropped

theorem Kind.follows_pop (room : Nat) :
    Agrees q past (kind.step q (.pop room)) (queue n kind.fits kind.cut items (.pop room)) := by
  unfold Kind.step Kind.pop saturate
  dsimp only
  cases items with
  | nil =>
    have empty : q.ring.len = 0 := follows.holds.len
    rw [if_pos empty]
    exact follows.quiet rfl
  | cons a items =>
    obtain ⟨holds, accepted, dropped, mark⟩ := follows
    have len : q.ring.len = items.length + 1 := holds.len
    have fewer : q.ring.drop.len = items.length := holds.drop.len
    rw [if_neg (by omega), holds.front]
    refine ⟨rfl, ⟨holds.drop, ?_, ?_, ?_⟩, ?_⟩
    · dsimp only
      omega
    · simpa [Answer.isFull] using dropped
    · dsimp only
      omega
    · dsimp only
      omega

theorem Kind.follows_step (call : Call A) :
    Agrees q past (kind.step q call) (queue n kind.fits kind.cut items call) := by
  cases call with
  | push item => exact kind.follows_push follows item
  | pop room => exact kind.follows_pop follows room
  | count =>
    unfold Kind.step
    dsimp only
    split
    · exact follows.quiet rfl
    · obtain ⟨holds, accepted, dropped, mark⟩ := follows
      refine ⟨rfl, ⟨holds, accepted, ?_, mark⟩, (Nat.max_eq_left mark).symm⟩
      simp only [countP_append, countP_singleton, Answer.isFull, Bool.false_eq_true, if_false]
      omega

end Steps

end HisiRf.Rings
