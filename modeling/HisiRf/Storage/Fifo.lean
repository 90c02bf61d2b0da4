import HisiRf.Interaction.Transition
import Mathlib.Data.List.Forall2

/-! A queue of bounded length, as the component that others are compared with.

A taker need not see the whole of an item: `shows item shown` relates what went in
to what came out.
-/

namespace Storage

open Interaction

variable {A Out : Type}

inductive FifoLabel (A Out : Type) where
  | put (item : A)
  | full
  | take (shown : Out)

open FifoLabel

inductive FifoStep (capacity : Nat) (shows : A → Out → Prop) :
    List A → FifoLabel A Out → List A → Prop where
  | put {items : List A} (item : A) : items.length < capacity →
      FifoStep capacity shows items (.put item) (items ++ [item])
  | full {items : List A} : items.length = capacity → FifoStep capacity shows items .full items
  | take {item : A} {items : List A} {shown : Out} : shows item shown →
      FifoStep capacity shows (item :: items) (.take shown) items

def boundedFifo (capacity : Nat) (shows : A → Out → Prop) : System (List A) (FifoLabel A Out) :=
  ⟨FifoStep capacity shows⟩

def FifoLabel.stored : FifoLabel A Out → Option A
  | .put item => some item
  | .full | .take _ => none

def FifoLabel.taken : FifoLabel A Out → Option Out
  | .take shown => some shown
  | .put _ | .full => none

variable {capacity : Nat} {shows : A → Out → Prop} {labels : List (FifoLabel A Out)} {items : List A}

section

variable (run : Run (boundedFifo capacity shows) [] labels items)
include run

/-- Nothing is lost, doubled or overtaken: what was stored is what was taken and what is there. -/
theorem fifo_accounts :
    ∃ gone, labels.filterMap stored = gone ++ items ∧
      List.Forall₂ shows gone (labels.filterMap taken) := by
  induction run with
  | start => exact ⟨[], rfl, .nil⟩
  | next _ step ih =>
    obtain ⟨gone, all, shown⟩ := ih
    rw [filterMap_concat, filterMap_concat]
    cases step with
    | put =>
      refine ⟨gone, ?_, by simpa [taken] using shown⟩
      simp [stored, all]
    | full => exact ⟨gone, by simp [stored, all], by simpa [taken] using shown⟩
    | @take item items out fits =>
      refine ⟨gone ++ [item], ?_, ?_⟩
      · simp [stored, all]
      · have last : List.Forall₂ shows [item] [out] := .cons fits .nil
        exact List.rel_append shown last

end

end Storage
