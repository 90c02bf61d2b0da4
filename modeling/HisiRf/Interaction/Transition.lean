import Mathlib.Data.List.Basic
import Mathlib.Data.List.TakeWhile

/-! Labelled transition systems, their runs and the rules for invariants.

A run keeps its labels, so a statement can speak of everything that happened
and not only of the states in between.
-/

namespace Interaction

open List

structure System (State Label : Type) where
  step : State → Label → State → Prop

variable {State Label : Type} {sys : System State Label}

/-- `Run sys s labels t`: the labels lead from `s` to `t`, one step after another. -/
inductive Run (sys : System State Label) (origin : State) : List Label → State → Prop where
  | start : Run sys origin [] origin
  | next {labels : List Label} {s t : State} {label : Label} :
      Run sys origin labels s → sys.step s label t → Run sys origin (labels ++ [label]) t

/-- A log that picks something from the labels grows by what the last label tells. -/
theorem filterMap_concat {Entry : Type} (tells : Label → Option Entry) (labels : List Label)
    (label : Label) :
    (labels ++ [label]).filterMap tells = labels.filterMap tells ++ (tells label).toList := by
  cases heard : tells label <;> simp [heard]

/-- The steps of a system that keep to a rule. -/
def System.keeping (sys : System State Label) (rule : State → Label → Prop) : System State Label :=
  ⟨fun s label t => sys.step s label t ∧ rule s label⟩

/-- What came after the last label of a kind. -/
def since (starts : Label → Bool) (labels : List Label) : List Label :=
  (labels.reverse.takeWhile fun label => !starts label).reverse

theorem since_concat (starts : Label → Bool) (labels : List Label) (label : Label) :
    since starts (labels ++ [label]) =
      if starts label then [] else since starts labels ++ [label] := by
  unfold since
  rw [reverse_concat, takeWhile_cons]
  cases starts label <;> simp

theorem since_split (starts : Label → Bool) (labels : List Label) :
    ∃ earlier, labels = earlier ++ since starts labels ∧
      ∀ label ∈ since starts labels, starts label = false := by
  refine ⟨(labels.reverse.dropWhile fun label => !starts label).reverse, ?_, ?_⟩
  · unfold since
    rw [← reverse_append, takeWhile_append_dropWhile, reverse_reverse]
  · intro label member
    have inside := mem_takeWhile_imp (mem_reverse.mp member)
    simpa using inside

theorem since_append {starts : Label → Bool} {labels later : List Label}
    (unstarted : ∀ label ∈ later, starts label = false) :
    since starts (labels ++ later) = since starts labels ++ later := by
  unfold since
  rw [reverse_append, takeWhile_append_of_pos, reverse_append, reverse_reverse]
  intro label member
  simpa using unstarted label (mem_reverse.mp member)

namespace Run

variable {label : Label} {inv : State → Prop} {rule : State → Label → Prop} {fine : Label → Prop}

section

variable {s t u : State} {first second labels : List Label}

theorem trans (before : Run sys s first t) (after : Run sys t second u) :
    Run sys s (first ++ second) u := by
  induction after with
  | start => rw [append_nil]; exact before
  | next _ step ih =>
    rw [← append_assoc]
    exact ih.next step

/-- A run over two label sequences passes through a state between them. -/
theorem split (run : Run sys s (first ++ second) u) :
    ∃ t, Run sys s first t ∧ Run sys t second u := by
  generalize whole : first ++ second = labels at run
  induction run generalizing second with
  | start =>
    obtain ⟨rfl, rfl⟩ := append_eq_nil_iff.mp whole
    exact ⟨s, .start, .start⟩
  | @next earlier v w label run step ih =>
    rcases eq_nil_or_concat second with rfl | ⟨rest, last, rfl⟩
    · rw [append_nil] at whole
      exact ⟨w, whole ▸ run.next step, .start⟩
    · rw [concat_eq_append, ← append_assoc] at whole
      obtain ⟨same, sameLast⟩ := append_inj' whole rfl
      obtain ⟨t, before, after⟩ := ih same
      cases sameLast
      rw [concat_eq_append]
      exact ⟨t, before, after.next step⟩

theorem last (run : Run sys s (labels ++ [label]) u) :
    ∃ t, Run sys s labels t ∧ sys.step t label u := by
  generalize whole : labels ++ [label] = taken at run
  cases run with
  | start => simp at whole
  | @next earlier t _ other before step =>
    obtain ⟨rfl, same⟩ := append_inj' whole rfl
    cases same
    exact ⟨t, before, step⟩

/-- A run takes each of its labels between two states. -/
theorem step_at (run : Run sys s (first ++ label :: second) u) :
    ∃ before after, Run sys s first before ∧ sys.step before label after ∧
      Run sys after second u := by
  rw [append_cons] at run
  obtain ⟨after, leading, later⟩ := run.split
  obtain ⟨before, earlier, step⟩ := leading.last
  exact ⟨before, after, earlier, step, later⟩

section

variable {last : Label} (n : Nat) (run : Run sys s labels t) (found : labels[n]? = some label)
include run found

/-- The labels around the one at place `n`. -/
theorem at_place : Run sys s (labels.take n ++ label :: labels.drop (n + 1)) t := by
  have tail : labels.drop n = label :: labels.drop (n + 1) := by
    rw [drop_eq_getElem?_toList_append, found]
    rfl
  rw [← tail, take_append_drop]
  exact run

theorem parted (ends : (labels.drop (n + 1)).getLast? = some last) :
    Run sys s (labels.take n ++ label :: (labels.drop (n + 1)).dropLast ++ [last]) t := by
  rw [append_assoc, cons_append, dropLast_append_getLast? _ ends]
  exact at_place n run found

end

section

variable {Part Other : Type} {inner : System Part Other} (part : State → Part)
include part

/-- A part of the state whose changes are all steps of another system runs that system. -/
theorem view
    (steps : ∀ s label t, sys.step s label t → part t = part s ∨ ∃ other,
      inner.step (part s) other (part t))
    (run : Run sys s labels t) : ∃ others, Run inner (part s) others (part t) := by
  induction run with
  | start => exact ⟨[], .start⟩
  | next _ step ih =>
    obtain ⟨others, earlier⟩ := ih
    rcases steps _ _ _ step with same | ⟨other, taken⟩
    · rw [same]
      exact ⟨others, earlier⟩
    · exact ⟨others ++ [other], earlier.next taken⟩

/-- The same where each label tells which step it is for the part. -/
theorem project (tells : Label → Option Other)
    (steps : ∀ s label t, sys.step s label t → (tells label = none ∧ part t = part s) ∨ ∃ other,
      tells label = some other ∧ inner.step (part s) other (part t)) (run : Run sys s labels t) :
    Run inner (part s) (labels.filterMap tells) (part t) := by
  induction run with
  | start => exact .start
  | next _ step ih =>
    rw [filterMap_concat]
    rcases steps _ _ _ step with ⟨silent, same⟩ | ⟨other, told, taken⟩
    · rw [silent, same]
      simpa using ih
    · rw [told]
      exact ih.next taken

end

/-- The invariant rule. -/
theorem invariant (keeps : ∀ s label t, inv s → sys.step s label t → inv t) {s t : State}
    {labels : List Label} (holds : inv s) (run : Run sys s labels t) : inv t := by
  induction run with
  | start => exact holds
  | next _ step ih => exact keeps _ _ _ ih step

theorem unruled (run : Run (sys.keeping rule) s labels t) : Run sys s labels t := by
  induction run with
  | start => exact .start
  | next _ step ih => exact ih.next step.1

theorem relax {weaker : State → Label → Prop} (weakens : ∀ s label, rule s label → weaker s label)
    (run : Run (sys.keeping rule) s labels t) : Run (sys.keeping weaker) s labels t := by
  induction run with
  | start => exact .start
  | next _ step ih => exact ih.next ⟨step.1, weakens _ _ step.2⟩

/-- What holds at the end of a run and did not at its start was brought about by one of its steps. -/
theorem origin {holds : State → Prop} {brings : State → Label → Prop}
    (arises : ∀ s label t, sys.step s label t → holds t → holds s ∨ brings s label)
    (absent : ¬ holds s) (run : Run sys s labels t) (now : holds t) :
    ∃ first label between before, labels = first ++ label :: between ∧ Run sys s first before ∧
      brings before label := by
  induction run with
  | start => exact absurd now absent
  | @next earlier before after label run step ih =>
    rcases arises before label after step now with old | brought
    · obtain ⟨first, cause, between, state, rfl, reached, brought⟩ := ih old
      exact ⟨first, cause, between ++ [label], state, by simp, reached, brought⟩
    · exact ⟨earlier, label, [], before, rfl, run, brought⟩

/-- The rule for an invariant that a step keeps, and shows its label fine, if the label is as
assumed. -/
theorem assuming {assumed : Label → Prop}
    (keeps : ∀ s label t, inv s → sys.step s label t → assumed label → inv t ∧ fine label)
    {s t : State} {labels : List Label} (holds : inv s) (run : Run sys s labels t)
    (throughout : ∀ label ∈ labels, assumed label) : inv t ∧ ∀ label ∈ labels, fine label := by
  induction run with
  | start => exact ⟨holds, forall_mem_nil _⟩
  | @next earlier before after label _ step ih =>
    obtain ⟨known, past⟩ := ih fun other member => throughout other (mem_append_left _ member)
    obtain ⟨kept, now⟩ := keeps before label after known step
      (throughout label (mem_append_right _ mem_cons_self))
    refine ⟨kept, ?_⟩
    intro other member
    rcases mem_append.mp member with old | new
    · exact past other old
    · exact mem_singleton.mp new ▸ now

end

/-- What an invariant forces on each step is true of every label of a run. -/
theorem labels (keeps : ∀ s label t, inv s → sys.step s label t → inv t ∧ fine label) {s t : State}
    {taken : List Label} (holds : inv s) (run : Run sys s taken t) :
    ∀ label ∈ taken, fine label := by
  have always (s : State) (label : Label) (t : State) (held : inv s) (step : sys.step s label t)
      (_ : True) : inv t ∧ fine label := keeps s label t held step
  exact (run.assuming always holds fun _ _ => trivial).2

end Run

end Interaction
