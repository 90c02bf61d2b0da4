import HisiRf.Interaction.Program
import HisiRf.Interaction.Transition
import Mathlib.Data.List.Count

/-! Requests implemented by atomic actions on a world that others change too.

An upper conversation is a list of answered requests. Each request is
implemented by a program over atomic actions; between any two of these actions
the other actors of the world may take steps of their own. `Realizes` says that
a run of the world is one of the interleavings that the conversation allows.
-/

namespace Interaction

open List

/-- A world with the client's atomic actions and the steps of everyone else. -/
structure SharedWorld (J : Signature) (World Act : Type) where
  atom : World → (o : J.Op) → J.Reply o → World → Prop
  other : World → Act → World → Prop

inductive SharedLabel (J : Signature) (Act : Type) where
  | mine : Exchange J → SharedLabel J Act
  | other : Act → SharedLabel J Act

variable {I J : Signature} {World Act A : Type}

inductive SharedStep (world : SharedWorld J World Act) :
    World → SharedLabel J Act → World → Prop where
  | mine {w after : World} {o : J.Op} {reply : J.Reply o} :
      world.atom w o reply after → SharedStep world w (.mine ⟨o, reply⟩) after
  | other {w after : World} {act : Act} :
      world.other w act after → SharedStep world w (.other act) after

def SharedWorld.system (world : SharedWorld J World Act) : System World (SharedLabel J Act) :=
  ⟨SharedStep world⟩

def SharedLabel.mine? : SharedLabel J Act → Option (Exchange J)
  | .mine exchange => some exchange
  | .other _ => none

/-- The client's own actions in a run. -/
def mine (labels : List (SharedLabel J Act)) : List (Exchange J) :=
  labels.filterMap SharedLabel.mine?

variable {exchange : Exchange J} {labels : List (SharedLabel J Act)}

@[simp] theorem mine_nil : mine ([] : List (SharedLabel J Act)) = [] := rfl

@[simp] theorem mine_append (first second : List (SharedLabel J Act)) :
    mine (first ++ second) = mine first ++ mine second :=
  filterMap_append

@[simp] theorem mine_mine (exchange : Exchange J) (rest : List (SharedLabel J Act)) :
    mine (.mine exchange :: rest) = exchange :: mine rest := rfl

@[simp] theorem mine_other (act : Act) (rest : List (SharedLabel J Act)) :
    mine (.other act :: rest) = mine rest := rfl

theorem mem_mine : exchange ∈ mine labels ↔ SharedLabel.mine exchange ∈ labels := by
  induction labels with
  | nil => simp
  | cons label rest ih =>
    cases label with
    | mine | other => simp [ih]

/-- The first of the client's actions is a label that no other action of its own precedes. -/
theorem mine_eq_cons {rest : List (Exchange J)} (own : mine labels = exchange :: rest) :
    ∃ first second, labels = first ++ .mine exchange :: second ∧ mine first = [] ∧
      mine second = rest := by
  induction labels with
  | nil => cases own
  | cons label later ih =>
    cases label with
    | mine =>
      obtain ⟨rfl, tail⟩ := cons.inj own
      exact ⟨[], later, rfl, rfl, tail⟩
    | other act =>
      obtain ⟨first, second, whole, before, behind⟩ := ih own
      exact ⟨.other act :: first, second, by rw [whole, cons_append], before, behind⟩

/-- Any of the client's actions is a label with its own actions before and after it. -/
theorem mine_eq_append {front back : List (Exchange J)}
    (own : mine labels = front ++ exchange :: back) :
    ∃ first second, labels = first ++ .mine exchange :: second ∧ mine first = front ∧
      mine second = back := by
  induction front generalizing labels with
  | nil => exact mine_eq_cons own
  | cons earlier front ih =>
    obtain ⟨pause, later, rfl, silent, own⟩ := mine_eq_cons own
    obtain ⟨first, second, rfl, before, behind⟩ := ih own
    refine ⟨pause ++ .mine earlier :: first, second, by simp, ?_, behind⟩
    rw [mine_append, mine_mine, silent, before]
    rfl

/-- `Realizes world implement w talk labels after`: the labels are a run of the world in which
the client makes exactly the calls of `talk`, each through its program. -/
inductive Realizes (world : SharedWorld J World Act)
    (implement : (o : I.Op) → Program J (I.Reply o)) :
    World → List (Exchange I) → List (SharedLabel J Act) → World → Prop where
  | idle {w after : World} {labels : List (SharedLabel J Act)} :
      Run world.system w labels after → mine labels = [] → Realizes world implement w [] labels after
  | call {w middle after : World} {call : Exchange I} {talk : List (Exchange I)}
      {first rest : List (SharedLabel J Act)} :
      Run world.system w first middle →
      Program.Runs (implement call.op) (mine first) call.reply →
      Realizes world implement middle talk rest after →
      Realizes world implement w (call :: talk) (first ++ rest) after

namespace Realizes

variable {world : SharedWorld J World Act} {implement : (o : I.Op) → Program J (I.Reply o)}
  {w after : World} {talk first second : List (Exchange I)}

theorem run (realized : Realizes world implement w talk labels after) :
    Run world.system w labels after := by
  induction realized with
  | idle run => exact run
  | call run _ _ ih => exact run.trans ih

theorem split (realized : Realizes world implement w (first ++ second) labels after) :
    ∃ early late middle, labels = early ++ late ∧ Realizes world implement w first early middle ∧
      Realizes world implement middle second late after := by
  induction first generalizing w labels with
  | nil => exact ⟨[], labels, w, rfl, .idle .start rfl, realized⟩
  | cons call rest ih =>
    cases realized with
    | @call _ middle _ _ _ head tail run served later =>
      obtain ⟨early, late, between, whole, before, behind⟩ := ih later
      refine ⟨head ++ early, late, between, ?_, .call run served before, behind⟩
      rw [whole, append_assoc]

/-- Every call of the conversation was answered by its program. -/
theorem served (realized : Realizes world implement w talk labels after) :
    ∀ call ∈ talk, ∃ actions, Program.Runs (implement call.op) actions call.reply := by
  induction realized with
  | idle => exact forall_mem_nil _
  | call _ runs _ ih => exact forall_mem_cons.mpr ⟨⟨_, runs⟩, ih⟩

/-- Counted actions come from counted calls. -/
theorem count_mine_le {action : Exchange J → Bool} {request : Exchange I → Bool}
    (served : ∀ call actions, Program.Runs (implement call.op) actions call.reply →
      actions.countP action ≤ (request call).toNat)
    (realized : Realizes world implement w talk labels after) :
    (mine labels).countP action ≤ talk.countP request := by
  induction realized with
  | idle _ silent => rw [silent]; exact Nat.le_refl 0
  | @call _ _ _ call rest head tail _ runs =>
    have here := served call _ runs
    rw [mine_append, countP_append, countP_cons]
    cases counted : request call with
    | false =>
      rw [counted, Bool.toNat_false] at here
      omega
    | true =>
      rw [counted, Bool.toNat_true] at here
      simp only [if_true]
      omega

end Realizes

/-! A client alone in the world, with every choice of the world fixed. -/

/-- Run a program in a world that answers each request in its own state. -/
def Program.serve (answer : World → (o : I.Op) → I.Reply o × World) :
    Program I A → World → List (Exchange I) × A × World
  | .done a, w => ([], a, w)
  | .call o next, w =>
    let reply := answer w o
    let rest := (next reply.1).serve answer reply.2
    (⟨o, reply.1⟩ :: rest.1, rest.2)

theorem Program.serve_runs (answer : World → (o : I.Op) → I.Reply o × World) (p : Program I A)
    (w : World) : Runs p (p.serve answer w).1 (p.serve answer w).2.1 := by
  induction p generalizing w with
  | done a => exact .done a
  | call o next ih => exact .call (answer w o).1 (ih _ _)

variable {world : SharedWorld J World Act} {implement : (o : I.Op) → Program J (I.Reply o)}
  {answer : World → (o : J.Op) → J.Reply o × World}

/-- The labels of a client that no one interrupts. -/
def alone (actions : List (Exchange J)) : List (SharedLabel J Act) := actions.map .mine

@[simp] theorem mine_alone (actions : List (Exchange J)) :
    mine (alone actions : List (SharedLabel J Act)) = actions := by
  induction actions with
  | nil => rfl
  | cons exchange rest ih => exact congrArg (exchange :: ·) ih

section

variable (fits : ∀ w o, world.atom w o (answer w o).1 (answer w o).2)
include fits

theorem serve_alone (p : Program J A) (w : World) :
    Run world.system w (alone (p.serve answer w).1) (p.serve answer w).2.2 := by
  induction p generalizing w with
  | done => exact .start
  | call o next ih =>
    have step : world.system.step w (.mine ⟨o, (answer w o).1⟩) (answer w o).2 := .mine (fits w o)
    exact (Run.start.next step).trans (ih _ _)

/-- A request is answered by running its program. -/
def serveCall (implement : (o : I.Op) → Program J (I.Reply o))
    (answer : World → (o : J.Op) → J.Reply o × World) (w : World) (o : I.Op) : I.Reply o × World :=
  ((implement o).serve answer w).2

theorem serve_realizes (p : Program I A) (w : World) :
    ∃ labels, Realizes world implement w (p.serve (serveCall implement answer) w).1 labels
      (p.serve (serveCall implement answer) w).2.2 := by
  induction p generalizing w with
  | done => exact ⟨[], .idle .start rfl⟩
  | call o next ih =>
    obtain ⟨labels, rest⟩ := ih (serveCall implement answer w o).1 (serveCall implement answer w o).2
    refine ⟨_, .call (serve_alone fits (implement o) w) ?_ rest⟩
    rw [mine_alone]
    exact (implement o).serve_runs answer w

end

end Interaction
