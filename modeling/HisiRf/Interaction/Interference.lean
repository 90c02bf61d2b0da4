import HisiRf.Interaction.Shared
import Mathlib.Logic.Relation

/-! Pre- and postconditions of a client whose world others change as well.

`Withstands` is a weakest precondition under interference: the other actors may
take any number of steps before each atomic action of the client and after the
last one. A condition is carried over such a gap when it is stable, that is when
no single step of the others invalidates it.
-/

namespace Interaction

variable {I J : Signature} {World Act A B : Type}

/-- `Follows p talk rest`: after exactly the conversation `talk` the program goes on as `rest`. -/
inductive Program.Follows (p : Program J A) : List (Exchange J) → Program J A → Prop where
  | start : Follows p [] p
  | next {talk : List (Exchange J)} {o : J.Op} {next : J.Reply o → Program J A}
      (reply : J.Reply o) :
      Follows p talk (.call o next) → Follows p (talk ++ [⟨o, reply⟩]) (next reply)

variable {talk : List (Exchange J)} {rest p : Program J A}

theorem Program.Follows.of_reply {o : J.Op} {next : J.Reply o → Program J A} {reply : J.Reply o}
    (follows : (next reply).Follows talk rest) :
    (Program.call o next).Follows (⟨o, reply⟩ :: talk) rest := by
  induction follows with
  | start => exact Follows.next reply .start
  | next later _ ih => exact Follows.next later ih

/-- A completed conversation leaves nothing to do. -/
theorem Program.Runs.follows {a : A} (run : Runs p talk a) : p.Follows talk (.done a) := by
  induction run with
  | done => exact .start
  | call reply _ ih => exact ih.of_reply

theorem Program.Follows.of_nil (follows : p.Follows [] rest) : rest = p := by
  generalize none_yet : ([] : List (Exchange J)) = talk at follows
  cases follows with
  | start => rfl
  | next => simp at none_yet

theorem Program.Follows.of_snoc {exchange : Exchange J}
    (follows : p.Follows (talk ++ [exchange]) rest) :
    ∃ next, p.Follows talk (.call exchange.op next) ∧ rest = next exchange.reply := by
  generalize whole : talk ++ [exchange] = taken at follows
  cases follows with
  | start => simp at whole
  | next reply earlier =>
    obtain ⟨rfl, same⟩ := List.append_inj' whole rfl
    cases same
    exact ⟨_, earlier, rfl⟩

variable (world : SharedWorld J World Act)

/-- Any number of steps of the other actors. -/
def Interferes : World → World → Prop :=
  Relation.ReflTransGen fun w after => ∃ act, world.other w act after

/-- No step of the others invalidates the condition. -/
def Stable (condition : World → Prop) : Prop :=
  ∀ ⦃w after : World⦄ ⦃act : Act⦄, condition w → world.other w act after → condition after

/-- Every state before an action and at the end satisfies `always`, and the result `post`. -/
def Program.Withstands (always : World → Prop) (post : A → World → Prop) :
    Program J A → World → Prop
  | .done a, w => ∀ after, Interferes world w after → always after ∧ post a after
  | .call o next, w => ∀ before, Interferes world w before → always before ∧
      ∀ reply after, world.atom before o reply after →
        Program.Withstands always post (next reply) after

variable {world} {condition inv always : World → Prop} {post : A → World → Prop} {w after : World}
  {labels : List (SharedLabel J Act)}

section

variable (stable : Stable world condition) (holds : condition w)
include stable holds

theorem Stable.interferes (others : Interferes world w after) : condition after := by
  induction others with
  | refl => exact holds
  | tail _ step ih =>
    obtain ⟨act, taken⟩ := step
    exact stable ih taken

theorem Stable.run (run : Run world.system w labels after) (silent : mine labels = []) :
    condition after := by
  induction run with
  | start => exact holds
  | next _ step ih =>
    rw [mine_append, List.append_eq_nil_iff] at silent
    cases step with
    | other taken => exact stable (ih silent.1) taken
    | mine => cases silent.2

theorem withstands_done {a : A} (fine : ∀ w, condition w → always w ∧ post a w) :
    (Program.done a).Withstands world always post w := by
  intro after others
  exact fine after (stable.interferes holds others)

variable (safe : ∀ w, condition w → always w)
include safe

theorem withstands_call {o : J.Op} {next : J.Reply o → Program J A}
    (acts : ∀ before reply after, condition before → world.atom before o reply after →
      (next reply).Withstands world always post after) :
    (Program.call o next).Withstands world always post w := by
  intro before others
  have still := stable.interferes holds others
  exact ⟨safe before still, fun reply after action => acts before reply after still action⟩

/-- A stable condition that every request of a program keeps is kept by the program. -/
theorem withstands_only {allowed : J.Op → Prop} (keeps : ∀ o w reply after, allowed o →
      condition w → world.atom w o reply after → condition after) (only : p.Only allowed) :
    p.Withstands world always (fun _ after => condition after) w := by
  induction p generalizing w with
  | done => exact withstands_done stable holds fun w held => ⟨safe w held, held⟩
  | call o next ih =>
    apply withstands_call stable holds safe
    intro before reply after held action
    exact ih reply (keeps o before reply after only.1 held action) (only.2 reply)

end

namespace Program.Withstands

section

variable (held : p.Withstands world always post w)
include held

theorem interferes (others : Interferes world w after) :
    p.Withstands world always post after := by
  cases p with
  | done => exact fun last later => held last (others.trans later)
  | call => exact fun before later => held before (others.trans later)

theorem safe : always w := by
  cases p with
  | done | call => exact (held w .refl).1

theorem mono {weaker : A → World → Prop}
    (weakens : ∀ a after, post a after → weaker a after) : p.Withstands world always weaker w := by
  induction p generalizing w with
  | done a => exact fun after others => ⟨(held after others).1, weakens a after (held after others).2⟩
  | call o next ih =>
    intro before others
    refine ⟨(held before others).1, ?_⟩
    intro reply after action
    exact ih reply ((held before others).2 reply after action)

/-- What is left of the program still withstands wherever a run has come. -/
theorem follows (run : Run world.system w labels after)
    (followed : p.Follows (mine labels) rest) : rest.Withstands world always post after := by
  induction run generalizing rest with
  | start =>
    obtain rfl := followed.of_nil
    exact held
  | @next earlier before _ label _ step ih =>
    rw [mine_append] at followed
    cases step with
    | other taken =>
      rw [mine_other, mine_nil, List.append_nil] at followed
      exact (ih followed).interferes (.single ⟨_, taken⟩)
    | @mine _ o reply action =>
      obtain ⟨next, reached, rfl⟩ := followed.of_snoc
      exact (ih reached before .refl).2 reply _ action

/-- The rule is sound for completed programs. -/
theorem sound {a : A} (run : Run world.system w labels after)
    (runs : Program.Runs p (mine labels) a) : post a after :=
  (held.follows run runs.follows after .refl).2

end

theorem bind {k : A → Program J B} {last : B → World → Prop}
    (held : p.Withstands world always (fun a after => (k a).Withstands world always last after) w) :
    (p.bind k).Withstands world always last w := by
  induction p generalizing w with
  | done => exact (held w .refl).2
  | call o next ih =>
    intro before others
    refine ⟨(held before others).1, ?_⟩
    intro reply after action
    exact ih reply ((held before others).2 reply after action)

end Program.Withstands

variable {implement : (o : I.Op) → Program J (I.Reply o)} {talk : List (Exchange I)}

section

variable (stable : Stable world inv)
  (calls : ∀ o w, inv w → (implement o).Withstands world always (fun _ after => inv after) w)
  (holds : inv w)
include stable calls holds

/-- What every call establishes again is true between any two calls. -/
theorem Realizes.between (realized : Realizes world implement w talk labels after) : inv after := by
  induction realized with
  | idle run silent => exact stable.run holds run silent
  | call run served _ ih => exact ih ((calls _ _ holds).sound run served)

/-- A run of a client that made some calls and may be in the middle of a further one. -/
def Underway (world : SharedWorld J World Act) (implement : (o : I.Op) → Program J (I.Reply o))
    (w : World) (labels : List (SharedLabel J Act)) (after : World) : Prop :=
  ∃ talk first middle second, ∃ o : I.Op, ∃ rest, labels = first ++ second ∧
    Realizes world implement w talk first middle ∧ Run world.system middle second after ∧
    (implement o).Follows (mine second) rest

omit stable calls holds in
theorem Underway.run (underway : Underway world implement w labels after) :
    Run world.system w labels after := by
  obtain ⟨_, _, _, _, _, _, rfl, realized, run, _⟩ := underway
  exact realized.run.trans run

/-- The safety condition holds in the middle of every call, too. -/
theorem Underway.safe (underway : Underway world implement w labels after) : always after := by
  obtain ⟨_, _, _, _, _, _, rfl, realized, run, followed⟩ := underway
  exact ((calls _ _ (realized.between stable calls holds)).follows run followed).safe

end

end Interaction
