import HisiRf.Interaction.Sum

/-! Programs that nothing interrupts.

`Leads` says what a program returns and which world it leaves behind.
`Establishes` is its weakest precondition. A component that is part of a larger
world is specified in its own terms, and what it leaves alone is known from its
actions.
-/

namespace Interaction

variable {I J : Signature} {World Part A B : Type}

namespace Program

section Rules

variable (atom : World → (o : J.Op) → J.Reply o → World → Prop)

inductive Leads : Program J A → World → A → World → Prop where
  | done (a : A) (w : World) : Leads (.done a) w a w
  | call {o : J.Op} {next : J.Reply o → Program J A} {reply : J.Reply o} {a : A}
      {w middle after : World} : atom w o reply middle → Leads (next reply) middle a after →
      Leads (.call o next) w a after

/-- Whatever the world answers, the program ends in `post`. -/
def Establishes (post : A → World → Prop) : Program J A → World → Prop
  | .done a, w => post a w
  | .call o next, w => ∀ reply after, atom w o reply after → Establishes post (next reply) after

variable {atom} {post : A → World → Prop} {p : Program J A} {w after : World} {a : A}

theorem Establishes.sound (established : p.Establishes atom post w)
    (leads : p.Leads atom w a after) : post a after := by
  induction leads with
  | done => exact established
  | call taken _ ih => exact ih (established _ _ taken)

theorem Establishes.mono {weaker : A → World → Prop} (established : p.Establishes atom post w)
    (weakens : ∀ a after, post a after → weaker a after) : p.Establishes atom weaker w := by
  induction p generalizing w with
  | done a => exact weakens a w established
  | call o next ih =>
    intro reply after taken
    exact ih reply (established reply after taken)

theorem Establishes.bind {k : A → Program J B} {last : B → World → Prop}
    (established : p.Establishes atom (fun a middle => (k a).Establishes atom last middle) w) :
    (p.bind k).Establishes atom last w := by
  induction p generalizing w with
  | done => exact established
  | call o next ih =>
    intro reply after taken
    exact ih reply (established reply after taken)

/-- A relation that every action keeps up is kept up by the whole program. -/
theorem Leads.relates {allowed : J.Op → Prop} {related : World → World → Prop}
    (refl : ∀ w, related w w)
    (trans : ∀ first second third, related first second → related second third → related first third)
    (steps : ∀ w o reply after, allowed o → atom w o reply after → related w after)
    (only : p.Only allowed) (leads : p.Leads atom w a after) : related w after := by
  induction leads with
  | done a w => exact refl w
  | call taken _ ih => exact trans _ _ _ (steps _ _ _ _ only.1 taken) (ih (only.2 _))

/-- Run a program in a world that answers everything by a fixed function. -/
def execute (answer : World → (o : J.Op) → J.Reply o × World) : Program J A → World → A × World
  | .done a, w => (a, w)
  | .call o next, w => (next (answer w o).1).execute answer (answer w o).2

theorem leads_execute {answer : World → (o : J.Op) → J.Reply o × World}
    (answers : ∀ w o, atom w o (answer w o).1 (answer w o).2) (p : Program J A) (w : World) :
    p.Leads atom w (p.execute answer w).1 (p.execute answer w).2 := by
  induction p generalizing w with
  | done a => exact .done a w
  | call o next ih => exact .call (answers w o) (ih (answer w o).1 (answer w o).2)

end Rules

/-- A part of the world is specified on its own; the actions on it leave the rest as it is. -/
theorem Establishes.left {Rest : Type} {atom : Part → (o : I.Op) → I.Reply o → Part → Prop}
    {whole : World → (o : (I.sum J).Op) → (I.sum J).Reply o → World → Prop} (part : World → Part)
    (rest : World → Rest) (inside : ∀ w o reply after, whole w (.inl o) reply after →
      atom (part w) o reply (part after) ∧ rest after = rest w)
    {p : Program I A} {post : A → Part → Prop} {w : World}
    (established : p.Establishes atom post (part w)) :
    (p.left (J := J)).Establishes whole (fun a after => post a (part after) ∧ rest after = rest w)
      w := by
  induction p generalizing w with
  | done => exact ⟨established, rfl⟩
  | call o next ih =>
    intro reply after taken
    obtain ⟨step, same⟩ := inside w o reply after taken
    refine (ih reply (established reply (part after) step)).mono ?_
    intro a last ends
    exact ⟨ends.1, ends.2.trans same⟩

end Program

end Interaction
