import HisiRf.Interaction.Record

/-! Programs over the actions of two components.

A routine of one component is a program over both. A protocol of that component
asks nothing of the other, and a crew that keeps to it runs the component alone,
with the labels of the other left out.
-/

namespace Interaction

variable {I J : Signature} {World Part Phase A : Type}

@[reducible] def Signature.sum (I J : Signature) : Signature where
  Op := I.Op ⊕ J.Op
  Reply
    | .inl o => I.Reply o
    | .inr o => J.Reply o

/-- A program of the first component. -/
def Program.left : Program I A → Program (I.sum J) A
  | .done a => .done a
  | .call o next => .call (I := I.sum J) (.inl o) fun reply => (next reply).left

/-- Actions of the second component are free. -/
def Protocol.left (protocol : Protocol I Phase) : Protocol (I.sum J) Phase where
  allows
    | phase, .inl o => protocol.allows phase o
    | _, .inr _ => True
  after
    | phase, ⟨.inl o, reply⟩ => protocol.after phase ⟨o, reply⟩
    | phase, ⟨.inr _, _⟩ => phase

/-- What a protocol of both asks of the first component. -/
def Protocol.onLeft (protocol : Protocol (I.sum J) Phase) : Protocol I Phase where
  allows phase o := protocol.allows phase (.inl o)
  after phase exchange := protocol.after phase ⟨.inl exchange.op, exchange.reply⟩

theorem Program.Obeys.left {protocol : Protocol (I.sum J) Phase} {p : Program I A}
    {post : A → Phase → Prop} {phase : Phase} (obeys : p.Obeys protocol.onLeft post phase) :
    p.left.Obeys protocol post phase := by
  induction p generalizing phase with
  | done => exact obeys
  | call o next ih => exact ⟨obeys.1, fun reply => ih reply (obeys.2 reply)⟩

theorem Program.Only.left {allowed : (I.sum J).Op → Prop} {p : Program I A}
    (only : p.Only fun o => allowed (.inl o)) : (p.left (J := J)).Only allowed := by
  induction p with
  | done => trivial
  | call o next ih => exact ⟨only.1, fun reply => ih reply (only.2 reply)⟩

def PoolLabel.left : PoolLabel (I.sum J) → Option (PoolLabel I)
  | .start i => some (.start i)
  | .act i ⟨.inl o, reply⟩ => some (.act i ⟨o, reply⟩)
  | .act _ ⟨.inr _, _⟩ => none

section Projection

variable {atom : Part → (o : I.Op) → I.Reply o → Part → Prop}
  {whole : World → (o : (I.sum J).Op) → (I.sum J).Reply o → World → Prop} (part : World → Part)
  {protocol : Protocol I Phase} {crew after : Crew World Phase} {labels : List (PoolLabel (I.sum J))}

/-- What a crew does to the first component is a run of that component. -/
theorem crew_left
    (inside : ∀ w o reply w', whole w (.inl o) reply w' → atom (part w) o reply (part w'))
    (outside : ∀ w o reply w', whole w (.inr o) reply w' → part w' = part w)
    (run : Run (crewSystem whole protocol.left) crew labels after) :
    Run (crewSystem atom protocol) ⟨part crew.world, crew.phases⟩ (labels.filterMap PoolLabel.left)
      ⟨part after.world, after.phases⟩ := by
  induction run with
  | start => exact .start
  | @next earlier before now label _ step ih =>
    rw [filterMap_concat]
    cases step with
    | start i => exact ih.next (.start i)
    | @act i o reply world allowed taken =>
      cases o with
      | inl => exact ih.next (.act allowed (inside _ _ _ _ taken))
      | inr o =>
        have same := outside _ _ _ _ taken
        have still : Function.update before.phases i
            (protocol.left.after (before.phases i) ⟨.inr o, reply⟩) = before.phases :=
          Function.update_eq_self i before.phases
        rw [same, still]
        exact (List.append_nil (earlier.filterMap PoolLabel.left)).symm ▸ ih

end Projection

end Interaction
