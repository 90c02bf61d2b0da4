import HisiRf.Interaction.Program

/-! Routines: interaction programs with a private state and an early return.

This is the shape of a method that owns mutable fields, calls an opaque port
and leaves from many places. The caller's state at each request is kept beside
the request, so a statement about a call can speak of the moment it was made.
-/

namespace Interaction

/-- Requests paired with the private state in which they are issued. -/
def Signature.observed (I : Signature) (S : Type) : Signature where
  Op := I.Op × S
  Reply := fun call => I.Reply call.1

/-- A call made by a routine, its reply and the state just before it. -/
abbrev Call (I : Signature) (S : Type) := Exchange (I.observed S)

inductive Flow (R A : Type) where
  | exit : R → Flow R A
  | next : A → Flow R A

def Routine (I : Signature) (S R A : Type) := S → Program (I.observed S) (Flow R A × S)

variable {I : Signature} {S R A B : Type}

namespace Routine

protected def pure (a : A) : Routine I S R A := fun s => .done (.next a, s)

protected def bind (p : Routine I S R A) (k : A → Routine I S R B) : Routine I S R B := fun s =>
  (p s).bind fun out =>
    match out.1 with
    | .exit r => .done (.exit r, out.2)
    | .next a => k a out.2

instance : Monad (Routine I S R) where
  pure := Routine.pure
  bind := Routine.bind

def request (o : I.Op) : Routine I S R (I.Reply o) := fun s =>
  .call (o, s) fun reply => .done (.next reply, s)

def read : Routine I S R S := fun s => .done (.next s, s)

def modify (f : S → S) : Routine I S R Unit := fun s => .done (.next (), f s)

/-- Leave the whole routine with a result. -/
def exit (r : R) : Routine I S R A := fun s => .done (.exit r, s)

/-- The program of a routine whose last value is itself a result. -/
def program (p : Routine I S R R) (s : S) : Program (I.observed S) (R × S) :=
  (p s).bind fun out =>
    match out.1 with
    | .exit r => .done (r, out.2)
    | .next r => .done (r, out.2)

/-- Postconditions for falling through and for leaving early. -/
def Ensures (p : Routine I S R A) (next : A → S → List (Call I S) → Prop)
    (leave : R → S → List (Call I S) → Prop) (s : S) (past : List (Call I S)) : Prop :=
  (p s).Ensures (fun out talk =>
    match out.1 with
    | .exit r => leave r out.2 talk
    | .next a => next a out.2 talk) past

variable {next : A → S → List (Call I S) → Prop} {leave : R → S → List (Call I S) → Prop} {s : S}
  {past : List (Call I S)} {p : Routine I S R A}

@[simp] theorem ensures_pure (a : A) :
    (pure a : Routine I S R A).Ensures next leave s past ↔ next a s past := Iff.rfl

@[simp] theorem ensures_read {next : S → S → List (Call I S) → Prop} :
    (read : Routine I S R S).Ensures next leave s past ↔ next s s past := Iff.rfl

@[simp] theorem ensures_exit (r : R) :
    (exit r : Routine I S R A).Ensures next leave s past ↔ leave r s past := Iff.rfl

variable {k : A → Routine I S R B}

@[simp] theorem ensures_bind {p : Routine I S R A} {next : B → S → List (Call I S) → Prop} :
    (p >>= k).Ensures next leave s past ↔
      p.Ensures (fun a s talk => (k a).Ensures next leave s talk) leave s past := by
  refine (Program.ensures_bind _ (p s) _ past).trans ?_
  constructor
  · intro ensured
    refine ensured.mono fun ⟨flow, state⟩ talk holds => ?_
    cases flow <;> exact holds
  · intro ensured
    refine ensured.mono fun ⟨flow, state⟩ talk holds => ?_
    cases flow <;> exact holds

theorem Ensures.mono {after : A → S → List (Call I S) → Prop} {out : R → S → List (Call I S) → Prop}
    (ensured : p.Ensures next leave s past) (falls : ∀ a s talk, next a s talk → after a s talk)
    (leaves : ∀ r s talk, leave r s talk → out r s talk) : p.Ensures after out s past := by
  refine Program.Ensures.mono ensured fun ⟨flow, state⟩ talk holds => ?_
  cases flow with
  | exit r => exact leaves r state talk holds
  | next a => exact falls a state talk holds

/-- Sequencing: the rest starts where the first part fell through. -/
theorem Ensures.bind {after : B → S → List (Call I S) → Prop}
    (ensured : p.Ensures next leave s past)
    (rest : ∀ a s talk, next a s talk → (k a).Ensures after leave s talk) :
    (p >>= k).Ensures after leave s past := by
  apply ensures_bind.mpr
  apply ensured.mono rest
  intro _ _ _ left
  exact left

/-- One postcondition for both ways out covers the routine's program. -/
theorem Ensures.program {p : Routine I S R R} {post : R → S → List (Call I S) → Prop}
    (ensured : p.Ensures post post s past) :
    (p.program s).Ensures (fun out talk => post out.1 out.2 talk) past := by
  refine (Program.ensures_bind _ (p s) _ past).mpr ?_
  refine Program.Ensures.mono ensured fun ⟨flow, state⟩ talk holds => ?_
  cases flow <;> exact holds

end Routine

end Interaction
