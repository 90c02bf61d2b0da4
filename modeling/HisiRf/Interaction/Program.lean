import Mathlib.Logic.Basic

/-! Finite interaction programs and the conversations they hold.

A program issues typed requests and continues with the reply. Nothing is said
about who answers: a property of every conversation is a property of every
environment, including one that fails, lies about time or changes its mind.
-/

namespace Interaction

/-- Requests together with the type of reply each of them receives. -/
structure Signature where
  Op : Type
  Reply : Op → Type

inductive Program (I : Signature) (A : Type) where
  | done : A → Program I A
  | call : (o : I.Op) → (I.Reply o → Program I A) → Program I A

/-- One answered request. -/
structure Exchange (I : Signature) where
  op : I.Op
  reply : I.Reply op

variable {I : Signature} {A B C : Type}

namespace Program

def bind : Program I A → (A → Program I B) → Program I B
  | .done a, k => k a
  | .call o next, k => .call o fun reply => (next reply).bind k

instance : Monad (Program I) where
  pure := .done
  bind := Program.bind

@[simp] theorem done_bind (a : A) (k : A → Program I B) : (Program.done a).bind k = k a := rfl

/-- `Runs p talk a`: the program can return `a` after exactly the conversation `talk`. -/
inductive Runs : Program I A → List (Exchange I) → A → Prop where
  | done (a : A) : Runs (.done a) [] a
  | call {o : I.Op} {next : I.Reply o → Program I A} {talk : List (Exchange I)} {a : A}
      (reply : I.Reply o) : Runs (next reply) talk a → Runs (.call o next) (⟨o, reply⟩ :: talk) a

/-- Every completion of the program extends `past` to a conversation in `post`. -/
def Ensures (post : A → List (Exchange I) → Prop) : Program I A → List (Exchange I) → Prop
  | .done a, past => post a past
  | .call o next, past => ∀ reply, Ensures post (next reply) (past ++ [⟨o, reply⟩])

theorem ensures_bind (post : B → List (Exchange I) → Prop) (p : Program I A)
    (k : A → Program I B) (past : List (Exchange I)) :
    (p.bind k).Ensures post past ↔ p.Ensures (fun a talk => (k a).Ensures post talk) past := by
  induction p generalizing past with
  | done => rfl
  | call o next ih => exact forall_congr' fun reply => ih reply _

variable {post : A → List (Exchange I) → Prop} {p : Program I A} {past talk : List (Exchange I)}
  {a : A} {allowed : I.Op → Prop}

theorem Ensures.mono {weaker : A → List (Exchange I) → Prop} (ensured : p.Ensures post past)
    (weakens : ∀ a talk, post a talk → weaker a talk) : p.Ensures weaker past := by
  induction p generalizing past with
  | done a => exact weakens a past ensured
  | call o next ih =>
    intro reply
    exact ih reply (ensured reply)

/-- The rule is sound for whole conversations, which is how a caller uses it. -/
theorem Ensures.sound (ensured : p.Ensures post past) (run : Runs p talk a) :
    post a (past ++ talk) := by
  induction run generalizing past with
  | done => rw [List.append_nil]; exact ensured
  | call reply _ ih => simpa using ih (ensured reply)

/-- The program makes no other requests than these. -/
def Only (allowed : I.Op → Prop) : Program I A → Prop
  | .done _ => True
  | .call o next => allowed o ∧ ∀ reply, (next reply).Only allowed

theorem Only.bind {k : A → Program I B} (first : p.Only allowed) (rest : ∀ a, (k a).Only allowed) :
    (p.bind k).Only allowed := by
  induction p with
  | done a => exact rest a
  | call o next ih => exact ⟨first.1, fun reply => ih reply (first.2 reply)⟩

theorem only_any (p : Program I A) : p.Only fun _ => True := by
  induction p with
  | done => trivial
  | call o next ih => exact ⟨trivial, ih⟩

theorem Only.mono {wider : I.Op → Prop} (only : p.Only allowed) (widens : ∀ o, allowed o → wider o) :
    p.Only wider := by
  induction p with
  | done => trivial
  | call o next ih => exact ⟨widens o only.1, fun reply => ih reply (only.2 reply)⟩

theorem Only.runs (only : p.Only allowed) (run : Runs p talk a) :
    ∀ exchange ∈ talk, allowed exchange.op := by
  induction run with
  | done => exact List.forall_mem_nil _
  | call reply _ ih => exact List.forall_mem_cons.mpr ⟨only.1, ih (only.2 reply)⟩

/-- `Reaches p talk q`: after the conversation `talk` the program goes on as `q`. -/
inductive Reaches : Program I A → List (Exchange I) → Program I A → Prop where
  | here (p : Program I A) : Reaches p [] p
  | call {o : I.Op} {next : I.Reply o → Program I A} {talk : List (Exchange I)} {rest : Program I A}
      (reply : I.Reply o) :
      Reaches (next reply) talk rest → Reaches (.call o next) (⟨o, reply⟩ :: talk) rest

theorem Runs.reaches (run : Runs p talk a) : p.Reaches talk (.done a) := by
  induction run with
  | done => exact .here _
  | call reply _ ih => exact .call reply ih

/-- Run against an environment that answers each request by a fixed function. -/
def answer (oracle : (o : I.Op) → I.Reply o) : Program I A → List (Exchange I) × A
  | .done a => ([], a)
  | .call o next =>
    let rest := (next (oracle o)).answer oracle
    (⟨o, oracle o⟩ :: rest.1, rest.2)

theorem answer_runs (oracle : (o : I.Op) → I.Reply o) (p : Program I A) :
    Runs p (p.answer oracle).1 (p.answer oracle).2 := by
  induction p with
  | done a => exact .done a
  | call o next ih => exact .call (oracle o) (ih (oracle o))

/-- What the program returns after a given conversation, if it can hold it. -/
def follow [DecidableEq I.Op] : Program I A → List (Exchange I) → Option A
  | .done a, [] => some a
  | .call o next, ⟨p, reply⟩ :: rest => if same : p = o then (next (same ▸ reply)).follow rest else none
  | _, _ => none

theorem runs_of_follow [DecidableEq I.Op] (returned : p.follow talk = some a) : Runs p talk a := by
  induction p generalizing talk with
  | done b =>
    cases talk with
    | nil => exact Option.some.inj returned ▸ .done b
    | cons => cases returned
  | call o next ih =>
    cases talk with
    | nil => cases returned
    | cons first rest =>
      obtain ⟨q, reply⟩ := first
      by_cases same : q = o
      · subst same
        rw [follow, dif_pos rfl] at returned
        exact .call reply (ih reply returned)
      · rw [follow, dif_neg same] at returned
        cases returned

end Program

end Interaction
