import HisiRf.Backend.PollSpec
import HisiRf.Interaction.Transition

/-! The life of one operation: polls and cancels in any order.

Polls and cancels may name any operation, use any budget and slice, and meet
any port and clock. The labels keep each poll's conversation and result.
-/

namespace HisiRf

open Interaction

inductive LifeLabel where
  | poll (talk : List PortCall) (result : PollReturn)
  | cancel (id : OperationId) (result : Except BackendError Unit)

def LifeLabel.talk : LifeLabel → List PortCall
  | .poll talk _ => talk
  | .cancel _ _ => []

inductive LifeStep (platform : Platform) :
    Option ActiveOperation → LifeLabel → Option ActiveOperation → Prop where
  | poll {active : Option ActiveOperation} {id : OperationId} {reason : WakeReason}
      {budget : WorkBudget} {output : List ScanResult} {talk : List PortCall}
      {result : PollReturn} {after : PollState} :
      Program.Runs (pollProgram platform id reason budget ⟨active, output⟩) talk (result, after) →
      LifeStep platform active (.poll talk result) after.active
  | cancel {active : Option ActiveOperation} (id : OperationId) :
      LifeStep platform active (.cancel id (HisiRf.cancel active id).1)
        (HisiRf.cancel active id).2

def life (platform : Platform) : System (Option ActiveOperation) LifeLabel :=
  ⟨LifeStep platform⟩

def conversation (labels : List LifeLabel) : List PortCall := labels.flatMap LifeLabel.talk

@[simp] theorem conversation_append (first second : List LifeLabel) :
    conversation (first ++ second) = conversation first ++ conversation second :=
  List.flatMap_append

@[simp] theorem conversation_single (label : LifeLabel) : conversation [label] = label.talk :=
  List.flatMap_singleton ..

theorem cancel_eq (active : Option ActiveOperation) (id : OperationId) :
    (HisiRf.cancel active id).2 = active ∨ ∃ op, active = some op ∧
        (HisiRf.cancel active id).2 = some { op with cancellationRequested := true } := by
  cases active with
  | none => exact .inl rfl
  | some op =>
    unfold HisiRf.cancel
    by_cases same : op.id = id
    · exact .inr ⟨op, rfl, by simp only [if_pos same]⟩
    · exact .inl (by simp only [if_neg same])

theorem cancel_accepted {op : ActiveOperation} {id : OperationId}
    (accepted : (HisiRf.cancel (some op) id).1 = .ok ()) : op.id = id ∧
      (HisiRf.cancel (some op) id).2 = some { op with cancellationRequested := true } := by
  by_cases same : op.id = id
  · exact ⟨same, by simp only [HisiRf.cancel, if_pos same]⟩
  · simp only [HisiRf.cancel, if_neg same] at accepted
    cases accepted

variable {platform : Platform} {id : OperationId} {reason : WakeReason} {budget : WorkBudget}
  {state after : PollState} {talk : List PortCall} {result : PollReturn}

section

variable (past : List PortCall)
  (run : Program.Runs (pollProgram platform id reason budget state) talk (result, after))
include past run

/-- A poll owns its operation and moves it, or finds another one and only reads the clock. -/
theorem poll_owned_or_stale : (∃ op, state.active = some op ∧ op.id = id ∧
      ∃ startedUs, Left op (begun state past startedUs) result after (past ++ talk)) ∨
    Stale state past result after (past ++ talk) := by
  by_cases owned : ∃ op, state.active = some op ∧ op.id = id
  · obtain ⟨op, active, rfl⟩ := owned
    exact .inl ⟨op, active, rfl, poll_runs past active run⟩
  · right
    have stale : ∀ op, state.active = some op → op.id ≠ id := by
      intro op active same
      exact owned ⟨op, active, same⟩
    exact (poll_stale stale).program.sound run

omit past in
/-- A poll ends the operation in the slot or leaves it with the same request. -/
theorem poll_same_request : after.active = none ∨ ∃ first later, state.active = some first ∧
      after.active = some later ∧ first.SameRequest later := by
  rcases poll_owned_or_stale [] run with ⟨first, found, _, startedUs, left⟩ | ⟨_, same, _⟩
  · cases left.ends with
    | failed idle | finished _ _ idle => exact .inl idle
    | refused active request | going _ _ active request =>
      exact .inr ⟨first, _, found, active, request⟩
  · rw [same]
    cases found : state.active with
    | none => exact .inl rfl
    | some op => exact .inr ⟨op, op, rfl, rfl, .refl op⟩

/-- Whatever a poll does, it is moves from the state it was called in. -/
theorem poll_moves : Moves ⟨state, past⟩ ⟨after, past ++ talk⟩ := by
  have asked : ∀ startedUs, Moves ⟨state, past⟩ (begun state past startedUs) :=
    fun startedUs => .single (.ask .nowUs startedUs rfl)
  rcases poll_owned_or_stale past run with ⟨op, _, _, startedUs, left⟩ | ⟨_, same, startedUs, read⟩
  · exact (asked startedUs).trans left.moves
  · rw [same, read]
    exact asked startedUs

end

/-- An invariant of the moves and of cancels is one of the whole life. -/
theorem life_invariant {inv : Option ActiveOperation → List PortCall → Prop}
    (moves : ∀ before after : Moment, Move before after →
      inv before.state.active before.talk → inv after.state.active after.talk)
    (cancels : ∀ op talk, inv (some op) talk →
      inv (some { op with cancellationRequested := true }) talk)
    {origin active : Option ActiveOperation} {labels : List LifeLabel}
    (run : Run (life platform) origin labels active) (holds : inv origin []) :
    inv active (conversation labels) := by
  induction run with
  | start => exact holds
  | @next labels before after label _ step known =>
    rw [conversation_append, conversation_single]
    cases step with
    | cancel id =>
      rw [LifeLabel.talk, List.append_nil]
      rcases cancel_eq before id with same | ⟨op, rfl, requested⟩
      · rwa [same]
      · rw [requested]
        exact cancels op _ known
    | poll run =>
      have path := poll_moves (conversation labels) run
      exact moves_invariant (fun before after move => moves before after move) path known

/-! Concrete lives: each poll names the active operation and meets a steady port. -/

inductive Deed where
  | poll (port : SteadyPort)
  | cancel (id : OperationId)

def Deed.perform (op : ActiveOperation) : Deed → LifeLabel × Option ActiveOperation
  | .poll port =>
    let done := steadyPoll port op
    (.poll done.1 done.2.1, done.2.2.active)
  | .cancel id => (.cancel id (HisiRf.cancel (some op) id).1, (HisiRf.cancel (some op) id).2)

def steadyLife : List Deed → Option ActiveOperation → List LifeLabel × Option ActiveOperation
  | [], active => ([], active)
  | _, none => ([], none)
  | deed :: rest, some op =>
    let done := deed.perform op
    let later := steadyLife rest done.2
    (done.1 :: later.1, later.2)

/-- A Connect as `start` leaves it, at time zero. -/
def queuedConnect : ActiveOperation := .fromRequest ⟨1⟩ (.connect ⟨[], 1, 60000⟩) 0

def reporting (kind : UInt8) (nowUs : UInt64) : SteadyPort :=
  { nowUs := nowUs, polls := .ok ⟨0, 1, Machine.wordMax⟩, event := some ⟨kind, 0⟩ }

theorem steadyLife_runs (script : List Deed) (active : Option ActiveOperation) :
    Run (life anyReport) active (steadyLife script active).1 (steadyLife script active).2 := by
  induction script generalizing active with
  | nil => exact .start
  | cons deed rest ih =>
    cases active with
    | none => exact .start
    | some op =>
      have first : (life anyReport).step (some op) (deed.perform op).1 (deed.perform op).2 := by
        cases deed with
        | poll port => exact .poll (steadyPoll_runs port op)
        | cancel id => exact .cancel id
      exact (Run.start.next first).trans (ih (deed.perform op).2)

end HisiRf
