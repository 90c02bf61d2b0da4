import HisiRf.Backend.PollSpec
import HisiRf.Worker.Mailbox

/-! Where an error leaves the operation slot.

Most errors of a poll first clear the operation. The requests that submit it
(or submit a Connect's cancellation) return their error directly, with the
operation still active, although the worker forgets it and the runner may
start the next one.
-/

namespace HisiRf

open Interaction

/-- The second call of the poll was the operation's submission, and it failed. -/
def SubmissionRefused (op : ActiveOperation) (talk : List PortCall) : Prop :=
  ∃ call, talk[1]? = some call ∧ op.submission = some call.op.1 ∧ (callError? call).isSome = true

def AcceptsStart (state : PollState) (id : OperationId) (request : IncrementalRequest) : Prop :=
  ∀ talk result after,
    Program.Runs ((startRequest id request).program state) talk (result, after) → result = .ok ()

theorem acceptsStart_of_idle {state : PollState} (idle : state.active = none) (id : OperationId)
    (request : IncrementalRequest) : AcceptsStart state id request := by
  intro talk result after run
  rcases startRequest_runs run with ⟨occupied, _, _⟩ | ⟨_, accepted, _⟩
  · rw [idle] at occupied
    cases occupied
  · exact accepted

theorem nextActive_of_error (id : OperationId) (error : BackendError) :
    nextActive (some id) (some (.polled id (.error error))) = none := by
  simp [nextActive, WorkerResponse.id]

variable {platform : Platform} {op : ActiveOperation} {reason : WakeReason} {budget : WorkBudget}
  {state after : PollState} {talk : List PortCall} {result : PollReturn}

/-- An error with the operation left in place was a refused submission. -/
theorem refused_of_kept_error {error : BackendError} (active : state.active = some op)
    (run : Program.Runs (pollProgram platform op.id reason budget state) talk (result, after))
    (failed : result = .error error) (kept : after.active ≠ none) : SubmissionRefused op talk := by
  obtain ⟨startedUs, left⟩ := poll_runs [] active run
  have ends := left.ends
  rw [failed, List.nil_append] at ends
  cases ends with
  | failed idle => exact absurd idle kept
  | refused active same due refusal =>
    refine ⟨_, rfl, due, ?_⟩
    exact Option.isSome_iff_exists.mpr ⟨error, refusal⟩

/-- A refused submission is returned and leaves the operation in place. -/
theorem kept_error_of_refused (active : state.active = some op)
    (run : Program.Runs (pollProgram platform op.id reason budget state) talk (result, after))
    (refused : SubmissionRefused op talk) :
    (∃ error, result = .error error) ∧ after.active ≠ none := by
  obtain ⟨startedUs, left⟩ := poll_runs [] active run
  obtain ⟨call, second, due, refusal⟩ := refused
  rcases left.told with accepted | ⟨failed, occupied⟩
  · have fine := accepted call second due
    rw [fine] at refusal
    cases refusal
  · refine ⟨failed, ?_⟩
    intro idle
    rw [idle] at occupied
    cases occupied

/-- An error of a poll frees the slot, for the worker and for the next start alike,
exactly when it is not a refused submission. -/
theorem poll_error_frees_slot_iff {platform : Platform} {op : ActiveOperation}
    {reason : WakeReason} {budget : WorkBudget} {state after : PollState} {talk : List PortCall}
    {result : PollReturn} (active : state.active = some op)
    (run : Program.Runs (pollProgram platform op.id reason budget state) talk (result, after)) :
    (∀ error, result = .error error → after.active = none ∧
      (∀ id request, AcceptsStart after id request) ∧
      nextActive (some op.id) (some (.polled op.id result)) =
        after.active.map ActiveOperation.id) ↔ ¬SubmissionRefused op talk := by
  constructor
  · intro frees refused
    obtain ⟨⟨error, failed⟩, kept⟩ := kept_error_of_refused active run refused
    exact kept (frees error failed).1
  · intro accepted error failed
    have idle : after.active = none := by
      by_contra kept
      exact accepted (refused_of_kept_error active run failed kept)
    refine ⟨idle, acceptsStart_of_idle idle, ?_⟩
    rw [failed, nextActive_of_error, idle]
    rfl

/-! A scan whose first native request fails: the slot stays taken. -/

def refusingPort : SteadyPort := { submits := .error (operationError 7) }

def failingPort : SteadyPort := { polls := .error (operationError 7) }

theorem refused_scan_blocks_next_start : ∃ talk kept, Program.Runs
        (pollProgram anyReport queuedScan.id .command oneEvent ⟨some queuedScan, []⟩) talk
        (.error (operationError 7), kept) ∧ nextActive (some queuedScan.id)
        (some (.polled queuedScan.id (.error (operationError 7)))) = none ∧
      Program.Runs ((startRequest ⟨2⟩ (.scan ⟨1000⟩)).program kept) []
        (.error (stagedError .busy 1 .controlPlane), kept) :=
  ⟨_, _, steadyPoll_runs refusingPort queuedScan, rfl, .done _⟩

theorem failed_native_poll_frees_slot :
    (∃ error, (steadyPoll failingPort queuedScan.submitting).2.1 = .error error) ∧ ∀ id request,
        AcceptsStart (steadyPoll failingPort queuedScan.submitting).2.2 id request := by
  have run := steadyPoll_runs failingPort queuedScan.submitting
  have accepted : ∀ talk, ¬SubmissionRefused queuedScan.submitting talk := by
    rintro talk ⟨call, _, due, _⟩
    cases due
  refine ⟨⟨operationError 7, rfl⟩, ?_⟩
  exact ((poll_error_frees_slot_iff rfl run).mpr (accepted _) (operationError 7) rfl).2.1

end HisiRf
