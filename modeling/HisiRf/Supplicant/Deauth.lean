import HisiRf.Interaction.Transition
import HisiRf.Machine.Word
import HisiRf.Storage.Ring
import Mathlib.Data.List.Nodup

/-! The queue of deauthentication requests.

Requests wait in a ring of four, at most one of them runs, and the results of
the last eight are kept. A ledger says what the queue stands for: the completed
tickets, the running one and the waiting ones are together the numbers from one
to the last one issued, in this order.
-/

namespace HisiRf.Deauth

open Interaction List
open Machine (checkedAdd)
open Storage (Ring Log cellValues)

abbrev capacity : Nat := 4
abbrev historySize : Nat := 8

instance : NeZero capacity := ⟨by decide⟩
instance : NeZero historySize := ⟨by decide⟩

structure Ticket where
  raw : UInt64
  deriving DecidableEq

structure Request where
  ticket : Ticket
  reason : UInt16

structure Checkpoint where
  issued : UInt64
  rejected : UInt64

structure Receipt where
  before : UInt64
  through : UInt64
  deriving DecidableEq

inductive Returned where | noRequest | ioctls deriving DecidableEq

inductive Poll (A : Type) where
  | ready (a : A)
  | pending
  deriving DecidableEq

inductive Error where
  | full | exhausted | rejected | evidenceLost | invalidCompletion | wakeFailed
  | workerUnavailable | busy
  | native (status : Int32)
  deriving DecidableEq

def Error.status : Error → Int32
  | .full => -0x6301
  | .exhausted => -0x6302
  | .rejected => -0x6303
  | .evidenceLost => -0x6304
  | .invalidCompletion => -0x6305
  | .wakeFailed => -0x6306
  | .workerUnavailable => -0x6308
  | .busy => -0x6309
  | .native status => status

structure Queue where
  requests : Ring Request capacity
  running : Option Ticket
  issued : UInt64
  rejected : UInt64
  history : Log (Ticket × Int32) historySize
  fault : Option Error
  nativeFailure : Option Int32

namespace Queue

def new : Queue := ⟨.empty, none, 0, 0, .empty, none, none⟩

def checkpoint (q : Queue) : Checkpoint := ⟨q.issued, q.rejected⟩

def health (q : Queue) : Except Error Unit :=
  match q.fault with
  | some fault => .error fault
  | none => .ok ()

def pollIdle (q : Queue) : Except Error (Poll Unit) :=
  match q.fault, q.nativeFailure with
  | some fault, _ => .error fault
  | none, some status => .error (.native status)
  | none, none =>
    if q.rejected ≠ 0 then .error .rejected
    else .ok (if q.running.isSome ∨ q.requests.len ≠ 0 then .pending else .ready ())

def faulted (q : Queue) (fault : Error) : Queue := { q with fault := some fault }

def reject (q : Queue) (error : Error) : Error × Queue :=
  match checkedAdd q.rejected 1 with
  | some rejected => (error, { q with rejected := rejected })
  | none => (.exhausted, q.faulted .exhausted)

/-- The queue with one more request, under a number that was found to be left. -/
def accept (q : Queue) (sequence : UInt64) (reason : UInt16) : Queue :=
  { q with requests := q.requests.push ⟨⟨sequence⟩, reason⟩, issued := sequence }

def push (q : Queue) (reason : UInt16) : Except Error Ticket × Queue :=
  match q.fault with
  | some fault => (.error fault, q)
  | none =>
    if q.requests.len = capacity then
      let (error, q) := q.reject .full
      (.error error, q)
    else
      match checkedAdd q.issued 1 with
      | none => (.error .exhausted, q.faulted .exhausted)
      | some sequence => (.ok ⟨sequence⟩, q.accept sequence reason)

def pop (q : Queue) : Option Request × Queue :=
  if q.running.isSome ∨ q.requests.len = 0 ∨ q.fault.isSome then (none, q)
  else
    match q.requests.front with
    | none => (none, q)
    | some request =>
      (some request, { q with requests := q.requests.drop, running := some request.ticket })

def complete (q : Queue) (ticket : Ticket) (status : Int32) : Except Error Unit × Queue :=
  if q.running ≠ some ticket then (.error .invalidCompletion, q.faulted .invalidCompletion)
  else
    (.ok (), { q with
      history := q.history.add (ticket, status)
      running := none
      nativeFailure :=
        if status ≠ 0 ∧ q.nativeFailure = none then some status else q.nativeFailure })

def beginInline (q : Queue) (reason : UInt16) : Except Error Request × Queue :=
  match q.pollIdle with
  | .error error => (.error error, q)
  | .ok .pending =>
    let (error, q) := q.reject .busy
    (.error error, q)
  | .ok (.ready ()) =>
    match q.push reason with
    | (.error error, q) => (.error error, q)
    | (.ok ticket, q) =>
      match q.pop with
      | (some request, q) =>
        if request.ticket = ticket then (.ok request, q)
        else (.error .invalidCompletion, q.faulted .invalidCompletion)
      | (none, q) => (.error .invalidCompletion, q.faulted .invalidCompletion)

def wakeFailed (q : Queue) : Queue := q.faulted .wakeFailed

def workerUnavailable (q : Queue) : Queue := q.faulted .workerUnavailable

def receiptSince (q : Queue) (before : Checkpoint) : Except Error Receipt :=
  match q.fault with
  | some fault => .error fault
  | none =>
    if before.rejected ≠ q.rejected then .error .rejected
    else if q.issued < before.issued ∨ 8 < q.issued - before.issued then .error .evidenceLost
    else .ok ⟨before.issued, q.issued⟩

/-- Go through the tickets of a receipt; `pending` tells whether one of them is still on its way. -/
def pollTickets (q : Queue) (pending : Bool) : List Ticket → Except Error (Poll Returned)
  | [] => .ok (if pending then .pending else .ready .ioctls)
  | ticket :: rest =>
    match (cellValues q.history.cells).find? (·.1 == ticket) with
    | some (_, status) =>
      if status ≠ 0 then .error (.native status) else q.pollTickets pending rest
    | none =>
      if q.running = some ticket ∨ (cellValues q.requests.cells).any (·.ticket == ticket) then
        q.pollTickets true rest
      -- An overwritten result must not be taken for a success.
      else .error .evidenceLost

end Queue

/-- The numbers after `before` up to `through`. -/
def Receipt.tickets (receipt : Receipt) : List Ticket :=
  (range' (receipt.before.toNat + 1) (receipt.through.toNat - receipt.before.toNat)).map
    fun sequence => ⟨UInt64.ofNat sequence⟩

def Queue.poll (q : Queue) (receipt : Receipt) : Except Error (Poll Returned) :=
  match q.fault with
  | some fault => .error fault
  | none =>
    if q.issued < receipt.through ∨ receipt.through < receipt.before ∨
        8 < receipt.through - receipt.before then .error .evidenceLost
    else if receipt.before = receipt.through then .ok (.ready .noRequest)
    else q.pollTickets false receipt.tickets

/-- A call that can change the queue, with what it returned. -/
inductive Label where
  | push (reason : UInt16) (result : Except Error Ticket)
  | pop (result : Option Request)
  | complete (ticket : Ticket) (status : Int32) (result : Except Error Unit)
  | beginInline (reason : UInt16) (result : Except Error Request)
  | wakeFailed
  | workerUnavailable

inductive Step (q : Queue) : Label → Queue → Prop where
  | push (reason : UInt16) : Step q (.push reason (q.push reason).1) (q.push reason).2
  | pop : Step q (.pop q.pop.1) q.pop.2
  | complete (ticket : Ticket) (status : Int32) :
      Step q (.complete ticket status (q.complete ticket status).1) (q.complete ticket status).2
  | beginInline (reason : UInt16) :
      Step q (.beginInline reason (q.beginInline reason).1) (q.beginInline reason).2
  | wakeFailed : Step q .wakeFailed q.wakeFailed
  | workerUnavailable : Step q .workerUnavailable q.workerUnavailable

def queueSystem : System Queue Label := ⟨Step⟩

variable {q : Queue} {waiting : List Request}

theorem reject_cases (error : Error) :
    (∃ rejected : UInt64, rejected.toNat = q.rejected.toNat + 1 ∧
        q.reject error = (error, { q with rejected := rejected })) ∨
      q.reject error = (.exhausted, q.faulted .exhausted) := by
  unfold Queue.reject
  cases counted : checkedAdd q.rejected 1 with
  | none => exact .inr rfl
  | some rejected => exact .inl ⟨rejected, Machine.checkedAdd_eq_some counted, rfl⟩

theorem reject_keeps (error : Error) :
    (q.reject error).2.running = q.running ∧ (q.reject error).2.issued = q.issued := by
  rcases reject_cases (q := q) error with ⟨_, _, counted⟩ | exhausted
  · rw [counted]
    exact ⟨rfl, rfl⟩
  · rw [exhausted]
    exact ⟨rfl, rfl⟩

variable (reason : UInt16)

theorem push_cases :
    (∃ fault, q.fault = some fault ∧ q.push reason = (.error fault, q)) ∨
      (q.fault = none ∧ q.requests.len = capacity ∧
        q.push reason = (.error (q.reject .full).1, (q.reject .full).2)) ∨
      q.push reason = (.error .exhausted, q.faulted .exhausted) ∨
      ∃ sequence : UInt64, q.fault = none ∧ q.requests.len ≠ capacity ∧
        sequence.toNat = q.issued.toNat + 1 ∧
        q.push reason = (.ok ⟨sequence⟩, q.accept sequence reason) := by
  unfold Queue.push
  cases q.fault with
  | some fault => exact .inl ⟨fault, rfl, rfl⟩
  | none =>
    right
    split_ifs with full
    · exact .inl ⟨rfl, full, rfl⟩
    · right
      cases counted : checkedAdd q.issued 1 with
      | none => exact .inl rfl
      | some sequence =>
        exact .inr ⟨sequence, rfl, full, Machine.checkedAdd_eq_some counted, rfl⟩

/-- A request leaves the ring exactly if nothing runs and nothing is wrong. -/
theorem pop_cases (ring : q.requests.Holds waiting) :
    ((q.running ≠ none ∨ waiting = [] ∨ q.fault ≠ none) ∧ q.pop = (none, q)) ∨
      ∃ request rest, waiting = request :: rest ∧ q.running = none ∧ q.fault = none ∧
        q.pop = (some request,
          { q with requests := q.requests.drop, running := some request.ticket }) := by
  have empty : q.requests.len = 0 ↔ waiting = [] := by rw [ring.len, length_eq_zero_iff]
  unfold Queue.pop
  simp only [Option.isSome_iff_ne_none, empty]
  split_ifs with refused
  · exact .inl ⟨refused, rfl⟩
  · simp only [not_or, not_not] at refused
    obtain ⟨idle, some_waiting, healthy⟩ := refused
    cases waiting with
    | nil => exact absurd rfl some_waiting
    | cons request rest =>
      rw [ring.front]
      exact .inr ⟨request, rest, rfl, idle, healthy, rfl⟩

theorem pollIdle_ready : q.pollIdle = .ok (.ready ()) ↔
    q.fault = none ∧ q.nativeFailure = none ∧ q.rejected = 0 ∧ q.running = none ∧
      q.requests.len = 0 := by
  unfold Queue.pollIdle
  cases fault : q.fault <;> cases failure : q.nativeFailure <;> simp
  by_cases counted : q.rejected = 0
  · cases running : q.running <;> by_cases empty : q.requests.len = 0 <;> simp [counted, empty]
  · simp [counted]

theorem pollIdle_pending (pending : q.pollIdle = .ok .pending) : q.fault = none := by
  unfold Queue.pollIdle at pending
  cases fault : q.fault with
  | none => rfl
  | some =>
    rw [fault] at pending
    cases pending

/-- An inline request is refused, or it is accepted and started in one go. -/
theorem beginInline_cases (ring : q.requests.Holds waiting) :
    (∃ error, q.pollIdle = .error error ∧ q.beginInline reason = (.error error, q)) ∨
      (q.fault = none ∧
        q.beginInline reason = (.error (q.reject .busy).1, (q.reject .busy).2)) ∨
      q.beginInline reason = (.error .exhausted, q.faulted .exhausted) ∨
      ∃ sequence : UInt64, q.pollIdle = .ok (.ready ()) ∧ waiting = [] ∧
        sequence.toNat = q.issued.toNat + 1 ∧
        q.beginInline reason = (.ok ⟨⟨sequence⟩, reason⟩,
          { q.accept sequence reason with
            requests := (q.accept sequence reason).requests.drop
            running := some ⟨sequence⟩ }) := by
  unfold Queue.beginInline
  cases idle : q.pollIdle with
  | error error => exact .inl ⟨error, rfl, rfl⟩
  | ok poll =>
    right
    cases poll with
    | pending => exact .inl ⟨pollIdle_pending idle, rfl⟩
    | ready =>
      obtain ⟨healthy, _, _, quiet, empty⟩ := pollIdle_ready.mp idle
      obtain rfl : waiting = [] := length_eq_zero_iff.mp (ring.len.symm.trans empty)
      right
      rcases push_cases (q := q) reason with
        ⟨fault, faulty, _⟩ | ⟨_, full, _⟩ | refused | ⟨sequence, _, _, next, went⟩
      · rw [healthy] at faulty
        cases faulty
      · rw [empty] at full
        cases full
      · rw [refused]
        exact .inl rfl
      rw [went]
      right
      have pushed : (q.accept sequence reason).requests.Holds [⟨⟨sequence⟩, reason⟩] :=
        ring.push (by decide) _
      rcases pop_cases pushed with ⟨stuck, _⟩ | ⟨request, rest, only, _, _, popped⟩
      · rcases stuck with running | none_waiting | faulty
        · exact absurd quiet running
        · cases none_waiting
        · exact absurd healthy faulty
      · grind

def ticketOf (number : Nat) : Ticket := ⟨UInt64.ofNat number⟩

def firstTickets (issued : Nat) : List Ticket := (range' 1 issued).map ticketOf

variable {sequence : UInt64} {ticket : Ticket}

theorem firstTickets_succ {issued : Nat} (next : sequence.toNat = issued + 1) :
    firstTickets (issued + 1) = firstTickets issued ++ [⟨sequence⟩] := by
  have last : ticketOf (1 + issued) = ⟨sequence⟩ := by
    rw [ticketOf, Nat.add_comm, ← next, UInt64.ofNat_toNat]
  unfold firstTickets
  rw [range'_1_concat, map_append, map_singleton, last]

def Label.completion : Label → Option (Ticket × Int32)
  | .complete ticket status (.ok ()) => some (ticket, status)
  | _ => none

/-- The call was turned away because the queue was full or busy. -/
def Label.isRejection : Label → Bool
  | .push _ (.error .full) => true
  | .beginInline _ (.error .busy) => true
  | _ => false

/-- The completed requests of a history with their statuses, in order. -/
def completions (labels : List Label) : List (Ticket × Int32) := labels.filterMap Label.completion

def Error.isFault : Error → Bool
  | .exhausted | .invalidCompletion | .wakeFailed | .workerUnavailable => true
  | _ => false

structure Ledger (q : Queue) (labels : List Label) (waiting : List Request) : Prop where
  ring : q.requests.Holds waiting
  history : q.history.Keeps (completions labels)
  numbered : (completions labels).map Prod.fst ++ (q.running.toList ++ waiting.map Request.ticket) =
    firstTickets q.issued.toNat
  failure : q.nativeFailure = ((completions labels).map Prod.snd).find? (· ≠ 0)
  rejections : q.rejected.toNat = labels.countP Label.isRejection
  faults : ∀ fault, q.fault = some fault → fault.isFault = true

theorem ledger_new : Ledger .new [] [] where
  ring := Storage.Ring.holds_empty
  history := Storage.Log.keeps_empty
  numbered := rfl
  failure := rfl
  rejections := rfl
  faults := nofun

variable {q' : Queue} {label : Label} {labels : List Label}

theorem completions_quiet (quiet : label.completion = none) :
    completions (labels ++ [label]) = completions labels := by
  rw [completions, filterMap_concat, quiet]
  exact append_nil _

/-- The request at the head starts to run; the numbers stay where they are. -/
theorem Ledger.start {request : Request} {rest : List Request}
    (ledger : Ledger q labels (request :: rest)) (idle : q.running = none) :
    Ledger { q with requests := q.requests.drop, running := some request.ticket } labels rest := by
  refine ⟨ledger.ring.drop, ledger.history, ?_, ledger.failure, ledger.rejections, ledger.faults⟩
  rw [← ledger.numbered, idle]
  rfl

theorem find_nonzero_concat (statuses : List Int32) (status : Int32) :
    (statuses ++ [status]).find? (· ≠ 0) =
      if status ≠ 0 ∧ statuses.find? (· ≠ 0) = none then some status
      else statuses.find? (· ≠ 0) := by
  rw [find?_append]
  cases statuses.find? (· ≠ 0) <;> by_cases zero : status = 0 <;> simp [zero]

theorem pollIdle_error {error : Error} (refused : q.pollIdle = .error error) :
    q.fault = some error ∨ (∃ status, error = .native status) ∨ error = .rejected := by
  unfold Queue.pollIdle at refused
  split at refused
  next fault => exact .inl (fault.trans (congrArg some (Except.error.inj refused)))
  · exact .inr (.inl ⟨_, (Except.error.inj refused).symm⟩)
  · split at refused
    · exact .inr (.inr (Except.error.inj refused).symm)
    · cases refused

section

variable (ledger : Ledger q labels waiting)
include ledger

theorem rejections_concat
    (counts : q'.rejected.toNat = q.rejected.toNat + label.isRejection.toNat) :
    q'.rejected.toNat = (labels ++ [label]).countP Label.isRejection := by
  rw [counts, ledger.rejections, countP_append]
  cases counted : label.isRejection <;> simp [counted]

/-- A call that is refused moves no ticket; it may be counted or leave a fault. -/
theorem Ledger.refused (requests : q'.requests = q.requests) (running : q'.running = q.running)
    (issued : q'.issued = q.issued) (history : q'.history = q.history)
    (failure : q'.nativeFailure = q.nativeFailure) (quiet : label.completion = none)
    (counts : q'.rejected.toNat = q.rejected.toNat + label.isRejection.toNat)
    (faults : ∀ fault, q'.fault = some fault → fault.isFault = true) :
    Ledger q' (labels ++ [label]) waiting := by
  have same : completions (labels ++ [label]) = completions labels := completions_quiet quiet
  refine ⟨?_, ?_, ?_, ?_, rejections_concat ledger counts, faults⟩
  · rw [requests]
    exact ledger.ring
  · rw [history, same]
    exact ledger.history
  · rw [same, running, issued]
    exact ledger.numbered
  · rw [failure, same]
    exact ledger.failure

theorem Ledger.fault {fault : Error} (known : fault.isFault = true)
    (quiet : label.completion = none) (uncounted : label.isRejection = false) :
    Ledger (q.faulted fault) (labels ++ [label]) waiting := by
  refine ledger.refused rfl rfl rfl rfl rfl quiet ?_ ?_
  · rw [uncounted]
    rfl
  · intro other same
    exact Option.some.inj same ▸ known

theorem Ledger.same (quiet : label.completion = none) (uncounted : label.isRejection = false) :
    Ledger q (labels ++ [label]) waiting := by
  refine ledger.refused rfl rfl rfl rfl rfl quiet ?_ ledger.faults
  rw [uncounted]
  rfl

/-- A refusal for want of room is counted, until the counter itself is used up. -/
theorem Ledger.reject {error : Error} (told : Error → Label) (healthy : q.fault = none)
    (quiet : ∀ error, (told error).completion = none) (counted : (told error).isRejection = true)
    (uncounted : (told .exhausted).isRejection = false) :
    Ledger (q.reject error).2 (labels ++ [told (q.reject error).1]) waiting := by
  rcases reject_cases (q := q) error with ⟨rejected, next, rejection⟩ | exhausted
  · rw [rejection]
    refine ledger.refused rfl rfl rfl rfl rfl (quiet error) ?_ ?_
    · rw [counted, next]
      rfl
    · grind
  · rw [exhausted]
    exact ledger.fault rfl (quiet .exhausted) uncounted

theorem Ledger.accept (room : q.requests.len ≠ capacity)
    (next : sequence.toNat = q.issued.toNat + 1) :
    Ledger (q.accept sequence reason) labels (waiting ++ [⟨⟨sequence⟩, reason⟩]) := by
  have fits : waiting.length < capacity := by
    have bound := ledger.ring.fits
    rw [ledger.ring.len] at room
    omega
  refine ⟨ledger.ring.push fits _, ledger.history, ?_, ledger.failure, ledger.rejections,
    ledger.faults⟩
  change _ = firstTickets sequence.toNat
  rw [next, firstTickets_succ next, ← ledger.numbered]
  simp [Queue.accept]

theorem Ledger.finish {status : Int32} (own : q.running = some ticket) :
    Ledger (q.complete ticket status).2
      (labels ++ [.complete ticket status (q.complete ticket status).1]) waiting := by
  unfold Queue.complete
  rw [if_neg (not_not.mpr own)]
  have grown : completions (labels ++ [.complete ticket status (.ok ())]) =
      completions labels ++ [(ticket, status)] := filterMap_concat _ _ _
  refine ⟨ledger.ring, ?_, ?_, ?_, rejections_concat ledger ?_, ledger.faults⟩
  · rw [grown]
    exact ledger.history.add _
  · change _ = firstTickets q.issued.toNat
    rw [grown, ← ledger.numbered, own]
    simp
  · rw [grown, map_append, map_singleton, find_nonzero_concat, ← ledger.failure]
  · rfl

theorem Ledger.push :
    ∃ after, Ledger (q.push reason).2 (labels ++ [.push reason (q.push reason).1]) after := by
  rcases push_cases (q := q) reason with
    ⟨fault, faulty, refused⟩ | ⟨healthy, _, refused⟩ | refused | ⟨sequence, _, room, next, went⟩
  · rw [refused]
    have known := ledger.faults fault faulty
    exact ⟨waiting, ledger.same rfl (by cases fault <;> first | rfl | cases known)⟩
  · rw [refused]
    exact ⟨waiting, ledger.reject (fun error => .push reason (.error error)) healthy
      (fun _ => rfl) rfl rfl⟩
  · rw [refused]
    exact ⟨waiting, ledger.fault rfl rfl rfl⟩
  · rw [went]
    exact ⟨_, (ledger.accept reason room next).same rfl rfl⟩

theorem Ledger.beginInline :
    ∃ after, Ledger (q.beginInline reason).2
      (labels ++ [.beginInline reason (q.beginInline reason).1]) after := by
  rcases beginInline_cases reason ledger.ring with
    ⟨error, idle, refused⟩ | ⟨healthy, refused⟩ | refused | ⟨sequence, ready, empty, next, went⟩
  · rw [refused]
    have uncounted : Label.isRejection (.beginInline reason (.error error)) = false := by
      rcases pollIdle_error idle with faulty | ⟨_, rfl⟩ | rfl
      · have known := ledger.faults error faulty
        cases error <;> first | rfl | cases known
      · rfl
      · rfl
    exact ⟨waiting, ledger.same rfl uncounted⟩
  · rw [refused]
    exact ⟨waiting, ledger.reject (fun error => .beginInline reason (.error error)) healthy
      (fun _ => rfl) rfl rfl⟩
  · rw [refused]
    exact ⟨waiting, ledger.fault rfl rfl rfl⟩
  · rw [went]
    subst empty
    obtain ⟨_, _, _, idle, none_waiting⟩ := pollIdle_ready.mp ready
    have room : q.requests.len ≠ capacity := by rw [none_waiting]; decide
    exact ⟨[], ((ledger.accept reason room next).start idle).same rfl rfl⟩

theorem Ledger.step (step : Step q label q') :
    ∃ after, Ledger q' (labels ++ [label]) after := by
  cases step with
  | push reason => exact ledger.push reason
  | pop =>
    rcases pop_cases ledger.ring with ⟨_, refused⟩ | ⟨request, rest, rfl, idle, _, popped⟩
    · rw [refused]
      exact ⟨waiting, ledger.same rfl rfl⟩
    · rw [popped]
      exact ⟨rest, (ledger.start idle).same rfl rfl⟩
  | complete ticket =>
    by_cases own : q.running = some ticket
    · exact ⟨waiting, ledger.finish own⟩
    · rw [Queue.complete, if_pos own]
      exact ⟨waiting, ledger.fault rfl rfl rfl⟩
  | beginInline reason => exact ledger.beginInline reason
  | wakeFailed | workerUnavailable => exact ⟨waiting, ledger.fault rfl rfl rfl⟩

omit ledger in
theorem ledger_of_run (run : Run queueSystem .new labels q) : ∃ waiting, Ledger q labels waiting := by
  induction run with
  | start => exact ⟨[], ledger_new⟩
  | next _ step ih =>
    obtain ⟨waiting, ledger⟩ := ih
    exact ledger.step step

/-! The numbers of the ledger, part by part. -/

theorem Ledger.lengths :
    (completions labels).length + (q.running.toList.length + waiting.length) = q.issued.toNat := by
  have total := congrArg length ledger.numbered
  simpa [firstTickets] using total

theorem Ledger.parts :
    (completions labels).map Prod.fst = firstTickets (completions labels).length ∧
      q.running.toList = (range' ((completions labels).length + 1)
        q.running.toList.length).map ticketOf ∧
      waiting.map Request.ticket = (range' ((completions labels).length + 1 +
        q.running.toList.length) waiting.length).map ticketOf := by
  have numbered := ledger.numbered
  rw [← ledger.lengths, firstTickets, ← range'_append_1, map_append, Nat.add_comm 1,
    ← range'_append_1, map_append] at numbered
  obtain ⟨finished, rest⟩ := append_inj numbered (by simp)
  obtain ⟨running, behind⟩ := append_inj rest (by simp)
  exact ⟨finished, running, behind⟩

omit ledger in
theorem ticketOf_inj {first second : Nat} (small : first < 2 ^ 64) (other : second < 2 ^ 64)
    (same : ticketOf first = ticketOf second) : first = second := by
  have raw := congrArg (fun ticket : Ticket => ticket.raw.toNat) same
  simp only [ticketOf, UInt64.toNat_ofNat'] at raw
  rwa [Nat.mod_eq_of_lt small, Nat.mod_eq_of_lt other] at raw

theorem Ledger.running (runs : q.running = some ticket) :
    ticket.raw.toNat = (completions labels).length + 1 := by
  have lengths := ledger.lengths
  have own := ledger.parts.2.1
  rw [runs] at lengths own
  have same : ticket = ticketOf ((completions labels).length + 1) := singleton_inj.mp own
  have bound := q.issued.toNat_lt
  rw [Option.toList_some, length_singleton] at lengths
  rw [same, ticketOf, UInt64.toNat_ofNat', Nat.mod_eq_of_lt (by omega)]

theorem Ledger.nodup :
    ((completions labels).map Prod.fst ++ (q.running.toList ++ waiting.map Request.ticket)).Nodup := by
  rw [ledger.numbered]
  refine Nodup.map_on ?_ nodup_range'
  intro first inside second other same
  have bound := q.issued.toNat_lt
  rw [mem_range'_1] at inside other
  exact ticketOf_inj (by omega) (by omega) same

def Label.issues : Label → Option Ticket
  | .push _ (.ok ticket) => some ticket
  | .beginInline _ (.ok request) => some request.ticket
  | _ => none

theorem Ledger.issued (step : Step q label q') :
    (label.issues = none ∧ q'.issued = q.issued) ∨
      ∃ sequence : UInt64, sequence.toNat = q.issued.toNat + 1 ∧ label.issues = some ⟨sequence⟩ ∧
        q'.issued = sequence := by
  cases step with
  | push reason =>
    rcases push_cases (q := q) reason with
      ⟨_, _, refused⟩ | ⟨_, _, refused⟩ | refused | ⟨sequence, _, _, next, went⟩
    · rw [refused]
      exact .inl ⟨rfl, rfl⟩
    · rw [refused]
      exact .inl ⟨rfl, (reject_keeps .full).2⟩
    · rw [refused]
      exact .inl ⟨rfl, rfl⟩
    · rw [went]
      exact .inr ⟨sequence, next, rfl, rfl⟩
  | pop =>
    rcases pop_cases ledger.ring with ⟨_, refused⟩ | ⟨_, _, _, _, _, popped⟩
    · rw [refused]
      exact .inl ⟨rfl, rfl⟩
    · rw [popped]
      exact .inl ⟨rfl, rfl⟩
  | complete =>
    refine .inl ⟨rfl, ?_⟩
    unfold Queue.complete
    split <;> rfl
  | beginInline reason =>
    rcases beginInline_cases reason ledger.ring with
      ⟨_, _, refused⟩ | ⟨_, refused⟩ | refused | ⟨sequence, _, _, next, went⟩
    · rw [refused]
      exact .inl ⟨rfl, rfl⟩
    · rw [refused]
      exact .inl ⟨rfl, (reject_keeps .busy).2⟩
    · rw [refused]
      exact .inl ⟨rfl, rfl⟩
    · rw [went]
      exact .inr ⟨sequence, next, rfl, rfl⟩
  | wakeFailed | workerUnavailable => exact .inl ⟨rfl, rfl⟩

omit ledger in
/-- The tickets given out are the numbers from one on, each of them once. -/
theorem issues_of_run (run : Run queueSystem .new labels q) :
    labels.filterMap Label.issues = firstTickets q.issued.toNat := by
  induction run with
  | start => rfl
  | next run step ih =>
    obtain ⟨waiting, ledger⟩ := ledger_of_run run
    rw [filterMap_concat, ih]
    rcases ledger.issued step with ⟨silent, same⟩ | ⟨sequence, next, issued, same⟩
    · grind
    · rw [issued, same, next, firstTickets_succ next]
      rfl

def Label.starts : Label → Option Request
  | .pop request => request
  | .beginInline _ (.ok request) => some request
  | _ => none

theorem Ledger.faulted (step : Step q label q') (faulted : q.fault ≠ none) :
    q'.fault ≠ none ∧ label.starts = none := by
  cases step with
  | push reason =>
    refine ⟨?_, rfl⟩
    rcases push_cases (q := q) reason with
      ⟨_, _, refused⟩ | ⟨healthy, _⟩ | refused | ⟨_, healthy, _⟩
    · rw [refused]
      exact faulted
    · exact absurd healthy faulted
    · rw [refused]
      exact nofun
    · exact absurd healthy faulted
  | pop =>
    rcases pop_cases ledger.ring with ⟨_, refused⟩ | ⟨_, _, _, _, healthy, _⟩
    · rw [refused]
      exact ⟨faulted, rfl⟩
    · exact absurd healthy faulted
  | complete =>
    refine ⟨?_, rfl⟩
    unfold Queue.complete
    split
    · exact nofun
    · exact faulted
  | beginInline reason =>
    rcases beginInline_cases reason ledger.ring with
      ⟨_, _, refused⟩ | ⟨healthy, _⟩ | refused | ⟨_, idle, _⟩
    · rw [refused]
      exact ⟨faulted, rfl⟩
    · exact absurd healthy faulted
    · rw [refused]
      exact ⟨nofun, rfl⟩
    · exact absurd (pollIdle_ready.mp idle).1 faulted
  | wakeFailed | workerUnavailable => exact ⟨nofun, rfl⟩

theorem exhausted_issues (last : q.issued.toNat + 1 = 2 ^ 64) (step : Step q label q') :
    label.issues = none := by
  rcases ledger.issued step with ⟨silent, _⟩ | ⟨sequence, next, _, _⟩
  · exact silent
  · have bound := sequence.toNat_lt
    omega

end

theorem faulted_run {past : List Label} (first : Run queueSystem .new past q)
    (second : Run queueSystem q labels q') (faulted : q.fault ≠ none) :
    q'.fault ≠ none ∧ ∀ label ∈ labels, label.starts = none := by
  induction second with
  | start => exact ⟨faulted, forall_mem_nil _⟩
  | next run step ih =>
    obtain ⟨waiting, ledger⟩ := ledger_of_run (first.trans run)
    obtain ⟨kept, silent⟩ := ledger.faulted step ih.1
    exact ⟨kept, forall_mem_append.mpr ⟨ih.2, forall_mem_singleton.mpr silent⟩⟩

end HisiRf.Deauth
