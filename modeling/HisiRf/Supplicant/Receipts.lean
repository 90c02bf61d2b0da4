import HisiRf.Supplicant.Deauth

/-! Receipts for deauthentication requests.

A receipt names the requests that were issued between a checkpoint and the
moment it was taken. It is polled against a history that keeps the last eight
results only, possibly long after. A success is reported exactly if every result
that the receipt needs is zero and still there.
-/

namespace HisiRf.Deauth

open Interaction List
open Storage (cellValues)

variable {q : Queue} {labels : List Label} {waiting : List Request}

variable {entry : Ticket × Int32} {ticket : Ticket} {pending : Bool} {tickets : List Ticket}
  {receipt : Receipt}

theorem find_result {entries : List (Ticket × Int32)}
    (found : entries.find? (·.1 == ticket) = some entry) : (ticket, entry.2) ∈ entries := by
  have fits := find?_some found
  have own : entry.1 = ticket := beq_iff_eq.mp fits
  have member := mem_of_find?_eq_some found
  rwa [← own]

theorem pollTickets_ok {returned : Returned}
    (ready : q.pollTickets pending tickets = .ok (.ready returned)) :
    pending = false ∧ returned = .ioctls := by
  induction tickets generalizing pending with
  | nil =>
    cases pending with
    | true => cases ready
    | false => exact ⟨rfl, (Poll.ready.inj (Except.ok.inj ready)).symm⟩
  | cons ticket rest ih =>
    unfold Queue.pollTickets at ready
    split at ready
    · split at ready
      · cases ready
      · exact ih ready
    · split at ready
      · cases (ih ready).1
      · cases ready

theorem pollTickets_native {status : Int32}
    (failed : q.pollTickets pending tickets = .error (.native status)) :
    status ≠ 0 ∧ ∃ ticket ∈ tickets, (ticket, status) ∈ cellValues q.history.cells := by
  induction tickets generalizing pending with
  | nil => cases failed
  | cons ticket rest ih =>
    have later (recursive : ∃ pending, q.pollTickets pending rest = .error (.native status)) :
        status ≠ 0 ∧ ∃ other ∈ ticket :: rest, (other, status) ∈ cellValues q.history.cells := by
      obtain ⟨pending, failed⟩ := recursive
      obtain ⟨nonzero, other, member, result⟩ := ih failed
      exact ⟨nonzero, other, mem_cons_of_mem _ member, result⟩
    unfold Queue.pollTickets at failed
    split at failed
    next owner result found =>
      split at failed
      next nonzero =>
        obtain rfl := Error.native.inj (Except.error.inj failed)
        exact ⟨nonzero, ticket, mem_cons_self, find_result found⟩
      · exact later ⟨_, failed⟩
    · split at failed
      · exact later ⟨_, failed⟩
      · cases failed

theorem mem_tickets : ticket ∈ receipt.tickets ↔ ∃ number, receipt.before.toNat < number ∧
      number ≤ receipt.through.toNat ∧ ticketOf number = ticket := by
  unfold Receipt.tickets
  simp only [mem_map, mem_range'_1]
  constructor
  · rintro ⟨number, bounds, rfl⟩
    exact ⟨number, by omega, by omega, rfl⟩
  · rintro ⟨number, after, upto, rfl⟩
    exact ⟨number, by omega, rfl⟩

theorem forall_mem_tickets {fine : Ticket → Prop} :
    (∀ ticket ∈ receipt.tickets, fine ticket) ↔ ∀ number, receipt.before.toNat < number →
      number ≤ receipt.through.toNat → fine (ticketOf number) := by
  constructor
  · intro all number after upto
    exact all _ (mem_tickets.mpr ⟨number, after, upto, rfl⟩)
  · intro all ticket member
    obtain ⟨number, after, upto, rfl⟩ := mem_tickets.mp member
    exact all number after upto

theorem receiptSince_ok {checkpoint : Checkpoint}
    (taken : q.receiptSince checkpoint = .ok receipt) :
    receipt = ⟨checkpoint.issued, q.issued⟩ ∧ checkpoint.issued.toNat ≤ q.issued.toNat ∧
      q.issued.toNat - checkpoint.issued.toNat ≤ 8 := by
  unfold Queue.receiptSince at taken
  split at taken
  · cases taken
  split_ifs at taken with _ lost
  obtain rfl := (Except.ok.inj taken).symm
  simp only [not_or, UInt64.not_lt] at lost
  obtain ⟨order, near⟩ := lost
  have difference := UInt64.toNat_sub_of_le q.issued checkpoint.issued order
  rw [UInt64.le_iff_toNat_le] at order near
  rw [difference] at near
  exact ⟨rfl, order, near⟩

section

variable (ledger : Ledger q labels waiting)
include ledger

theorem Ledger.mem_history :
    entry ∈ cellValues q.history.cells ↔ entry ∈ (completions labels).reverse.take 8 :=
  ledger.history.mem_cells

theorem Ledger.one_result {first second : Int32}
    (here : (ticket, first) ∈ cellValues q.history.cells)
    (there : (ticket, second) ∈ cellValues q.history.cells) : first = second := by
  have distinct := (nodup_append.mp ledger.nodup).1
  have member {entry : Ticket × Int32} (found : entry ∈ cellValues q.history.cells) :
      entry ∈ completions labels :=
    mem_reverse.mp (mem_of_mem_take (ledger.mem_history.mp found))
  have same := inj_on_of_nodup_map distinct (member here) (member there) rfl
  exact congrArg Prod.snd same

theorem pollTickets_ready (tickets : List Ticket) :
    q.pollTickets false tickets = .ok (.ready .ioctls) ↔
      ∀ ticket ∈ tickets, (ticket, 0) ∈ cellValues q.history.cells := by
  induction tickets with
  | nil => simp [Queue.pollTickets]
  | cons ticket rest ih =>
    unfold Queue.pollTickets
    rw [forall_mem_cons]
    cases found : (cellValues q.history.cells).find? (·.1 == ticket) with
    | some entry =>
      have result := find_result found
      by_cases zero : entry.2 = 0
      · rw [zero] at result
        simp [zero, ih, result]
      · -- The ticket cannot have the result zero as well.
        have differ : (ticket, 0) ∉ cellValues q.history.cells :=
          fun other => zero (ledger.one_result result other)
        simp [zero, differ]
    | none =>
      have absent : (ticket, 0) ∉ cellValues q.history.cells := by
        intro member
        exact find?_eq_none.mp found _ member (beq_self_eq_true ticket)
      dsimp only
      split
      · exact iff_of_false (fun ready => Bool.noConfusion (pollTickets_ok ready).1)
          fun facts => absent facts.1
      · exact iff_of_false nofun fun facts => absent facts.1

theorem rejected_eq_zero : q.rejected = 0 ↔ ∀ label ∈ labels, label.isRejection = false := by
  rw [← UInt64.toNat_inj, ledger.rejections, UInt64.toNat_zero, countP_eq_zero]
  simp only [Bool.not_eq_true]

theorem nativeFailure_eq_none :
    q.nativeFailure = none ↔ ∀ entry ∈ completions labels, entry.2 = 0 := by
  rw [ledger.failure, find?_eq_none, forall_mem_map]
  simp only [decide_not, Bool.not_eq_eq_eq_not, Bool.not_true, decide_eq_false_iff_not, not_not]

theorem pollIdle_ready_iff :
    q.pollIdle = .ok (.ready ()) ↔ q.fault = none ∧ (∀ entry ∈ completions labels, entry.2 = 0) ∧
      (∀ label ∈ labels, label.isRejection = false) ∧ q.running = none ∧ q.requests.len = 0 := by
  rw [pollIdle_ready, nativeFailure_eq_none ledger, rejected_eq_zero ledger]

end

variable {q₀ q₁ q₂ : Queue} {past between later : List Label}

section

variable (first : Run queueSystem .new past q₀) (second : Run queueSystem q₀ between q₁)
include first second

theorem issued_of_run : q₁.issued.toNat = q₀.issued.toNat + between.countP (·.issues.isSome) := by
  induction second with
  | start => rfl
  | next run step ih =>
    obtain ⟨waiting, ledger⟩ := ledger_of_run (first.trans run)
    rw [countP_append, countP_singleton, ← Nat.add_assoc, ← ih]
    rcases ledger.issued step with ⟨none_issued, same⟩ | ⟨sequence, next, issued, same⟩
    · rw [same, none_issued]
      rfl
    · rw [same, next, issued]
      rfl

/-- A poll at any later time goes through the tickets of the receipt. -/
theorem poll_later (taken : q₁.receiptSince q₀.checkpoint = .ok receipt)
    (third : Run queueSystem q₁ later q₂) : q₂.poll receipt = match q₂.fault with
      | some fault => .error fault
      | none => if receipt.before = receipt.through then .ok (.ready .noRequest)
          else q₂.pollTickets false receipt.tickets := by
  obtain ⟨rfl, order, near⟩ := receiptSince_ok taken
  have later := issued_of_run (first.trans second) third
  have difference := UInt64.toNat_sub_of_le q₁.issued q₀.issued (UInt64.le_iff_toNat_le.mpr order)
  have kept : ¬ (q₂.issued < q₁.issued ∨ q₁.issued < q₀.checkpoint.issued ∨
      8 < q₁.issued - q₀.checkpoint.issued) := by
    simp only [UInt64.lt_iff_toNat_lt, not_or, Nat.not_lt]
    refine ⟨by omega, order, ?_⟩
    exact Nat.le_trans (Nat.le_of_eq difference) near
  unfold Queue.poll
  cases q₂.fault with
  | some => rfl
  | none => exact if_neg kept

theorem before_eq_through (taken : q₁.receiptSince q₀.checkpoint = .ok receipt) :
    receipt.before = receipt.through ↔ ∀ label ∈ between, label.issues = none := by
  obtain ⟨rfl, _, _⟩ := receiptSince_ok taken
  have counted := issued_of_run first second
  change q₀.issued = q₁.issued ↔ _
  rw [← UInt64.toNat_inj, counted, Nat.left_eq_add, countP_eq_zero]
  simp only [Bool.not_eq_true, Option.isSome_eq_false_iff, Option.isNone_iff_eq_none]

end

/-- A receipt polled at any later time succeeds exactly if nothing is wrong, it covers a ticket, and
each covered ticket was completed with zero and is still among the last eight results. It reports a
native status only if a covered ticket ended with it, and no request at all exactly if nothing was
issued between the checkpoint and the receipt. -/
theorem receipt_poll_needs_all_results (first : Run queueSystem .new past q₀)
    (second : Run queueSystem q₀ between q₁) (taken : q₁.receiptSince q₀.checkpoint = .ok receipt)
    (third : Run queueSystem q₁ later q₂) :
    (q₂.poll receipt = .ok (.ready .ioctls) ↔ q₂.fault = none ∧
      receipt.before.toNat < receipt.through.toNat ∧
      ∀ number, receipt.before.toNat < number → number ≤ receipt.through.toNat →
        (ticketOf number, 0) ∈ (completions (past ++ between ++ later)).reverse.take 8) ∧
    (∀ status, q₂.poll receipt = .error (.native status) → status ≠ 0 ∧
      ∃ number, receipt.before.toNat < number ∧ number ≤ receipt.through.toNat ∧
        (ticketOf number, status) ∈ completions (past ++ between ++ later)) ∧
    (q₂.poll receipt = .ok (.ready .noRequest) ↔ q₂.fault = none ∧
      ∀ label ∈ between, label.issues = none) ∧ (q₂.pollIdle = .ok (.ready ()) ↔ q₂.fault = none ∧
      (∀ entry ∈ completions (past ++ between ++ later), entry.2 = 0) ∧
      (∀ label ∈ past ++ between ++ later, label.isRejection = false) ∧ q₂.running = none ∧
      q₂.requests.len = 0) := by
  obtain ⟨waiting, ledger⟩ := ledger_of_run ((first.trans second).trans third)
  have polled := poll_later first second taken third
  have order : receipt.before.toNat ≤ receipt.through.toNat := by
    obtain ⟨rfl, order, _⟩ := receiptSince_ok taken
    exact order
  have covers : receipt.before ≠ receipt.through ↔
      receipt.before.toNat < receipt.through.toNat := by
    rw [Ne, ← UInt64.toNat_inj]
    omega
  have nothing := before_eq_through first second taken
  refine ⟨?_, ?_, ?_, pollIdle_ready_iff ledger⟩
  · rw [polled, ← covers]
    cases q₂.fault with
    | some => simp
    | none =>
      by_cases empty : receipt.before = receipt.through
      · simp [empty]
      · simp only [if_neg empty, pollTickets_ready ledger, forall_mem_tickets,
          ledger.mem_history]
        simp [empty]
  · intro status failed
    rw [polled] at failed
    cases fault : q₂.fault with
    | some error =>
      -- A fault of the queue is never a native status.
      have known := ledger.faults error fault
      rw [fault] at failed
      rw [Except.error.inj failed] at known
      cases known
    | none =>
      rw [fault] at failed
      dsimp only at failed
      split at failed
      · cases failed
      · obtain ⟨nonzero, ticket, member, result⟩ := pollTickets_native failed
        obtain ⟨number, after, upto, rfl⟩ := mem_tickets.mp member
        have recent := mem_of_mem_take (ledger.mem_history.mp result)
        exact ⟨nonzero, number, after, upto, mem_reverse.mp recent⟩
  rw [polled, ← nothing]
  cases q₂.fault with
  | some => simp
  | none =>
    by_cases empty : receipt.before = receipt.through
    · simp [empty]
    · simp only [empty, if_false, and_false, iff_false]
      exact fun ready => Returned.noConfusion (pollTickets_ok ready).2

/-- The one request that a receipt covers is completed, well or with the status 5. -/
theorem receipt_of_completed_request : let issued := (Queue.new.push 3).2
    let ended (status : Int32) := (issued.pop.2.complete ⟨1⟩ status).2
    issued.receiptSince Queue.new.checkpoint = .ok ⟨0, 1⟩ ∧
      (ended 0).poll ⟨0, 1⟩ = .ok (.ready .ioctls) ∧
      (ended 5).poll ⟨0, 1⟩ = .error (.native 5) := by
  intro issued ended
  have taken : issued.receiptSince Queue.new.checkpoint = .ok ⟨0, 1⟩ := by decide +kernel
  have fresh : Run queueSystem .new [] .new := .start
  have polled := receipt_poll_needs_all_results fresh (fresh.next (.push 3)) taken
    (Run.next (.next .start .pop) (.complete ⟨1⟩ 0))
  refine ⟨taken, polled.1.mpr ⟨rfl, by decide, fun number after upto => ?_⟩, by decide +kernel⟩
  obtain rfl : number = 1 := Nat.le_antisymm upto after
  decide +kernel

/-- A request that is issued after the receipt was taken does not change what it says. -/
theorem late_request_is_not_covered : Queue.new.receiptSince Queue.new.checkpoint = .ok ⟨0, 0⟩ ∧
      Run queueSystem .new [.push 3 (.ok ⟨1⟩)] (Queue.new.push 3).2 ∧
      (Queue.new.push 3).2.poll ⟨0, 0⟩ = .ok (.ready .noRequest) :=
  ⟨by decide +kernel, .next .start (.push 3), by decide +kernel⟩

end HisiRf.Deauth
