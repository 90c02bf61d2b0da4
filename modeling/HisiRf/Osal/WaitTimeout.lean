import HisiRf.Interaction.Program
import HisiRf.Machine.Word

/-! `osal_wait_timeout_interruptible`: wait for a condition, but not for ever.

The condition, the clock and the semaphore are sampled one after the other, and
between two samples anything may happen: the condition changes, a wake-up is late,
spurious or missing, time passes. An evaluation of the condition is therefore
recorded with the instant at which it took place.
-/

namespace HisiRf.OsalWait

open Interaction Program
open Machine (saturatingAdd)

def osalFailure : Int32 := -1

inductive Op where
  | jiffies
  | predicate
  | downTimeout (remaining : UInt32)
  deriving DecidableEq

abbrev Op.Reply : Op → Type
  | .jiffies => UInt64
  | .predicate => Int32 × UInt64
  | .downTimeout _ => Bool

abbrev ops : Signature := ⟨Op, Op.Reply⟩

abbrev Talk := List (Exchange ops)

def waitSuccessResult (forever : Bool) (deadline now : UInt64) : Int32 :=
  if forever then 1
  else .ofNat (min (max (deadline.toNat - now.toNat) 1) (2 ^ 31 - 1))

/-- At most so many rounds of the loop; a call that is still waiting has no result. -/
def waitLoop (forever : Bool) (deadline : UInt64) : Nat → Program ops (Option Int32)
  | 0 => .done none
  | rounds + 1 =>
    let block (remaining : UInt32) := .call (.downTimeout remaining) fun (fine : Bool) =>
      if fine then waitLoop forever deadline rounds else .done (some osalFailure)
    .call .predicate fun (held : Int32 × UInt64) =>
      if held.1 ≠ 0 then
        .call .jiffies fun now => .done (some (waitSuccessResult forever deadline now))
      else if forever then block 0xffffffff
      else .call .jiffies fun (now : UInt64) =>
        if deadline ≤ now then .done (some 0)
        else block (min (deadline - now) 0xffffffff).toUInt32

/-- `wait` says whether there is a semaphore, `func` whether there is a condition. -/
def osalWaitTimeoutInterruptible (wait func : Bool) (timeoutMs : UInt32) (rounds : Nat) :
    Program ops (Option Int32) :=
  let forever := timeoutMs = 0xffffffff
  if wait = false then .done (some osalFailure)
  else if ¬forever ∧ 0x7fffffff < timeoutMs then .done (some osalFailure)
  else .call .jiffies fun start =>
    if func = false then .done (some (if forever then 0x7fffffff else timeoutMs.toInt32))
    else if timeoutMs = 0 then
      .call .predicate fun (held : Int32 × UInt64) => .done (some (if held.1 ≠ 0 then 1 else 0))
    else waitLoop forever (saturatingAdd start timeoutMs.toUInt64) rounds

/-- The instants a conversation shows, in order. -/
def instants (talk : Talk) : List UInt64 :=
  talk.filterMap fun
    | ⟨.jiffies, now⟩ => some now
    | ⟨.predicate, held⟩ => some held.2
    | ⟨.downTimeout _, _⟩ => none

/-- The clock does not run backwards. -/
def Clocked (talk : Talk) : Prop := (instants talk).Pairwise (· ≤ ·)

/-- The semaphore does not fail. -/
def Reliable (talk : Talk) : Prop :=
  ∀ remaining, (⟨.downTimeout remaining, false⟩ : Exchange ops) ∉ talk

/-- The deadline lies between an evaluation that fails and the reading of the clock after it. -/
def Crosses (deadline : Nat) : Talk → Prop
  | ⟨.predicate, (value, instant)⟩ :: ⟨.jiffies, (now : UInt64)⟩ :: rest =>
    value = 0 ∧ instant.toNat < deadline ∧ deadline ≤ now.toNat ∨ Crosses deadline rest
  | _ :: rest => Crosses deadline rest
  | [] => False

/-- How a wait that is not for ever ends: with one evaluation and the clock read after it. -/
theorem waitLoop_ends {deadline : UInt64} {rounds : Nat} {talk : Talk} {r : Int32}
    (run : Runs (waitLoop false deadline rounds) talk (some r)) (reliable : Reliable talk) :
    ∃ front value instant, ∃ now : UInt64,
      talk = front ++ [⟨.predicate, (value, instant)⟩, ⟨.jiffies, now⟩] ∧
      (Crosses deadline.toNat talk ↔ value = 0 ∧ instant.toNat < deadline.toNat) ∧
      (value ≠ 0 ∧ r = waitSuccessResult false deadline now ∨
        value = 0 ∧ deadline ≤ now ∧ r = 0) := by
  induction rounds generalizing talk with
  | zero => cases run
  | succ rounds ih =>
    cases run with
    | call held run =>
      obtain ⟨value, instant⟩ := held
      dsimp only at run
      split at run
      next holds =>
        cases run with
        | call now run =>
          cases run
          exact ⟨[], value, instant, now, rfl, by simp [Crosses, holds], .inl ⟨holds, rfl⟩⟩
      next fails =>
        cases run with
        | @call _ _ _ _ now run =>
          dsimp only at run
          split at run
          next late =>
            cases run
            have reached := UInt64.le_iff_toNat_le.mp late
            exact ⟨[], value, instant, now, rfl, by simp [Crosses, reached],
              .inr ⟨not_not.mp fails, late, rfl⟩⟩
          next early =>
            -- Another round follows the semaphore, whose call did not fail.
            cases run with
            | call fine run =>
              cases fine with
              | false => exact (reliable _ (.tail _ (.tail _ (.head _)))).elim
              | true =>
                have later : Reliable _ := fun remaining member =>
                  reliable remaining (.tail _ (.tail _ (.tail _ member)))
                obtain ⟨front, value, instant, last, rfl, crosses, ending⟩ := ih run later
                refine ⟨_ :: _ :: _ :: front, value, instant, last, rfl, ?_, ending⟩
                rw [UInt64.le_iff_toNat_le] at early
                simpa [Crosses, early] using crosses

theorem waitSuccessResult_bounds {start now : UInt64} (later : start ≤ now) (timeoutMs : UInt32) :
    let r := (waitSuccessResult false (saturatingAdd start timeoutMs.toUInt64) now).toInt
    1 ≤ r ∧ r ≤ max 1 (timeoutMs.toNat : Int) := by
  have deadline := Machine.toNat_saturatingAdd start timeoutMs.toUInt64
  have order := UInt64.le_iff_toNat_le.mp later
  simp only [waitSuccessResult, Bool.false_eq_true, if_false]
  rw [Int32.toInt_ofNat_of_lt (by omega)]
  simp at deadline
  omega

/-- With a clock that does not run backwards and a semaphore that does not fail, the wait returns
the rest of its time, at least one, exactly when it last saw the condition hold. It returns zero
when it last saw the condition fail, and that was not before the deadline exactly if the deadline
did not pass between a failing look and the clock reading after it. -/
theorem wait_result_follows_condition {timeoutMs : UInt32} {rounds : Nat} {talk : Talk} {r : Int32}
    (finite : timeoutMs.toNat < 2 ^ 31)
    (run : Runs (osalWaitTimeoutInterruptible true true timeoutMs rounds) talk (some r))
    (clocked : Clocked talk) (reliable : Reliable talk) : ∃ start mid value instant rest deadline,
      deadline = min (start.toNat + timeoutMs.toNat) (2 ^ 64 - 1) ∧
      talk = ⟨.jiffies, (start : UInt64)⟩ :: mid ++ ⟨.predicate, (value, instant)⟩ :: rest ∧
      (∀ exchange ∈ rest, exchange.op ≠ .predicate) ∧
      (value ≠ 0 ↔ 1 ≤ r.toInt ∧ r.toInt ≤ max 1 (timeoutMs.toNat : Int)) ∧ (value = 0 ↔ r = 0) ∧
      ((r = 0 → deadline ≤ instant.toNat) ↔ ¬Crosses deadline talk) := by
  have bounded : ¬timeoutMs = 0xffffffff ∧ ¬0x7fffffff < timeoutMs := by
    rw [UInt32.lt_iff_toNat_lt, ← UInt32.toNat_inj]
    simp
    omega
  simp only [osalWaitTimeoutInterruptible, bounded, and_false, reduceCtorEq, if_false,
    decide_false] at run
  cases run with
  | @call _ _ _ _ start run =>
    dsimp only at run
    split at run
    next zero =>
      obtain rfl := zero
      cases run with
      | call held run =>
        obtain ⟨value, instant⟩ := held
        cases run
        have later : start ≤ instant := by simpa [Clocked, instants] using clocked
        have order := UInt64.le_iff_toNat_le.mp later
        refine ⟨start, [], value, instant, [], _, rfl, rfl, nofun, ?_, ?_, iff_of_true (fun _ => ?_) nofun⟩
        · split
          next holds => exact ⟨fun _ => by decide, fun _ => holds⟩
          next fails => exact ⟨fun holds => absurd holds fails, fun bounds => absurd bounds.1 (by decide)⟩
        · split <;> simp_all
        · rw [UInt32.toNat_zero]
          omega
    next =>
      have fine : Reliable _ := fun remaining member => reliable remaining (.tail _ member)
      obtain ⟨front, value, instant, now, rfl, crosses, ending⟩ := waitLoop_ends run fine
      have later : start ≤ now := by
        apply List.rel_of_pairwise_cons (l := instants (front ++ _)) clocked
        simp [instants]
      have bounds := waitSuccessResult_bounds later timeoutMs
      have deadline := Machine.toNat_saturatingAdd start timeoutMs.toUInt64
      refine ⟨start, front, value, instant, [⟨.jiffies, now⟩], _, by simpa using deadline, rfl,
        by simp, ?_⟩
      rcases ending with ⟨holds, rfl⟩ | ⟨rfl, late, rfl⟩
      · have positive : waitSuccessResult false (saturatingAdd start timeoutMs.toUInt64) now ≠ 0 := by
          intro zero
          rw [zero] at bounds
          exact absurd bounds.1 (by decide)
        refine ⟨⟨fun _ => bounds, fun _ => holds⟩, by simp [holds, positive], ?_⟩
        exact iff_of_true (fun zero => absurd zero positive) fun crossed => holds (crosses.mp crossed).1
      · refine ⟨by simp, by simp, ?_⟩
        simpa [Crosses] using (not_congr crosses).symm

/-- The clock ticks between look and reading, but not over the deadline: the last look is late
enough. -/
theorem wait_times_out_after_late_look :
    let talk : Talk := [⟨.jiffies, (5 : UInt64)⟩, ⟨.predicate, (0, 6)⟩, ⟨.jiffies, (7 : UInt64)⟩,
      ⟨.downTimeout 8, true⟩, ⟨.predicate, (0, 15)⟩, ⟨.jiffies, (16 : UInt64)⟩]
    Runs (osalWaitTimeoutInterruptible true true 10 2) talk (some 0) ∧ ¬Crosses 15 talk ∧
      ∃ mid value instant rest, 15 ≤ instant.toNat ∧
        talk = ⟨.jiffies, (5 : UInt64)⟩ :: mid ++ ⟨.predicate, (value, instant)⟩ :: rest := by
  intro talk
  have run : Runs (osalWaitTimeoutInterruptible true true 10 2) talk (some 0) :=
    runs_of_follow (by decide)
  have uncrossed : ¬Crosses 15 talk := by simp [talk, Crosses]
  obtain ⟨start, mid, value, instant, rest, _, rfl, same, _, _, _, timely⟩ :=
    wait_result_follows_condition (by decide) run (by unfold Clocked; decide) (by simp [talk, Reliable])
  obtain rfl : 5 = start := by simpa [talk] using congrArg List.head? same
  exact ⟨run, uncrossed, mid, value, instant, rest, timely.mpr uncrossed rfl, same⟩

/-- The condition fails just before the deadline, the clock reaches it, and the wait gives up
without looking again, although the condition may hold by then. -/
theorem wait_gives_up_on_early_look : ∃ talk, Clocked talk ∧ Reliable talk ∧
    Runs (osalWaitTimeoutInterruptible true true 10 1) (⟨.jiffies, (0 : UInt64)⟩ :: talk) (some 0) ∧
    ∀ value instant, ⟨.predicate, (value, instant)⟩ ∈ talk → instant < 10 := by
  refine ⟨[⟨.predicate, (0, 9)⟩, ⟨.jiffies, (10 : UInt64)⟩], ?_, by simp [Reliable], ?_, by simp⟩
  · unfold Clocked
    decide
  · exact runs_of_follow (by decide)

end HisiRf.OsalWait
