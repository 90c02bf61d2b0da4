import HisiRf.Interaction.Program
import HisiRf.Netif.RxStop

/-! The probe that allocates the receive descriptors once and cleans them up again.

It runs with admission sealed. The native side may answer anything at any call, so
a statement about the probe is a statement about every conversation it can hold.
-/

namespace HisiRf.RxRebuild

open Interaction

def precondition : Int32 := -0x1025
def incomplete : Int32 := -0x1026
def configChanged : Int32 := -0x1027
def cleanup : Int32 := -0x1028

/-- Native queue order: normal, high, small. -/
abbrev Triple := Vector UInt16 3

structure Counts where
  actual : Triple
  expected : Triple

structure RxRebuildDiagnostics where
  expected : Triple
  actual : Triple := .replicate 3 0
  cleaned : Triple := .replicate 3 0
  macAfterInit : UInt8 := 0xff
  macAfterCleanup : UInt8 := 0xff
  attempted : Bool := false
  cleanupAttempted : Bool := false
  initStatus : Int32 := 0
  cleanupStatus : Int32 := 0
  fault : Int32 := 0

inductive DescriptorOp where | counts | macEnabled | init | disable | destroy

def descriptorOps : Signature where
  Op := DescriptorOp
  Reply
    | .counts => Counts
    | .macEnabled => UInt8
    | .init => Int32
    | .disable => Unit
    | .destroy => Int32

abbrev Probe := Program descriptorOps

def none3 : Triple := .replicate 3 0

def account (before : Counts) (result : RxRebuildDiagnostics) : Probe RxRebuildDiagnostics :=
  .call .macEnabled fun (macAfterCleanup : UInt8) => .call .counts fun final =>
    .done { result with
      macAfterCleanup
      cleaned := final.actual
      fault :=
        if result.fault ≠ 0 then result.fault
        else if result.cleanupStatus ≠ 0 then result.cleanupStatus
        else if macAfterCleanup ≠ 0 ∨ final.actual ≠ none3 then cleanup
        else if final.expected ≠ before.expected then configChanged
        else 0 }

def cleanUp (before : Counts) (result : RxRebuildDiagnostics) : Probe RxRebuildDiagnostics :=
  .call .disable fun _ => .call .macEnabled fun (mac : UInt8) =>
    if mac = 0 then
      .call .destroy fun status =>
        account before { result with cleanupAttempted := true, cleanupStatus := status }
    else account before { result with cleanupStatus := RxStop.macEnabled }

def probe : Probe RxRebuildDiagnostics :=
  .call .counts fun before =>
    let refused := { expected := before.expected, fault := precondition }
    if before.actual ≠ none3 ∨ before.expected = none3 then .done refused
    else .call .macEnabled fun (mac : UInt8) =>
      if mac ≠ 0 then .done refused
      else .call .init fun (initStatus : Int32) =>
        .call .macEnabled fun (macAfterInit : UInt8) => .call .counts fun after =>
          cleanUp before
            { expected := before.expected
              actual := after.actual
              attempted := true
              initStatus
              macAfterInit
              fault :=
                if initStatus ≠ 0 then initStatus
                else if macAfterInit ≠ 0 then RxStop.macEnabled
                else if after.expected ≠ before.expected then configChanged
                else if after.actual ≠ before.expected then incomplete
                else 0 }

/-- The code of the first check that failed, zero when none did. -/
def firstFailure : List (Bool × Int32) → Int32
  | [] => 0
  | (failed, code) :: later => if failed then code else firstFailure later

/-- What the native side answered to one allocation and its cleanup. -/
structure Answers where
  before : Counts
  status : Int32
  mac : UInt8
  after : Counts
  off : UInt8
  destroyed : Int32
  last : UInt8
  final : Counts

open Answers

namespace Answers

/-- The calls of an attempt: the lists are destroyed only right after the MAC was read as off. -/
def talk (a : Answers) : List (Exchange descriptorOps) :=
  [⟨.counts, a.before⟩, ⟨.macEnabled, (0 : UInt8)⟩, ⟨.init, a.status⟩, ⟨.macEnabled, a.mac⟩,
    ⟨.counts, a.after⟩, ⟨.disable, ()⟩, ⟨.macEnabled, a.off⟩] ++
  (if a.off = 0 then [⟨.destroy, a.destroyed⟩] else []) ++
  [⟨.macEnabled, a.last⟩, ⟨.counts, a.final⟩]

def cleanupStatus (a : Answers) : Int32 := if a.off = 0 then a.destroyed else RxStop.macEnabled

def checks (a : Answers) : List (Bool × Int32) :=
  [(a.status ≠ 0, a.status), (a.mac ≠ 0, RxStop.macEnabled),
    (a.after.expected ≠ a.before.expected, configChanged),
    (a.after.actual ≠ a.before.expected, incomplete), (a.cleanupStatus ≠ 0, a.cleanupStatus),
    (a.last ≠ 0 ∨ a.final.actual ≠ none3, cleanup),
    (a.final.expected ≠ a.before.expected, configChanged)]

structure Flawless (a : Answers) : Prop where
  statuses : a.status = 0 ∧ a.destroyed = 0
  mac : a.mac = 0 ∧ a.off = 0 ∧ a.last = 0
  counts : a.after.actual = a.before.expected ∧ a.final.actual = none3
  expected : a.after.expected = a.before.expected ∧ a.final.expected = a.before.expected

end Answers

theorem codes_ne_zero :
    RxStop.macEnabled ≠ 0 ∧ configChanged ≠ 0 ∧ incomplete ≠ 0 ∧ cleanup ≠ 0 := by decide

theorem firstFailure_eq_zero_iff (a : Answers) : firstFailure a.checks = 0 ↔ a.Flawless := by
  have codes := codes_ne_zero
  constructor
  · intro fine
    simp only [firstFailure, checks, cleanupStatus] at fine
    constructor <;> grind
  · intro flawless
    obtain ⟨⟨status, destroyed⟩, ⟨mac, off, last⟩, ⟨full, cleaned⟩, kept, still⟩ := flawless
    simp [firstFailure, checks, cleanupStatus, *]

/-- A probe that found something already there touches nothing. -/
def Refuses (result : RxRebuildDiagnostics) (talk : List (Exchange descriptorOps)) : Prop :=
  result.fault = precondition ∧ ∃ before : Counts,
    talk = [⟨.counts, before⟩] ∧ (before.actual ≠ none3 ∨ before.expected = none3) ∨
    ∃ mac : UInt8, talk = [⟨.counts, before⟩, ⟨.macEnabled, mac⟩] ∧ mac ≠ 0

/-- The probe allocates at most once, and only where no descriptor was there, some were expected
and the MAC was off; it makes no mutating call otherwise. After an allocation it always disables
the MAC and destroys the lists, unless the MAC still reads as enabled, which it then records. It
reports no fault exactly when nothing went wrong, and else the first thing that did. -/
theorem probe_allocates_once_and_cleans_up : probe.Ensures (fun result talk => Refuses result talk ∨
    ∃ a : Answers, talk = a.talk ∧ a.before.actual = none3 ∧ a.before.expected ≠ none3 ∧
      result.cleanupStatus = a.cleanupStatus ∧ result.fault = firstFailure a.checks ∧
      (result.fault = 0 ↔ a.Flawless)) [] := by
  intro before
  dsimp only
  split
  next refused => exact .inl ⟨rfl, before, .inl ⟨rfl, refused⟩⟩
  next ready =>
    simp only [not_or, not_not] at ready
    intro (mac : UInt8)
    dsimp only
    split
    next enabled => exact .inl ⟨rfl, before, .inr ⟨mac, rfl, enabled⟩⟩
    next disabled =>
      obtain rfl : mac = 0 := not_not.mp disabled
      intro (status : Int32) (macAfterInit : UInt8) after ⟨⟩ (off : UInt8)
      have codes := codes_ne_zero
      dsimp only
      split
      next idle =>
        intro (destroyed : Int32) (last : UInt8) final
        let a : Answers := ⟨before, status, macAfterInit, after, off, destroyed, last, final⟩
        refine .inr ⟨a, by simp [a, talk, idle], ready.1, ready.2, ?_, ?_⟩
        · simp [a, cleanupStatus, idle]
        · rw [← firstFailure_eq_zero_iff]
          simp only [a, checks, cleanupStatus, firstFailure, if_pos idle]
          grind
      next busy =>
        intro (last : UInt8) final
        let a : Answers := ⟨before, status, macAfterInit, after, off, 0, last, final⟩
        refine .inr ⟨a, by simp [a, talk, busy], ready.1, ready.2, ?_, ?_⟩
        · simp [a, cleanupStatus, busy]
        · rw [← firstFailure_eq_zero_iff]
          simp only [a, checks, cleanupStatus, firstFailure, if_neg busy]
          grind

end HisiRf.RxRebuild
