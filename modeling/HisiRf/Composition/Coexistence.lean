import HisiRf.Interaction.Program

/-! Starting Wi-Fi or an access point together with BLE or SLE.

All task reservations come from one admission. Those of the coexisting stack travel in an owned
batch through what is started before it. Some exits release them. The others leave them to the drop
of the batch, which is not code of the crate: the model only records that it happens.
-/

namespace HisiRf.Composition

open Interaction

inductive Op where
  | requireRuntime | currentTask | taskGroups | taskPlan
  /- The whole plan is admitted, or nothing. -/
  | reservePlan
  | take (group : Nat) | release (group : Nat)
  /- `spawn_reserved`, with the configuration of the task. -/
  | spawn (group : Nat)
  | storageClaim | installTaskReservation | initIncrementalClaimed
  | claimAccessPointInstance | initializeAccessPointPlatform | startAccessPoint
  | cryptoSelfTest | eventSink | registerCallbacks (number : Nat)
  | lockScheduler | unlockScheduler | yieldNow | enable
  | dropBatch
  deriving DecidableEq

/-- Every call tells whether it succeeded; the drop of the batch is not asked. -/
abbrev ops : Signature := ⟨Op, fun _ => Bool⟩

/-- A start ends with nothing, or with the call that failed. -/
abbrev Task := Program ops (Option Op)

def branch (o : Op) (next refused : Task) : Task :=
  Program.call (I := ops) o fun ok => if ok then next else refused

/-- Go on if the call succeeds, as `?` does. -/
def attempt (o : Op) (next : Task) : Task := branch o next (.done (some o))

def attempts (calls : List Op) (next : Task) : Task := calls.foldr attempt next

/-- The features `incremental-embassy-wait` and `ble-init-diag`. -/
structure Features where
  worker : Bool
  diag : Bool

variable (features : Features)

/-- Where one reservation is. In the batch it is `hindered` once that did not give it or a release
failed, and out of it `refused` once the call it was taken for failed. -/
inductive Fate where
  | unadmitted | batch (hindered : Bool) | held | spawned | released | refused
  | dropped (hindered : Bool)
  deriving DecidableEq

def Fate.hinder : Fate → Fate
  | .batch _ => .batch true
  | fate => fate

def Fate.after (group : Nat) (fate : Fate) (o : Op) (ok : Bool) : Fate :=
  match o with
  | .reservePlan => if ok then .batch false else fate
  | .take other => if other = group then if ok then .held else fate.hinder else fate
  | .spawn other => if other = group then if ok then .spawned else .refused else fate
  | .release other =>
    if other = group then if ok then .released else .refused else if ok then fate else fate.hinder
  | .dropBatch => match fate with
    | .batch hindered => .dropped hindered
    | _ => fate
  | _ => fate

abbrev Talk := List (Exchange ops)

/-- A failure here is followed by the release of all reservations. -/
def Op.givesBack : Op → Bool
  | .storageClaim | .installTaskReservation | .initIncrementalClaimed => true
  | _ => false

/-- No failure leaves a reservation in hand or in a batch that was not dropped. -/
def Fate.accounted : Fate → Op → Bool
  | .batch _, _ | .held, _ => false
  | .unadmitted, failed | .spawned, failed => !failed.givesBack
  | .dropped hindered, failed => hindered || !failed.givesBack
  | .released, _ | .refused, _ => true

/-- The calls have two replies each, so that all conversations of a start can be gone through. -/
def check (group : Nat) : Task → Fate → Bool
  | .done ending, fate => ending.all fate.accounted
  | .call o next, fate => check group (next true) (fate.after group o true) &&
    check group (next false) (fate.after group o false)

end HisiRf.Composition
