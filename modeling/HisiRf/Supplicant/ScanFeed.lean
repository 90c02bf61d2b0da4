import HisiRf.Interaction.Sum
import HisiRf.Supplicant.EventQueues

/-! Scans of the native supplicant, from their start to what is fed to it.

A scan is started by the runner or by a hook of the supplicant. The callbacks of
the vendor see a flag that tells whether a scan is active, and no more; what they
queue is taken and fed by the runner. Scans are counted here, and every callback
carries the scan that it belongs to, which no routine looks at. A callback may run
at any time after its scan was started.
-/

namespace HisiRf.ScanFeed

open Interaction
open EventQueues (IeLimit ScanEntry ScanMeta scanEventQueue)

section Data

/-- The entries of a queue, each with a mark that is copied along with it. -/
def marked (L : SlotQueue.Layout) : SlotQueue.Layout where
  Entry := Nat × L.Entry
  Content := Nat × L.Content
  blank := (0, L.blank)
  depth := L.depth
  accepts entry := L.accepts entry.2
  metered entry := L.metered entry.2
  quota := L.quota
  stores entry := (fun now => (entry.1, now.2)) ::
    (L.stores entry.2).map fun store now => (now.1, store now.2)
  view content := (content.1, L.view content.2)
  law := by
    intro entry content accepted
    have copied := Storage.storeAll_part Prod.snd (fun part (now : Nat × L.Content) => (now.1, part))
      (fun _ => rfl) (fun _ _ => rfl) (fun _ _ _ => rfl) (L.stores entry.2) (entry.1, content.2)
    have whole : Storage.storeAll ((fun now : Nat × L.Content => (entry.1, now.2)) ::
        (L.stores entry.2).map fun store now => (now.1, store now.2)) content = _ := copied
    rw [whole]
    exact Prod.ext rfl (L.law entry.2 content.2 accepted)

abbrev events (limit : IeLimit) : SlotQueue.Layout := marked (scanEventQueue limit)

variable (limit : IeLimit)

/-- `begun` is how many scans were started. -/
structure World where
  queue : SlotQueue.World (events limit)
  active : Bool
  begun : Nat

def World.new : World limit := ⟨.new (events limit), false, 0⟩

end Data

section Actions

variable (limit : IeLimit)

/-- What is done beside the queue. Native calls are one action each. -/
inductive Op where
  | requireDisconnectReturned
  | loadPort
  | capture
  | loadActive
  | swapActive
  | storeInactive
  | claimTimeout
  | beginScanCapture
  | scanIoctl
  | feed (entry : (events limit).Entry)
  | enterCallback (scan : Nat)
  | leaveCallback

variable {limit}

@[reducible] def Op.Reply : Op limit → Type
  | .requireDisconnectReturned | .loadPort | .capture | .loadActive | .swapActive
  | .claimTimeout => Bool
  | .beginScanCapture | .scanIoctl | .feed _ => Int32
  | .storeInactive | .enterCallback _ | .leaveCallback => Unit

variable (limit) in
abbrev ops : Signature := (SlotQueue.ops (events limit)).sum ⟨Op limit, Op.Reply⟩

variable (limit) in
abbrev Task (A : Type) := Program (ops limit) A

/-- The flag is changed by atomic steps only; the port and native calls may answer anything. -/
def Op.effect (w : World limit) : (o : Op limit) → o.Reply → World limit → Prop
  | .requireDisconnectReturned, _, after | .loadPort, _, after | .beginScanCapture, _, after
  | .scanIoctl, _, after | .feed _, _, after | .leaveCallback, _, after => after = w
  | .capture, done, after => done = !w.active ∧
      after = if w.active then w else { w with active := true, begun := w.begun + 1 }
  | .loadActive, active, after => active = w.active ∧ after = w
  | .swapActive, active, after => active = w.active ∧ after = { w with active := false }
  | .storeInactive, _, after => after = { w with active := false }
  | .claimTimeout, done, after => done = w.active ∧ after = { w with active := false }
  | .enterCallback scan, _, after => 0 < scan ∧ scan ≤ w.begun ∧ after = w

def Atom (w : World limit) : (o : (ops limit).Op) → (ops limit).Reply o → World limit → Prop
  | .inl o, reply, after => ∃ queue, SlotQueue.Atom w.queue o reply queue ∧
      after = { w with queue := queue }
  | .inr o, reply, after => o.effect w reply after

end Actions

section Routines

variable {limit : IeLimit} {A : Type}

def queue (p : SlotQueue.Task (events limit) A) : Task limit A := p.left

def perform (o : Op limit) : Task limit o.Reply := Program.call (I := ops limit) (.inr o) .done

def enqueue (entry : (events limit).Entry) : Task limit Bool := do
  let outcome ← queue (SlotQueue.enqueue entry)
  pure outcome.result

def enqueueScanResult (scan : Nat) (info : ScanMeta) (ies : List UInt8) : Task limit Bool := do
  let ready ← perform .loadPort
  if ready = false then pure false
  else
    let active ← perform .loadActive
    if active = false then pure false else enqueue (scan, .result info ies)

def enqueueScanDone (scan : Nat) (status : Int32) : Task limit Bool := do
  let ready ← perform .loadPort
  if ready = false then pure false
  else
    let active ← perform .swapActive
    if active = false then pure false else enqueue (scan, .done status)

def beginTransaction : Task limit Unit := queue (SlotQueue.atom .beginTransaction)

/-- The flag is set before the supplicant is asked, and cleared if it refuses. -/
def captureScan : Task limit Bool := do
  let captured ← perform .capture
  if captured = false then pure false
  else
    let status ← perform .beginScanCapture
    if status ≠ 0 then do
      perform .storeInactive
      pure false
    else do
      beginTransaction
      pure true

def beginScanCacheCapture : Task limit Bool := do
  let returned ← perform .requireDisconnectReturned
  if returned = false then pure false
  else
    let ready ← perform .loadPort
    if ready = false then pure false else captureScan

/-- The hook of the supplicant; `acceptable` tells whether the request is well formed. -/
def startScan (acceptable : Bool) : Task limit Int32 := do
  if acceptable = false then pure (-1)
  else
    let captured ← perform .capture
    if captured = false then pure (-1)
    else
      beginTransaction
      let status ← perform .scanIoctl
      if status ≠ 0 then do
        perform .storeInactive
        pure status
      else pure status

def tryClaimScanTimeout : Task limit Bool := perform .claimTimeout

/-- Entries are taken and dropped until there is none to take, for so many rounds. -/
def discardPending : Nat → SlotQueue.Task (events limit) Unit
  | 0 => pure ()
  | rounds + 1 => do
    let taken ← SlotQueue.takeOldest
    match taken with
    | none => pure ()
    | some slot => do
      SlotQueue.atom (.release slot)
      discardPending rounds

def cancelScanCacheCapture (rounds : Nat) : Task limit Unit := do
  perform .storeInactive
  queue (discardPending rounds)

def runHooks : List Bool → Task limit Unit
  | [] => pure ()
  | acceptable :: rest => do
    let _ ← startScan acceptable
    runHooks rest

def feedTaken (hooks : List Bool) : Option (Fin (events limit).depth) → Task limit Bool
  | none => pure false
  | some slot => do
    let content ← queue (SlotQueue.atom (.load slot))
    let _ ← perform (.feed ((events limit).view content))
    runHooks hooks
    queue (SlotQueue.atom (.release slot))
    pure true

/-- The scan events of one poll; each of them may have its hooks. -/
def poll : List (List Bool) → Task limit Unit
  | [] => pure ()
  | hooks :: rest => do
    let taken ← queue SlotQueue.takeOldest
    let fed ← feedTaken hooks taken
    if fed then poll rest else pure ()

def hasPending : List (Fin (events limit).depth) → SlotQueue.Task (events limit) Bool
  | [] => pure false
  | slot :: rest => do
    let state ← SlotQueue.atom (.loadState slot)
    if state ≠ .free then pure true else hasPending rest

def drain : List (List (List Bool)) → Task limit Bool
  | [] => pure true
  | turns :: rest => do
    let pending ← queue (hasPending (List.finRange (events limit).depth))
    if pending = false then pure true
    else
      let returned ← perform .requireDisconnectReturned
      if returned = false then pure false
      else
        poll turns
        drain rest

/-- The queue is polled until nothing is pending, for so many polls. -/
def finishScanCacheCapture (polls : List (List (List Bool))) : Task limit Bool := do
  let active ← perform .loadActive
  if active then pure false else drain polls

inductive Job where
  | begin
  | finish (polls : List (List (List Bool)))
  | hook (acceptable : Bool)
  | poll (turns : List (List Bool))
  | claimTimeout
  | cancel (rounds : Nat)
  | result (scan : Nat) (info : ScanMeta) (ies : List UInt8)
  | done (scan : Nat) (status : Int32)

def callback (scan : Nat) (body : Task limit Bool) : Task limit Unit := do
  perform (.enterCallback scan)
  let _ ← body
  perform .leaveCallback

def Job.task : Job → Task limit Unit
  | .begin => do
    let _ ← beginScanCacheCapture
  | .finish polls => do
    let _ ← finishScanCacheCapture polls
  | .hook acceptable => do
    let _ ← startScan acceptable
  | .poll turns => ScanFeed.poll turns
  | .claimTimeout => do
    let _ ← tryClaimScanTimeout
  | .cancel rounds => cancelScanCacheCapture rounds
  | .result scan info ies => callback scan (enqueueScanResult scan info ies)
  | .done scan status => callback scan (enqueueScanDone scan status)

def Job.isCallback : Job → Bool
  | .result _ _ _ | .done _ _ => true
  | _ => false

/-- One thread is the runner, which is also the one the hooks run on. -/
def scanTasks (i : Nat) (task : Task limit Unit) : Prop :=
  ∃ job : Job, task = job.task ∧ (job.isCallback = true ↔ i ≠ 0)

variable (limit) in
def scanSystem : System (Pool (ops limit) (World limit)) (PoolLabel (ops limit)) :=
  poolSystem Atom scanTasks

end Routines

end HisiRf.ScanFeed
