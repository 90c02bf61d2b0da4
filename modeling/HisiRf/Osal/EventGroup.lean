import HisiRf.Interaction.Record
import HisiRf.Machine.Word
import HisiRf.Storage.Slots

/-! Event groups: readers block until bits of a mask are set, writers set bits.

Everything that is done to a group is done in a critical section. A reader that
has to wait enters itself in the table of the group with a semaphore of its own,
which lives on its stack; a writer notes the semaphores of the readers it has
satisfied and raises them after it has left its section. The semaphores are those
of the kernel below: a wait may end for any reason at any time, but it is
acquired only if the semaphore was raised.
-/

namespace HisiRf.EventGroup

open Interaction Storage Machine

def osalOk : Int32 := 0
def osalNok : Int32 := 1

def waitmodeAnd : UInt32 := 4
def waitmodeClr : UInt32 := 1

def maxEventWaiters : Nat := 8

/-- A semaphore is known by its address. An entry whose address is zero is a vacant cell. -/
structure Waiter where
  semaphore : Nat
  mask : UInt32
  mode : UInt32

structure Group where
  bits : UInt32
  waiters : Slots Waiter maxEventWaiters
  reads : UInt32
  writes : UInt32
  matched : UInt32
  lastReadMask : UInt32
  lastWriteMask : UInt32
  lastMode : UInt32

/-- The group that `osal_event_init` writes. -/
def Group.new : Group := ⟨0, .empty, 0, 0, 0, 0, 0, 0⟩

/-- Whether the matched bits are all or any of the mask, as the mode asks. -/
def modeSatisfied (matched mask mode : UInt32) : Bool :=
  if mode &&& waitmodeAnd ≠ 0 then matched == mask && mask != 0 else matched != 0

def eventMatches (bits mask mode : UInt32) : Option UInt32 :=
  let matched := bits &&& mask
  if modeSatisfied matched mask mode then some matched else none

def pollEvent (group : Group) (mask mode : UInt32) : Option UInt32 × Group :=
  match eventMatches group.bits mask mode with
  | none => (none, group)
  | some matched =>
    (some matched, { group with
      matched := saturatingIncrement group.matched
      bits := if mode &&& waitmodeClr ≠ 0 then group.bits &&& ~~~matched else group.bits })

/-- What the critical section of a registration ends with. -/
inductive Registration where
  | matched (bits : UInt32)
  | full
  | waiting

def Group.look (group : Group) (mask mode : UInt32) : Option UInt32 × Group :=
  pollEvent { group with
    reads := saturatingIncrement group.reads, lastReadMask := mask, lastMode := mode } mask mode

/-- The second look, which enters the reader in the table if it has to wait. -/
def Group.register (group : Group) (semaphore : Nat) (mask mode : UInt32) : Registration × Group :=
  match pollEvent group mask mode with
  | (some matched, next) => (.matched matched, next)
  | (none, next) =>
    match next.waiters.vacant with
    | none => (.full, next)
    | some cell =>
      (.waiting, { next with waiters := next.waiters.put cell ⟨semaphore, mask, mode⟩ })

def Group.unregisterWaiter (group : Group) (semaphore : Nat) : Group :=
  { group with
    waiters := group.waiters.alter (fun waiter => waiter.semaphore == semaphore) fun _ => none }

def Waiter.satisfied (bits : UInt32) (waiter : Waiter) : Bool :=
  (eventMatches bits waiter.mask waiter.mode).isSome

def Group.write (group : Group) (mask : UInt32) : List Nat × Group :=
  let bits := group.bits ||| mask
  ((group.waiters.live.filter (Waiter.satisfied bits)).map Waiter.semaphore,
    { group with bits := bits, writes := saturatingIncrement group.writes, lastWriteMask := mask })

def Group.clear (group : Group) (mask : UInt32) : Group := { group with bits := group.bits &&& ~~~mask }

inductive WaitOutcome where | acquired | timedOut | failed deriving DecidableEq

/-- A group, and for every address how often the semaphore there was raised, if there is one. -/
structure World where
  group : Group
  semaphores : Nat → Option Nat

def World.new : World := ⟨.new, fun _ => none⟩

inductive Op where
  | jiffies
  | look (mask mode : UInt32)
  | initSemaphore
  | register (semaphore : Nat) (mask mode : UInt32)
  | downTimeout (semaphore : Nat) (remaining : UInt32)
  | unregister (semaphore : Nat)
  | destroy (semaphore : Nat)
  | write (mask : UInt32)
  | up (semaphore : Nat)
  | clear (mask : UInt32)
  /- These two change nothing; they tell which read a thread is in and what it returned. -/
  | enterRead (mask timeoutMs mode : UInt32)
  | leaveRead (value : Int32)

@[reducible] def Op.Reply : Op → Type
  | .jiffies => UInt64
  | .look _ _ => Option UInt32
  | .initSemaphore => Option Nat
  | .register _ _ _ => Registration
  | .downTimeout _ _ => WaitOutcome
  | .write _ => List Nat
  | .up _ => Bool
  | .unregister _ | .destroy _ | .clear _ | .enterRead _ _ _ | .leaveRead _ => Unit

abbrev ops : Signature := ⟨Op, Op.Reply⟩

abbrev Task (A : Type) := Program ops A

def World.setSemaphore (w : World) (semaphore : Nat) (raised : Option Nat) : World :=
  { w with semaphores := Function.update w.semaphores semaphore raised }

inductive Atom (w : World) : (o : Op) → o.Reply → World → Prop where
  | jiffies (now : UInt64) : Atom w .jiffies now w
  | look (mask mode : UInt32) :
      Atom w (.look mask mode) (w.group.look mask mode).1
        { w with group := (w.group.look mask mode).2 }
  | initFailed : Atom w .initSemaphore none w
  | initSemaphore (semaphore : Nat) : semaphore ≠ 0 → w.semaphores semaphore = none →
      Atom w .initSemaphore (some semaphore) (w.setSemaphore semaphore (some 0))
  | register (semaphore : Nat) (mask mode : UInt32) :
      Atom w (.register semaphore mask mode) (w.group.register semaphore mask mode).1
        { w with group := (w.group.register semaphore mask mode).2 }
  | acquired (semaphore raised : Nat) (remaining : UInt32) :
      w.semaphores semaphore = some (raised + 1) →
      Atom w (.downTimeout semaphore remaining) .acquired (w.setSemaphore semaphore (some raised))
  | unacquired (semaphore : Nat) (remaining : UInt32) (outcome : WaitOutcome) :
      outcome ≠ .acquired → Atom w (.downTimeout semaphore remaining) outcome w
  | unregister (semaphore : Nat) :
      Atom w (.unregister semaphore) () { w with group := w.group.unregisterWaiter semaphore }
  | destroy (semaphore : Nat) : Atom w (.destroy semaphore) () (w.setSemaphore semaphore none)
  | write (mask : UInt32) :
      Atom w (.write mask) (w.group.write mask).1 { w with group := (w.group.write mask).2 }
  | up (semaphore raised : Nat) : w.semaphores semaphore = some raised →
      Atom w (.up semaphore) true (w.setSemaphore semaphore (some (raised + 1)))
  | upFailed (semaphore : Nat) : Atom w (.up semaphore) false w
  -- Nothing is known of what this returns; it is an access to a dead stack frame.
  | upDangling (semaphore : Nat) (reply : Bool) : w.semaphores semaphore = none →
      Atom w (.up semaphore) reply w
  | clear (mask : UInt32) : Atom w (.clear mask) () { w with group := w.group.clear mask }
  | enterRead (mask timeoutMs mode : UInt32) : Atom w (.enterRead mask timeoutMs mode) () w
  | leaveRead (value : Int32) : Atom w (.leaveRead value) () w

def atom (o : Op) : Task o.Reply := Program.call (I := ops) o .done

/-- The time that is left; there is none if the deadline has passed. -/
def timeLeft (forever : Bool) (deadline : UInt64) : Task (Option UInt32) :=
  if forever then pure (some 0xffffffff)
  else do
    let now ← atom .jiffies
    pure (if deadline ≤ now then none else some (min (deadline - now) 0xffffffff).toUInt32)

/-- What a round ends with; `none` is another round. -/
def afterWait : WaitOutcome → Option Int32
  | .acquired => none
  | .timedOut | .failed => some osalNok

def afterRegistration (semaphore : Nat) (remaining : UInt32) : Registration → Task (Option Int32)
  | .matched bits => do
    atom (.destroy semaphore)
    pure (some bits.toInt32)
  | .full => do
    atom (.destroy semaphore)
    pure (some osalNok)
  | .waiting => do
    let wait ← atom (.downTimeout semaphore remaining)
    atom (.unregister semaphore)
    atom (.destroy semaphore)
    pure (afterWait wait)

def afterInit (mask mode remaining : UInt32) : Option Nat → Task (Option Int32)
  | none => pure (some osalNok)
  | some semaphore => do
    let registration ← atom (.register semaphore mask mode)
    afterRegistration semaphore remaining registration

def afterTime (mask mode : UInt32) : Option UInt32 → Task (Option Int32)
  | none => pure (some 0)
  | some remaining => do
    let semaphore ← atom .initSemaphore
    afterInit mask mode remaining semaphore

def afterLook (mask mode : UInt32) (forever : Bool) (deadline : UInt64) :
    Option UInt32 → Task (Option Int32)
  | some bits => pure (some bits.toInt32)
  | none => do
    let remaining ← timeLeft forever deadline
    afterTime mask mode remaining

def readRound (mask mode : UInt32) (forever : Bool) (deadline : UInt64) : Task (Option Int32) := do
  let matched ← atom (.look mask mode)
  afterLook mask mode forever deadline matched

def nextRound (result : Option Int32) (more : Task (Option Int32)) : Task (Option Int32) :=
  match result with
  | some value => pure (some value)
  | none => more

/-- A read is followed for any number of rounds; without a result it has not returned yet. -/
def readLoop (mask mode : UInt32) (forever : Bool) (deadline : UInt64) : Nat → Task (Option Int32)
  | 0 => pure none
  | rounds + 1 => do
    let result ← readRound mask mode forever deadline
    nextRound result (readLoop mask mode forever deadline rounds)

/-- `present` tells whether the handle leads to a group. -/
def osalEventRead (present : Bool) (mask timeoutMs mode : UInt32) (rounds : Nat) :
    Task (Option Int32) :=
  if present then do
    let now ← atom .jiffies
    readLoop mask mode (timeoutMs == 0xffffffff) (now + timeoutMs.toUInt64) rounds
  else pure (some 0)

def raise : List Nat → Task Int32
  | [] => pure osalOk
  | semaphore :: rest => do
    let raised ← atom (.up semaphore)
    if raised then raise rest else pure osalNok

def osalEventWrite (present : Bool) (mask : UInt32) : Task Int32 :=
  if present then do
    let waiters ← atom (.write mask)
    raise waiters
  else pure osalNok

def osalEventClear (present : Bool) (mask : UInt32) : Task Int32 :=
  if present then do
    atom (.clear mask)
    pure osalOk
  else pure osalNok

def reportRead : Option Int32 → Task Unit
  | none => pure ()
  | some value => atom (.leaveRead value)

/-! ## Any number of readers and writers -/

inductive Job where
  | read (present : Bool) (mask timeoutMs mode : UInt32) (rounds : Nat)
  | write (present : Bool) (mask : UInt32)
  | clear (present : Bool) (mask : UInt32)

def Job.task : Job → Task Unit
  | .read present mask timeoutMs mode rounds => do
    atom (.enterRead mask timeoutMs mode)
    let result ← osalEventRead present mask timeoutMs mode rounds
    reportRead result
  | .write present mask => do
    let _ ← osalEventWrite present mask
  | .clear present mask => do
    let _ ← osalEventClear present mask

def jobs (_ : Nat) (task : Task Unit) : Prop := ∃ job : Job, task = job.task

def eventSystem : System (Pool ops World) (PoolLabel ops) := poolSystem Atom jobs

end HisiRf.EventGroup
