import HisiRf.Interaction.Census
import HisiRf.Osal.EventGroup
import HisiRf.Storage.Fifo
import Mathlib.Data.Nat.ModEq

/-! Message queues: a ring of slots in memory and a semaphore that counts the messages.

A writer puts its message into the ring in a critical section and raises the
semaphore after it has left it; a reader waits for the semaphore and then takes
the oldest message out in a critical section of its own. So the semaphore and the
count of the ring agree only up to the writers and readers that are in between.
-/

namespace HisiRf.MessageQueue

open Interaction Storage
open EventGroup (osalOk osalNok WaitOutcome)

/-- The semaphore is known by its count, and the ring by its bytes from the first one on. -/
structure MsgQueue where
  items : Nat
  ring : Nat → UInt8
  itemSize : Nat
  cap : Nat
  head : Nat
  count : Nat

/-- The allocator may have no memory for the ring, or none for the queue itself. What it gives for
the ring is not cleared. -/
def create (idNull : Bool) (queueLen maxMsgsize : UInt16) (ring : Option (Nat → UInt8))
    (allocated : Bool) : Int32 × Option MsgQueue :=
  if idNull || queueLen == 0 || maxMsgsize == 0 then (osalNok, none)
  else
    match ring with
    | none => (osalNok, none)
    | some bytes =>
      if allocated then (osalOk, some ⟨0, bytes, maxMsgsize.toNat, queueLen.toNat, 0, 0⟩)
      else (osalNok, none)

def copyIn (ring : Nat → UInt8) (start : Nat) (bytes : List UInt8) : Nat → UInt8 :=
  fun k => if start ≤ k then (bytes[k - start]?).getD (ring k) else ring k

def copyOut (ring : Nat → UInt8) (start len : Nat) : List UInt8 :=
  (List.range len).map fun k => ring (start + k)

namespace MsgQueue

def insert (q : MsgQueue) (buffer : List UInt8) : Bool × MsgQueue :=
  if q.cap ≤ q.count then (false, q)
  else
    let n := min buffer.length q.itemSize
    let slot := (q.head + q.count) % q.cap
    (true, { q with
      ring := copyIn q.ring (slot * q.itemSize) (buffer.take n)
      count := q.count + 1 })

/-- How many bytes a read hands out; this is also the size it reports. -/
def want (q : MsgQueue) : Option UInt32 → Nat
  | none => q.itemSize
  | some bufferSize => min bufferSize.toNat q.itemSize

def remove (q : MsgQueue) (bufferSize : Option UInt32) : Option (List UInt8) × MsgQueue :=
  if q.count = 0 then (none, q)
  else
    (some (copyOut q.ring (q.head * q.itemSize) (q.want bufferSize)),
      { q with head := (q.head + 1) % q.cap, count := q.count - 1 })

theorem insert_sizes (q : MsgQueue) (buffer : List UInt8) :
    (q.insert buffer).2.cap = q.cap ∧ (q.insert buffer).2.itemSize = q.itemSize ∧
      (q.insert buffer).2.items = q.items := by
  unfold insert
  split <;> exact ⟨rfl, rfl, rfl⟩

theorem remove_sizes (q : MsgQueue) (bufferSize : Option UInt32) :
    (q.remove bufferSize).2.cap = q.cap ∧ (q.remove bufferSize).2.itemSize = q.itemSize ∧
      (q.remove bufferSize).2.items = q.items := by
  unfold remove
  split <;> exact ⟨rfl, rfl, rfl⟩

def isFull (q : MsgQueue) : Int32 := if q.cap ≤ q.count then 1 else 0

def getMsgNum (q : MsgQueue) : UInt32 := UInt32.ofNat q.count

end MsgQueue

inductive Op where
  | insert (buffer : List UInt8)
  | up
  | downTimeout (timeout : UInt32)
  | remove (bufferSize : Option UInt32)
  | isFull
  | getMsgNum
  /- These two change nothing; they tell what a call returned, and what it left in the buffer. -/
  | leaveWrite (status : Int32)
  | leaveRead (status : Int32) (copied : Option (List UInt8))

@[reducible] def Op.Reply : Op → Type
  | .insert _ | .up => Bool
  | .downTimeout _ => WaitOutcome
  | .remove _ => Option (List UInt8)
  | .isFull => Int32
  | .getMsgNum => UInt32
  | .leaveWrite _ | .leaveRead _ _ => Unit

abbrev ops : Signature := ⟨Op, Op.Reply⟩

abbrev Task (A : Type) := Program ops A

/-- The semaphore counts: a wait is acquired only if there is something to count down, and it is
always raised. A wait may end without it at any time. -/
inductive Atom (q : MsgQueue) : (o : Op) → o.Reply → MsgQueue → Prop where
  | insert (buffer : List UInt8) : Atom q (.insert buffer) (q.insert buffer).1 (q.insert buffer).2
  | up : Atom q .up true { q with items := q.items + 1 }
  | acquired (timeout : UInt32) (items : Nat) : q.items = items + 1 →
      Atom q (.downTimeout timeout) .acquired { q with items := items }
  | unacquired (timeout : UInt32) (outcome : WaitOutcome) : outcome ≠ .acquired →
      Atom q (.downTimeout timeout) outcome q
  | remove (bufferSize : Option UInt32) :
      Atom q (.remove bufferSize) (q.remove bufferSize).1 (q.remove bufferSize).2
  | isFull : Atom q .isFull q.isFull q
  | getMsgNum : Atom q .getMsgNum q.getMsgNum q
  | leaveWrite (status : Int32) : Atom q (.leaveWrite status) () q
  | leaveRead (status : Int32) (copied : Option (List UInt8)) : Atom q (.leaveRead status copied) () q

def atom (o : Op) : Task o.Reply := Program.call (I := ops) o .done

/-- A buffer that is `none` is a null pointer; otherwise it has as many bytes as its size tells. -/
def writeCopy (queueNull : Bool) : Option (List UInt8) → Task Int32
  | none => pure osalNok
  | some buffer =>
    if queueNull then pure osalNok
    else do
      let ok ← atom (.insert buffer)
      if ok then do
        let raised ← atom .up
        pure (if raised then osalOk else osalNok)
      else pure osalNok

def readCopy (queueNull bufferNull : Bool) (bufferSize : Option UInt32) (timeout : UInt32) :
    Task (Int32 × Option (List UInt8)) :=
  if queueNull || bufferNull then pure (osalNok, none)
  else do
    let wait ← atom (.downTimeout timeout)
    if wait = .acquired then do
      let copied ← atom (.remove bufferSize)
      pure (osalOk, copied)
    else pure (osalNok, none)

def osalMsgQueueIsFull (queueNull : Bool) : Task Int32 :=
  if queueNull then pure 0 else atom .isFull

def osalMsgQueueGetMsgNum (queueNull : Bool) : Task UInt32 :=
  if queueNull then pure 0xffffffff else atom .getMsgNum

inductive Job where
  | write (queueNull : Bool) (buffer : Option (List UInt8))
  | read (queueNull bufferNull : Bool) (bufferSize : Option UInt32) (timeout : UInt32)
  | isFull (queueNull : Bool)
  | getMsgNum (queueNull : Bool)

def Job.task : Job → Task Unit
  | .write queueNull buffer => do
    let status ← writeCopy queueNull buffer
    atom (.leaveWrite status)
  | .read queueNull bufferNull bufferSize timeout => do
    let result ← readCopy queueNull bufferNull bufferSize timeout
    atom (.leaveRead result.1 result.2)
  | .isFull queueNull => do
    let _ ← osalMsgQueueIsFull queueNull
    pure ()
  | .getMsgNum queueNull => do
    let _ ← osalMsgQueueGetMsgNum queueNull
    pure ()

def queueTasks (_ : Nat) (p : Task Unit) : Prop := ∃ job : Job, p = job.task

def queueSystem : System (Pool ops MsgQueue) (PoolLabel ops) := poolSystem Atom queueTasks

end HisiRf.MessageQueue
