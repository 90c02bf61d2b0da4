import HisiRf.Osal.MessageFifo

/-! What a read can tell about messages that are gone.

A slot is not cleared between two messages, and a read hands out as many bytes as
it was asked for, not as many as the message has. Two histories are compared that
differ in the contents of the messages only.
-/

namespace HisiRf.MessageQueue

open Interaction Storage List
open EventGroup (osalOk)

def mask : PoolLabel ops → PoolLabel ops
  | .act i ⟨.insert buffer, accepted⟩ => .act i ⟨.insert (buffer.map fun _ => 0), accepted⟩
  | .act i ⟨.remove bufferSize, copied⟩ => .act i ⟨.remove bufferSize, copied.map fun _ => []⟩
  | .act i ⟨.leaveRead status copied, done⟩ =>
    .act i ⟨.leaveRead status (copied.map fun _ => []), done⟩
  | label => label

def accepted (itemSize : Nat) (labels : List (PoolLabel ops)) : List (List UInt8) :=
  (observed itemSize labels).filterMap FifoLabel.stored

def delivered (itemSize : Nat) (labels : List (PoolLabel ops)) : List (List UInt8) :=
  (observed itemSize labels).filterMap FifoLabel.taken

variable {q : MsgQueue} {idNull allocated : Bool} {queueLen maxMsgsize : UInt16}
  {ring : Option (Nat → UInt8)} {created : Int32} {bufferSize : Option UInt32}

theorem delivered_mask (itemSize : Nat) (labels : List (PoolLabel ops)) :
    (delivered itemSize (labels.map mask)).length = (delivered itemSize labels).length := by
  unfold delivered observed
  rw [filterMap_filterMap, filterMap_filterMap, filterMap_map,
    length_filterMap_eq_countP, length_filterMap_eq_countP]
  refine countP_congr fun label _ => ?_
  cases label with
  | start => rfl
  | act i exchange =>
    obtain ⟨o, reply⟩ := exchange
    cases o with
    | insert | remove => cases reply <;> rfl
    | _ => rfl

/-- A read takes the message that was accepted when as many had been accepted as were read before. -/
theorem read_takes (given : create idNull queueLen maxMsgsize ring allocated = (created, some q))
    {earlier : List (PoolLabel ops)} {pool after : Pool ops MsgQueue} {i : Nat} {out : List UInt8}
    (run : Run queueSystem (.new q) earlier pool)
    (step : queueSystem.step pool (.act i ⟨.remove bufferSize, some out⟩) after) :
    ∃ message, (accepted q.itemSize earlier)[(delivered q.itemSize earlier).length]? = some message ∧
      Shows message out ∧ out.length = q.want bufferSize := by
  obtain ⟨waiting, _, _, sound⟩ := sound_of_run given run
  obtain ⟨gone, all, shown⟩ := fifo_accounts sound.fifo
  have found := (remove_finds given run step).1
  have size : pool.world.itemSize = q.itemSize := sound.itemSize
  have count : pool.world.count = waiting.length := sound.holds.count
  cases waiting with
  | nil => exact absurd count found
  | cons message =>
    obtain ⟨shows, copied, fits, len, _⟩ := sound.holds.remove bufferSize
    cases step with
    | act _ taken =>
      generalize same : some out = reply at taken
      cases taken with
      | remove =>
        cases same.trans copied
        refine ⟨message, ?_, fits, ?_⟩
        · have past : (delivered q.itemSize earlier).length = gone.length := shown.length_eq.symm
          rw [past, accepted, all]
          simp
        · rw [len]
          cases bufferSize <;> simp [MsgQueue.want, size]

theorem eq_take_of_shows {message out : List UInt8} (shows : Shows message out)
    (long : out.length ≤ message.length) : out = message.take out.length := by
  have whole : (message.take out.length).length = out.length := by simp [long]
  exact (IsPrefix.eq_of_length shows whole).symm

variable {earlier before : List (PoolLabel ops)} {pool other : Pool ops MsgQueue} {i : Nat}
  {out shown : List UInt8}

/-- In two histories that differ in contents only, a read that asks for no more bytes than its message
has hands out the same bytes if it takes the same message. -/
theorem read_depends_on_its_message
    (given : create idNull queueLen maxMsgsize ring allocated = (created, some q))
    (run : Run queueSystem (.new q) (earlier ++ [.act i ⟨.remove bufferSize, some out⟩]) pool)
    (twin : Run queueSystem (.new q) (before ++ [.act i ⟨.remove bufferSize, some shown⟩]) other)
    (alike : earlier.map mask = before.map mask)
    (same : (accepted q.itemSize earlier)[(delivered q.itemSize earlier).length]? =
      (accepted q.itemSize before)[(delivered q.itemSize earlier).length]?) (long : ∀ message,
      (accepted q.itemSize earlier)[(delivered q.itemSize earlier).length]? = some message →
      q.want bufferSize ≤ message.length) : out = shown := by
  obtain ⟨_, reached, step⟩ := run.last
  obtain ⟨_, arrived, twinStep⟩ := twin.last
  obtain ⟨message, taken, fits, len⟩ := read_takes given reached step
  obtain ⟨again, twinTaken, twinFits, twinLen⟩ := read_takes given arrived twinStep
  have reads : (delivered q.itemSize before).length = (delivered q.itemSize earlier).length := by
    rw [← delivered_mask, ← alike, delivered_mask]
  rw [reads, ← same, taken, Option.some_inj] at twinTaken
  subst twinTaken
  have enough := long message taken
  calc
    out = message.take out.length := eq_take_of_shows fits (by omega)
    _ = message.take shown.length := by rw [len, twinLen]
    _ = shown := (eq_take_of_shows twinFits (by omega)).symm

/-- A message is written and read, a second one is written, and a reader waits for it. -/
def twoMessages (first second : List UInt8) : List (PoolLabel ops) :=
  [.start 0, .act 0 ⟨.insert first, true⟩, .act 0 ⟨.up, true⟩, .act 0 ⟨.leaveWrite osalOk, ()⟩,
    .start 1, .act 1 ⟨.downTimeout 0, .acquired⟩, .act 1 ⟨.remove none, some first⟩,
    .act 1 ⟨.leaveRead osalOk (some first), ()⟩,
    .start 0, .act 0 ⟨.insert second, true⟩, .act 0 ⟨.up, true⟩, .act 0 ⟨.leaveWrite osalOk, ()⟩,
    .start 1, .act 1 ⟨.downTimeout 0, .acquired⟩]

def smallQueue : MsgQueue := ⟨0, fun _ => 0, 2, 1, 0, 0⟩

/-- A writer, a reader, the writer again and the reader again. -/
def fourCalls (first second : List UInt8) : List (Nat × Task Unit) :=
  [(0, Job.write false (some first)), (1, .read false false none 0),
    (0, .write false (some second)), (1, .read false false none 0)].map fun call =>
      (call.1, call.2.task)

theorem second_read (first second out : List UInt8)
    (ends : serves answer (fun _ _ _ => true) 5 (fourCalls first second) smallQueue = true)
    (whole : (serve answer 5 (fourCalls first second) smallQueue).1 =
      twoMessages first second ++ [.act 1 ⟨.remove none, some out⟩] ++
        [.act 1 ⟨.leaveRead osalOk (some out), ()⟩]) : ∃ pool, Run queueSystem (.new smallQueue)
      (twoMessages first second ++ [.act 1 ⟨.remove none, some out⟩]) pool := by
  have run : Run queueSystem (.new smallQueue) _ _ :=
    run_serve atom_answer 5 (fourCalls first second) (fun call member => by
      obtain ⟨⟨i, job⟩, _, rfl⟩ := mem_map.mp member
      exact ⟨job, rfl⟩) smallQueue ends
  rw [whole] at run
  obtain ⟨pool, taken, _⟩ := run.last
  exact ⟨pool, taken⟩

/-- Whole messages hide what was in their slot before. -/
theorem whole_message_hides_slot : ∃ (out shown : List UInt8) (pool other : Pool ops MsgQueue),
      Run queueSystem (.new smallQueue)
        (twoMessages [7, 7] [1, 2] ++ [.act 1 ⟨.remove none, some out⟩]) pool ∧
      Run queueSystem (.new smallQueue)
        (twoMessages [8, 8] [1, 2] ++ [.act 1 ⟨.remove none, some shown⟩]) other ∧ out = shown := by
  obtain ⟨pool, run⟩ := second_read [7, 7] [1, 2] [1, 2] rfl rfl
  obtain ⟨other, twin⟩ := second_read [8, 8] [1, 2] [1, 2] rfl rfl
  have given : create false 1 2 (some fun _ => 0) true = (osalOk, some smallQueue) := rfl
  refine ⟨_, _, pool, other, run, twin, read_depends_on_its_message given run twin rfl rfl ?_⟩
  intro message taken
  obtain rfl : [1, 2] = message := Option.some.inj taken
  decide

/-- A short message lets a read see the end of the message that was in its slot before. -/
theorem short_message_shows_earlier_one : ∃ pool other : Pool ops MsgQueue,
      create false 1 2 (some fun _ => 0) true = (osalOk, some smallQueue) ∧
      Run queueSystem (.new smallQueue)
        (twoMessages [7, 7] [1] ++ [.act 1 ⟨.remove none, some [1, 7]⟩]) pool ∧
      Run queueSystem (.new smallQueue)
        (twoMessages [8, 8] [1] ++ [.act 1 ⟨.remove none, some [1, 8]⟩]) other ∧
      (twoMessages [7, 7] [1]).map mask = (twoMessages [8, 8] [1]).map mask ∧
      (delivered 2 (twoMessages [7, 7] [1])).length = 1 ∧
      (accepted 2 (twoMessages [7, 7] [1]))[1]? = some [1] ∧
      (accepted 2 (twoMessages [8, 8] [1]))[1]? = some [1] := by
  obtain ⟨pool, run⟩ := second_read [7, 7] [1] [1, 7] rfl rfl
  obtain ⟨other, twin⟩ := second_read [8, 8] [1] [1, 8] rfl rfl
  exact ⟨pool, other, rfl, run, twin, rfl, rfl, rfl, rfl⟩

end HisiRf.MessageQueue
