import HisiRf.Osal.MessageQueue

/-! A message queue is a bounded queue of the messages that were accepted.

What counts is what happens in the two critical sections. The ring holds exactly
the messages that were accepted and not taken yet, and the semaphore never
promises more of them than the readers that are already on their way leave over.
-/

namespace HisiRf.MessageQueue

open Interaction Storage Function Nat List
open EventGroup (osalOk osalNok WaitOutcome)

variable {q : MsgQueue} {messages : List (List UInt8)} {message : List UInt8}

/-- From the head on, each slot starts with its message. -/
structure Holds (q : MsgQueue) (messages : List (List UInt8)) : Prop where
  count : q.count = messages.length
  fits : messages.length ≤ q.cap
  head : q.head < q.cap
  short : ∀ message ∈ messages, message.length ≤ q.itemSize
  stored : ∀ k message j byte, messages[k]? = some message → message[j]? = some byte →
    q.ring ((q.head + k) % q.cap * q.itemSize + j) = byte

/-- A read hands out the message, as far as the two sizes allow, and may add what it likes. -/
def Shows (message out : List UInt8) : Prop := message.take out.length <+: out

variable {k j : Nat} {ring : Nat → UInt8} {start : Nat} {bytes : List UInt8}

theorem slots_apart {cap head n : Nat} (before : k < n) (inside : n < cap) :
    (head + k) % cap ≠ (head + n) % cap := by
  intro same
  have alike : k ≡ n [MOD cap] := ModEq.add_left_cancel' head same
  have equal := alike.eq_of_lt_of_lt (lt_trans before inside) inside
  omega

theorem bytes_apart {size slot other : Nat} (apart : slot ≠ other) (first : j < size)
    (second : k < size) : slot * size + j ≠ other * size + k := by
  intro same
  have positive : 0 < size := lt_of_le_of_lt (zero_le j) first
  have slots := congrArg (· / size) same
  simp only [mul_comm _ size, mul_add_div positive, div_eq_of_lt first,
    div_eq_of_lt second, add_zero] at slots
  exact apart slots

theorem copyIn_inside {byte : UInt8} (there : bytes[j]? = some byte) :
    copyIn ring start bytes (start + j) = byte := by
  simp [copyIn, there]

theorem copyIn_outside (outside : ∀ j, j < bytes.length → k ≠ start + j) :
    copyIn ring start bytes k = ring k := by
  unfold copyIn
  split
  next behind => grind
  next => rfl

theorem take_clamped (buffer : List UInt8) (size : Nat) :
    buffer.take (min buffer.length size) = buffer.take size := by
  rw [min_comm, ← take_eq_take_min]

theorem Holds.insert (holds : Holds q messages) (room : messages.length < q.cap)
    (buffer : List UInt8) :
    (q.insert buffer).1 = true ∧ Holds (q.insert buffer).2 (messages ++ [buffer.take q.itemSize]) := by
  have free : ¬q.cap ≤ q.count := by
    rw [holds.count]
    omega
  unfold MsgQueue.insert
  rw [if_neg free]
  dsimp only
  rw [take_clamped, holds.count]
  refine ⟨rfl, ?_, ?_, holds.head, ?_, ?_⟩
  · simp
  · rw [length_append]
    exact room
  · exact forall_mem_append.mpr ⟨holds.short, by simp_all⟩
  intro k message j byte found there
  dsimp only
  rcases lt_trichotomy k messages.length with old | last | beyond
  · rw [getElem?_append_left old] at found
    have inside : j < q.itemSize := by
      have bound := (List.getElem?_eq_some_iff.mp there).1
      exact lt_of_lt_of_le bound (holds.short message (List.mem_of_getElem? found))
    rw [copyIn_outside]
    · exact holds.stored k message j byte found there
    · simp_all [bytes_apart, slots_apart]
  · subst last
    rw [getElem?_concat_length, Option.some_inj] at found
    subst found
    exact copyIn_inside there
  · grind

theorem Holds.refuse (holds : Holds q messages) (full : messages.length = q.cap)
    (buffer : List UInt8) : q.insert buffer = (false, q) := by
  unfold MsgQueue.insert
  rw [if_pos (by rw [holds.count, full])]

theorem copyOut_length (ring : Nat → UInt8) (start len : Nat) :
    (copyOut ring start len).length = len := by
  simp [copyOut]

theorem Holds.front (holds : Holds q (message :: messages)) (len : Nat) :
    Shows message (copyOut q.ring (q.head * q.itemSize) len) := by
  unfold Shows
  rw [copyOut_length, prefix_iff_getElem?]
  intro j inside
  have within : j < len ∧ j < message.length := by simpa using inside
  have first := holds.stored 0 message j message[j] rfl (getElem?_eq_getElem within.2)
  rw [add_zero, mod_eq_of_lt holds.head] at first
  simp [copyOut, within.1, first]

theorem Holds.remove (holds : Holds q (message :: messages)) (bufferSize : Option UInt32) :
    ∃ out, (q.remove bufferSize).1 = some out ∧ Shows message out ∧
      out.length = q.want bufferSize ∧ Holds (q.remove bufferSize).2 messages := by
  have some : q.count ≠ 0 := by simp [holds.count]
  have positive : 0 < q.cap := lt_of_le_of_lt (zero_le _) holds.head
  unfold MsgQueue.remove
  rw [if_neg some]
  refine ⟨_, rfl, holds.front _, copyOut_length _ _ _, ?_, ?_, ?_, ?_, ?_⟩
  · simp [holds.count]
  · exact le_of_succ_le holds.fits
  · exact mod_lt _ positive
  · exact fun message member => holds.short message (mem_cons_of_mem _ member)
  · intro k message j byte found there
    have behind := holds.stored (k + 1) message j byte found there
    rw [mod_add_mod, add_assoc, add_comm 1 k]
    exact behind

inductive Phase where | idle | inserted | acquired

def Phase.isInserted : Phase → Bool
  | .inserted => true
  | .idle | .acquired => false

def Phase.isAcquired : Phase → Bool
  | .acquired => true
  | .idle | .inserted => false

def Phase.allows : Phase → Op → Prop
  | .inserted, .up => True
  | .acquired, .remove _ => True
  | .idle, .up | .idle, .remove _ => False
  | .idle, _ => True
  | _, _ => False

def Phase.after : Phase → Exchange ops → Phase
  | _, ⟨.insert _, true⟩ => .inserted
  | _, ⟨.downTimeout _, .acquired⟩ => .acquired
  | _, _ => .idle

def phases : Protocol ops Phase := ⟨Phase.allows, Phase.after⟩

def home (_ : Nat) : Phase := .idle

theorem writeCopy_obeys (queueNull : Bool) (buffer : Option (List UInt8)) :
    (writeCopy queueNull buffer).Obeys phases (fun _ phase => phase = .idle) .idle := by
  cases buffer with
  | none => rfl
  | some =>
    cases queueNull with
    | true => rfl
    | false =>
      refine ⟨trivial, fun ok => ?_⟩
      cases ok with
      | false => rfl
      | true => exact ⟨trivial, fun raised => rfl⟩

theorem readCopy_obeys (queueNull bufferNull : Bool) (bufferSize : Option UInt32) (timeout : UInt32) :
    (readCopy queueNull bufferNull bufferSize timeout).Obeys phases (fun _ phase => phase = .idle)
      .idle := by
  unfold readCopy
  split
  next => rfl
  next =>
    refine ⟨trivial, fun wait => ?_⟩
    cases wait with
    | acquired => exact ⟨trivial, fun copied => rfl⟩
    | timedOut | failed => rfl

theorem tasks_obey (i : Nat) (p : Task Unit) (given : queueTasks i p) :
    p.Obeys phases (fun _ phase => phase = home i) (home i) := by
  obtain ⟨job, rfl⟩ := given
  cases job with
  | write queueNull buffer =>
    exact (writeCopy_obeys queueNull buffer).on fun _ => ⟨trivial, fun _ => rfl⟩
  | read queueNull bufferNull bufferSize timeout =>
    refine (readCopy_obeys queueNull bufferNull bufferSize timeout).on fun result => ?_
    exact ⟨trivial, fun _ => rfl⟩
  | isFull queueNull | getMsgNum queueNull =>
    cases queueNull with
    | true => rfl
    | false => exact ⟨trivial, fun _ => rfl⟩

/-- What a critical section does to the queue of messages. -/
def observe (itemSize : Nat) : PoolLabel ops → Option (FifoLabel (List UInt8) (List UInt8))
  | .act _ ⟨.insert buffer, true⟩ => some (.put (buffer.take itemSize))
  | .act _ ⟨.insert _, false⟩ => some .full
  | .act _ ⟨.remove _, some out⟩ => some (.take out)
  | _ => none

def observed (itemSize : Nat) (labels : List (PoolLabel ops)) :
    List (FifoLabel (List UInt8) (List UInt8)) := labels.filterMap (observe itemSize)

theorem observed_concat (itemSize : Nat) (labels : List (PoolLabel ops)) (label : PoolLabel ops) :
    observed itemSize (labels ++ [label]) =
      observed itemSize labels ++ (observe itemSize label).toList := filterMap_concat _ _ _

/-- The messages in the ring are those that the semaphore counts, those that a writer has not
announced yet and those that a reader is about to take. -/
structure Sound (origin : MsgQueue) (labels : List (PoolLabel ops)) (crew : Crew MsgQueue Phase)
    (waiting : List (List UInt8)) (writers readers : Nat) : Prop where
  cap : crew.world.cap = origin.cap
  itemSize : crew.world.itemSize = origin.itemSize
  fifo : Run (boundedFifo origin.cap Shows) [] (observed origin.itemSize labels) waiting
  holds : Holds crew.world waiting
  writing : Numbers Phase.isInserted crew.phases writers
  reading : Numbers Phase.isAcquired crew.phases readers
  balance : waiting.length = crew.world.items + writers + readers

variable {origin : MsgQueue} {labels : List (PoolLabel ops)} {crew next : Crew MsgQueue Phase}
  {waiting : List (List UInt8)} {writers readers i : Nat} {label : PoolLabel ops}
  {places : Nat → Phase}

section

variable (sound : Sound origin labels ⟨q, places⟩ waiting writers readers)
include sound

theorem Sound.keep (unseen : observe origin.itemSize label = none) (resting : places i = .idle) :
    Sound origin (labels ++ [label]) ⟨q, update places i .idle⟩ waiting writers readers where
  cap := sound.cap
  itemSize := sound.itemSize
  fifo := by
    rw [observed_concat, unseen]
    simpa using sound.fifo
  holds := sound.holds
  writing := sound.writing.keep resting rfl
  reading := sound.reading.keep resting rfl
  balance := sound.balance

/-- The writer has put its message into the ring and has not raised the semaphore yet. -/
theorem Sound.insert (resting : places i = .idle) (buffer : List UInt8) :
    ∃ waiting writers, Sound origin (labels ++ [.act i ⟨.insert buffer, (q.insert buffer).1⟩])
      ⟨(q.insert buffer).2,
        update places i (phases.after (places i) ⟨.insert buffer, (q.insert buffer).1⟩)⟩
      waiting writers readers := by
  have size : q.itemSize = origin.itemSize := sound.itemSize
  have cap : q.cap = origin.cap := sound.cap
  have fits : waiting.length ≤ q.cap := sound.holds.fits
  by_cases full : waiting.length = q.cap
  · rw [sound.holds.refuse full buffer, resting]
    have step : (boundedFifo origin.cap Shows).step waiting .full waiting := .full (full.trans cap)
    refine ⟨waiting, writers, ?_⟩
    exact {
      cap := sound.cap
      itemSize := sound.itemSize
      fifo := by
        rw [observed_concat]
        exact sound.fifo.next step
      holds := sound.holds
      writing := sound.writing.keep resting rfl
      reading := sound.reading.keep resting rfl
      balance := sound.balance }
  have room : waiting.length < q.cap := by omega
  have kept := q.insert_sizes buffer
  obtain ⟨accepted, holds⟩ := sound.holds.insert room buffer
  have step : (boundedFifo origin.cap Shows).step waiting (.put (buffer.take origin.itemSize))
      (waiting ++ [buffer.take origin.itemSize]) := .put _ (cap ▸ room)
  rw [accepted]
  rw [size] at holds
  refine ⟨waiting ++ [buffer.take origin.itemSize], writers + 1, ?_⟩
  exact {
    cap := kept.1.trans cap
    itemSize := kept.2.1.trans size
    fifo := by
      rw [observed_concat]
      exact sound.fifo.next step
    holds := holds
    writing := sound.writing.enter resting rfl rfl
    reading := sound.reading.keep resting rfl
    balance := by
      have balance := sound.balance
      dsimp only at balance ⊢
      rw [length_append, length_singleton, kept.2.2]
      omega }

theorem Sound.up (inserted : places i = .inserted) :
    ∃ writers, Sound origin (labels ++ [.act i ⟨.up, true⟩])
      ⟨{ q with items := q.items + 1 }, update places i .idle⟩ waiting writers readers := by
  obtain ⟨fewer, rfl, writing⟩ : ∃ fewer, writers = fewer + 1 ∧
      Numbers Phase.isInserted (update places i .idle) fewer :=
    sound.writing.leave inserted rfl rfl
  refine ⟨fewer, ?_⟩
  exact {
    cap := sound.cap
    itemSize := sound.itemSize
    fifo := by
      rw [observed_concat]
      simpa [observe] using sound.fifo
    holds := ⟨sound.holds.count, sound.holds.fits, sound.holds.head, sound.holds.short,
      sound.holds.stored⟩
    writing := writing
    reading := sound.reading.keep inserted rfl
    balance := by
      have balance := sound.balance
      dsimp only at balance ⊢
      omega }

theorem Sound.down (resting : places i = .idle) {items : Nat} (raised : q.items = items + 1)
    (timeout : UInt32) : Sound origin (labels ++ [.act i ⟨.downTimeout timeout, .acquired⟩])
      ⟨{ q with items := items }, update places i .acquired⟩ waiting writers
      (readers + 1) where
  cap := sound.cap
  itemSize := sound.itemSize
  fifo := by
    rw [observed_concat]
    simpa [observe] using sound.fifo
  holds := ⟨sound.holds.count, sound.holds.fits, sound.holds.head, sound.holds.short,
    sound.holds.stored⟩
  writing := sound.writing.keep resting rfl
  reading := sound.reading.enter resting rfl rfl
  balance := by
    have balance := sound.balance
    dsimp only at balance ⊢
    omega

theorem Sound.served (acquired : places i = .acquired) : ∃ message rest, waiting = message :: rest := by
  have positive := sound.reading.pos acquired rfl
  have balance := sound.balance
  cases waiting with
  | nil =>
    dsimp only [length_nil] at balance
    omega
  | cons => simp

theorem Sound.remove (acquired : places i = .acquired) (bufferSize : Option UInt32) :
    ∃ waiting readers, Sound origin
      (labels ++ [.act i ⟨.remove bufferSize, (q.remove bufferSize).1⟩])
      ⟨(q.remove bufferSize).2, update places i .idle⟩ waiting writers readers := by
  obtain ⟨message, rest, rfl⟩ := sound.served acquired
  obtain ⟨fewer, rfl, reading⟩ : ∃ fewer, readers = fewer + 1 ∧
      Numbers Phase.isAcquired (update places i .idle) fewer :=
    sound.reading.leave acquired rfl rfl
  have kept := q.remove_sizes bufferSize
  obtain ⟨out, copied, shows, _, holds⟩ := sound.holds.remove bufferSize
  have step : (boundedFifo origin.cap Shows).step (message :: rest) (.take out) rest := .take shows
  rw [copied]
  refine ⟨rest, fewer, ?_⟩
  exact {
    cap := kept.1.trans sound.cap
    itemSize := kept.2.1.trans sound.itemSize
    fifo := by
      rw [observed_concat]
      exact sound.fifo.next step
    holds := holds
    writing := sound.writing.keep acquired rfl
    reading := reading
    balance := by
      have balance := sound.balance
      dsimp only [length_cons] at balance ⊢
      omega }

end

theorem Sound.step (sound : Sound origin labels crew waiting writers readers)
    (step : CrewStep Atom phases crew label next) :
    ∃ waiting writers readers, Sound origin (labels ++ [label]) next waiting writers readers := by
  obtain ⟨q, places⟩ := crew
  cases step with
  | start =>
    refine ⟨waiting, writers, readers, sound.cap, sound.itemSize, ?_, sound.holds, sound.writing,
      sound.reading, sound.balance⟩
    rw [observed_concat]
    simpa [observe] using sound.fifo
  | @act i o reply after allowed taken =>
    have turn : (places i).allows o := allowed
    cases place : places i with
    | idle =>
      rw [place] at turn
      cases taken with
      | insert buffer =>
        obtain ⟨waiting, writers, now⟩ := sound.insert place buffer
        exact ⟨waiting, writers, readers, now⟩
      | up | remove => exact turn.elim
      | acquired timeout items raised =>
        exact ⟨waiting, writers, readers + 1, sound.down place raised timeout⟩
      | unacquired timeout outcome missed =>
        have after : phases.after .idle ⟨.downTimeout timeout, outcome⟩ = .idle := by
          cases outcome with
          | acquired => exact absurd rfl missed
          | timedOut | failed => rfl
        dsimp only
        rw [place, after]
        exact ⟨waiting, writers, readers, sound.keep rfl place⟩
      | _ =>
        exact ⟨waiting, writers, readers, sound.keep rfl place⟩
    | inserted =>
      rw [place] at turn
      cases taken with
      | up =>
        obtain ⟨writers, now⟩ := sound.up place
        exact ⟨waiting, writers, readers, now⟩
      | _ => exact turn.elim
    | acquired =>
      rw [place] at turn
      cases taken with
      | remove bufferSize =>
        obtain ⟨waiting, readers, now⟩ := sound.remove place bufferSize
        exact ⟨waiting, writers, readers, now⟩
      | _ => exact turn.elim

variable {idNull allocated : Bool} {queueLen maxMsgsize : UInt16} {ring : Option (Nat → UInt8)}
  {status : Int32} {pool after : Pool ops MsgQueue}

section

variable (created : create idNull queueLen maxMsgsize ring allocated = (status, some q))
include created

theorem create_cases : q.items = 0 ∧ q.head = 0 ∧ q.count = 0 ∧ 0 < q.cap ∧ 0 < q.itemSize := by
  unfold create at created
  split at created
  next => simp_all
  next given =>
    split at created
    next => simp_all
    next bytes =>
      split at created
      next =>
        obtain rfl := Option.some.inj (Prod.mk.inj created).2
        simp only [Bool.or_eq_true, beq_iff_eq, not_or] at given
        refine ⟨rfl, rfl, rfl, ?_, ?_⟩
        · exact Nat.pos_of_ne_zero fun zero => given.1.2 (UInt16.toNat_inj.mp zero)
        · exact Nat.pos_of_ne_zero fun zero => given.2 (UInt16.toNat_inj.mp zero)
      next => simp_all

theorem sound_new : Sound q [] ⟨q, home⟩ [] 0 0 := by
  obtain ⟨items, head, count, cap, _⟩ := create_cases created
  have empty : Holds q [] :=
    ⟨count, zero_le _, head ▸ cap, nofun, fun k message j byte found => by simp at found⟩
  exact ⟨rfl, rfl, .start, empty, .zero fun _ => rfl, .zero fun _ => rfl, by simp [items]⟩

theorem sound_of_crew (run : Run (crewSystem Atom phases) ⟨q, home⟩ labels crew) :
    ∃ waiting writers readers, Sound q labels crew waiting writers readers := by
  induction run with
  | start => exact ⟨[], 0, 0, sound_new created⟩
  | next _ step ih =>
    obtain ⟨waiting, writers, readers, sound⟩ := ih
    exact sound.step step

end

variable {created : Int32} {copied : Option (List UInt8)}

section

variable (given : create idNull queueLen maxMsgsize ring allocated = (created, some q))
  (run : Run queueSystem (.new q) labels pool)
include given run

theorem sound_of_run : ∃ waiting writers readers,
      Sound q labels ⟨pool.world, phaseOf phases home labels⟩ waiting writers readers :=
  sound_of_crew given (crew_of_run tasks_obey run).1

theorem remove_finds {bufferSize : Option UInt32}
    (step : queueSystem.step pool (.act i ⟨.remove bufferSize, copied⟩) after) :
    pool.world.count ≠ 0 ∧ ∃ out, copied = some out ∧
      out.length = bufferSize.elim q.itemSize (min ·.toNat q.itemSize) := by
  obtain ⟨waiting, _, _, sound⟩ := sound_of_run given run
  have obeys := (crew_of_run tasks_obey run).2 i
  cases step with
  | act pending taken =>
    rw [pending] at obeys
    have acquired : phaseOf phases home labels i = .acquired := by
      have turn : (phaseOf phases home labels i).allows (.remove bufferSize) := obeys.1
      cases place : phaseOf phases home labels i with
      | acquired => rfl
      | idle | inserted =>
        rw [place] at turn
        exact turn.elim
    obtain ⟨message, rest, rfl⟩ := sound.served acquired
    cases taken with
    | remove =>
      obtain ⟨out, shown, _, length, _⟩ := sound.holds.remove bufferSize
      have count : pool.world.count = rest.length + 1 := sound.holds.count
      have size : pool.world.itemSize = q.itemSize := sound.itemSize
      refine ⟨by omega, out, shown, ?_⟩
      rw [length]
      cases bufferSize <;> simp [MsgQueue.want, size]

end

def returns (past : List (Exchange ops)) : Op → Prop
  | .leaveWrite status =>
    (∃ buffer raised, past = [⟨.insert buffer, true⟩, ⟨.up, raised⟩] ∧
      status = if raised then osalOk else osalNok) ∨
    status = osalNok ∧ (past = [] ∨ ∃ buffer, past = [⟨.insert buffer, false⟩])
  | .leaveRead status copied =>
    (∃ timeout bufferSize, status = osalOk ∧
      past = [⟨.downTimeout timeout, .acquired⟩, ⟨.remove bufferSize, copied⟩]) ∨
    status = osalNok
  | _ => True

/-- Waits are acquired as soon as the semaphore allows. -/
def answer (q : MsgQueue) : (o : Op) → o.Reply × MsgQueue
  | .insert buffer => q.insert buffer
  | .up => (true, { q with items := q.items + 1 })
  | .downTimeout _ =>
    match q.items with
    | 0 => (.timedOut, q)
    | items + 1 => (.acquired, { q with items := items })
  | .remove bufferSize => q.remove bufferSize
  | .isFull => (q.isFull, q)
  | .getMsgNum => (q.getMsgNum, q)
  | .leaveWrite _ | .leaveRead _ _ => ((), q)

theorem atom_answer (q : MsgQueue) (o : Op) : Atom q o (answer q o).1 (answer q o).2 := by
  cases o with
  | downTimeout timeout =>
    unfold answer
    cases items : q.items with
    | zero => exact .unacquired timeout .timedOut (by decide)
    | succ fewer => exact .acquired timeout fewer items
  | _ => constructor

end HisiRf.MessageQueue
