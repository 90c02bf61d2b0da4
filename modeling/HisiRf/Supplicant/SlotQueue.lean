import HisiRf.Interaction.Record
import HisiRf.Storage.Buffer
import HisiRf.Supplicant.LinkEvents

/-! Queues of a fixed number of slots, filled by any number of callbacks and
emptied by one runner.

Each slot goes through four states by atomic steps of its own; there is no lock.
A producer gives itself a number before it looks for a slot, and the runner takes
the entry with the lowest number. Numbers are counted without bound here; the
words of the source are their remainders, and only those are ever compared.
-/

namespace HisiRf.SlotQueue

open Interaction
open LinkEvents (SlotState)

section Data

/-- What a queue holds and how a producer lays it out in the cells of a slot, piece by piece. -/
structure Layout where
  Entry : Type
  Content : Type
  blank : Content
  depth : Nat
  /-- The check before anything is queued. -/
  accepts : Entry → Bool
  /-- Whether the entry counts toward the quota of a transaction. -/
  metered : Entry → Bool
  quota : UInt32
  stores : Entry → List (Content → Content)
  view : Content → Entry
  /-- Whatever was in the cells before, the reader sees what was laid out. -/
  law : ∀ entry content, accepts entry = true →
    view (Storage.storeAll (stores entry) content) = entry

variable (L : Layout)

structure Slot where
  state : SlotState
  number : Nat
  content : L.Content

/-- `nextSequence` is how many numbers were given. -/
structure World where
  nextSequence : Nat
  dropped : UInt32
  acceptedResults : UInt32
  truncatedResults : UInt32
  slots : Fin L.depth → Slot L

def World.new : World L := ⟨0, 0, 0, 0, fun _ => ⟨.free, 0, L.blank⟩⟩

inductive Outcome where | queued | truncated | rejected deriving DecidableEq

def Outcome.result : Outcome → Bool
  | .queued | .truncated => true
  | .rejected => false

end Data

section Actions

variable (L : Layout)

/-- A claim carries the entry it is made for, which nothing depends on; `enter` and `leave` only tell
which call a producer is in. -/
inductive Op where
  | countDropped
  | admitResult
  | countTruncated
  | beginTransaction
  | nextSequence
  | claim (slot : Fin L.depth) (entry : L.Entry)
  | store (slot : Fin L.depth) (write : L.Content → L.Content)
  | storeSequence (slot : Fin L.depth) (number : Nat)
  | publish (slot : Fin L.depth)
  | loadState (slot : Fin L.depth)
  | loadSequence (slot : Fin L.depth)
  | seize (slot : Fin L.depth)
  | load (slot : Fin L.depth)
  | release (slot : Fin L.depth)
  | enter (entry : L.Entry)
  | leave (outcome : Outcome)

variable {L}

@[reducible] def Op.Reply : Op L → Type
  | .admitResult | .claim _ _ | .seize _ => Bool
  | .nextSequence => Nat
  | .loadState _ => SlotState
  | .loadSequence _ => UInt32
  | .load _ => L.Content
  | .countDropped | .countTruncated | .beginTransaction | .store _ _ | .storeSequence _ _
  | .publish _ | .release _ | .enter _ | .leave _ => Unit

variable (L) in
abbrev ops : Signature := ⟨Op L, Op.Reply⟩

variable (L) in
abbrev Task (A : Type) := Program (ops L) A

def World.setSlot (w : World L) (slot : Fin L.depth) (next : Slot L) : World L :=
  { w with slots := Function.update w.slots slot next }

def World.setState (w : World L) (slot : Fin L.depth) (state : SlotState) : World L :=
  w.setSlot slot { w.slots slot with state := state }

def Op.answer (w : World L) : (o : Op L) → o.Reply × World L
  | .countDropped => ((), { w with dropped := w.dropped + 1 })
  | .admitResult =>
    if w.acceptedResults < L.quota then
      (true, { w with acceptedResults := w.acceptedResults + 1 })
    else (false, w)
  | .countTruncated => ((), { w with truncatedResults := w.truncatedResults + 1 })
  | .beginTransaction => ((), { w with acceptedResults := 0 })
  | .nextSequence => (w.nextSequence, { w with nextSequence := w.nextSequence + 1 })
  | .claim slot _ =>
    if (w.slots slot).state = .free then (true, w.setState slot .writing) else (false, w)
  | .store slot write =>
    ((), w.setSlot slot { w.slots slot with content := write (w.slots slot).content })
  | .storeSequence slot number => ((), w.setSlot slot { w.slots slot with number := number })
  | .publish slot => ((), w.setState slot .ready)
  | .loadState slot => ((w.slots slot).state, w)
  | .loadSequence slot => (UInt32.ofNat (w.slots slot).number, w)
  | .seize slot =>
    if (w.slots slot).state = .ready then (true, w.setState slot .reading) else (false, w)
  | .load slot => ((w.slots slot).content, w)
  | .release slot => ((), w.setState slot .free)
  | .enter _ | .leave _ => ((), w)

def Atom (w : World L) (o : Op L) (reply : o.Reply) (after : World L) : Prop :=
  (reply, after) = o.answer w

variable {w w' : World L} {slot : Fin L.depth} {entry : L.Entry} {done : Bool}

theorem claim_cases (taken : Atom w (.claim slot entry) done w') :
    ((w.slots slot).state = .free ∧ done = true ∧ w' = w.setState slot .writing) ∨
      ((w.slots slot).state ≠ .free ∧ done = false ∧ w' = w) := by
  unfold Atom Op.answer at taken
  dsimp only at taken
  split at taken
  next free => exact .inl ⟨free, Prod.mk.inj taken⟩
  next busy => exact .inr ⟨busy, Prod.mk.inj taken⟩

theorem seize_cases (taken : Atom w (.seize slot) done w') :
    ((w.slots slot).state = .ready ∧ done = true ∧ w' = w.setState slot .reading) ∨
      ((w.slots slot).state ≠ .ready ∧ done = false ∧ w' = w) := by
  unfold Atom Op.answer at taken
  dsimp only at taken
  split at taken
  next ready => exact .inl ⟨ready, Prod.mk.inj taken⟩
  next unready => exact .inr ⟨unready, Prod.mk.inj taken⟩

theorem slots_of_admission (taken : Atom w .admitResult done w') : w'.slots = w.slots := by
  unfold Atom Op.answer at taken
  dsimp only at taken
  split at taken <;> rw [(Prod.mk.inj taken).2]

end Actions

section Routines

variable {L : Layout}

def atom (o : Op L) : Task L o.Reply := Program.call (I := ops L) o .done

/-- The plain stores into the cells of a slot, one after the other. -/
def fill (slot : Fin L.depth) : List (L.Content → L.Content) → Task L Unit
  | [] => pure ()
  | write :: rest => do
    atom (.store slot write)
    fill slot rest

def writeSlot (entry : L.Entry) (number : Nat) (slot : Fin L.depth) : Task L Outcome := do
  fill slot (L.stores entry)
  atom (.storeSequence slot number)
  atom (.publish slot)
  pure .queued

def trySlots (entry : L.Entry) (number : Nat) : List (Fin L.depth) → Task L Outcome
  | [] => do
    atom .countDropped
    pure .rejected
  | slot :: rest => do
    let claimed ← atom (.claim slot entry)
    if claimed then writeSlot entry number slot else trySlots entry number rest

def admission (entry : L.Entry) : Task L Bool :=
  if L.metered entry then atom .admitResult else pure true

/-- An entry beyond the quota is counted and dropped with a good result. -/
def enqueueAdmitted (entry : L.Entry) (admitted : Bool) : Task L Outcome :=
  if admitted then do
    let number ← atom .nextSequence
    trySlots entry number (List.finRange L.depth)
  else do
    atom .countTruncated
    pure .truncated

def enqueue (entry : L.Entry) : Task L Outcome :=
  if L.accepts entry then do
    let admitted ← admission entry
    enqueueAdmitted entry admitted
  else do
    atom .countDropped
    pure .rejected

def sequenceBefore (candidate current : UInt32) : Bool := (candidate - current).toInt32 < 0

def anyWriting : List (Fin L.depth) → Task L Bool
  | [] => pure false
  | slot :: rest => do
    let state ← atom (.loadState slot)
    if state = .writing then pure true else anyWriting rest

/-- The better of the best so far and a slot that is ready. -/
def older (oldest : Option (Fin L.depth × UInt32)) (slot : Fin L.depth) (sequence : UInt32) :
    Option (Fin L.depth × UInt32) :=
  match oldest with
  | none => some (slot, sequence)
  | some (best, current) =>
    if sequenceBefore sequence current then some (slot, sequence) else some (best, current)

def scan (oldest : Option (Fin L.depth × UInt32)) :
    List (Fin L.depth) → Task L (Option (Fin L.depth × UInt32))
  | [] => pure oldest
  | slot :: rest => do
    let state ← atom (.loadState slot)
    if state = .ready then
      let sequence ← atom (.loadSequence slot)
      scan (older oldest slot sequence) rest
    else scan oldest rest

def seizeOldest : Option (Fin L.depth × UInt32) → Task L (Option (Fin L.depth))
  | none => pure none
  | some (slot, _) => do
    let seized ← atom (.seize slot)
    pure (if seized then some slot else none)

/-- No entry is taken while some slot is being written. -/
def takeUnless (writing : Bool) : Task L (Option (Fin L.depth)) :=
  if writing then pure none
  else do
    let oldest ← scan none (List.finRange L.depth)
    seizeOldest oldest

def takeOldest : Task L (Option (Fin L.depth)) := do
  let writing ← anyWriting (List.finRange L.depth)
  takeUnless writing

/-! ## Producers and the runner -/

/-- The runner reads the cells of a slot any number of times before it gives it back. -/
def read (slot : Fin L.depth) : Nat → Task L Unit
  | 0 => atom (.release slot)
  | reads + 1 => do
    let _ ← atom (.load slot)
    read slot reads

def readTaken (reads : Nat) : Option (Fin L.depth) → Task L Unit
  | none => pure ()
  | some slot => read slot reads

inductive Job (L : Layout) where
  | enqueue (entry : L.Entry)
  | consume (reads : Nat)
  | beginTransaction

def Job.task : Job L → Task L Unit
  | .enqueue entry => do
    atom (.enter entry)
    let outcome ← SlotQueue.enqueue entry
    atom (.leave outcome)
  | .consume reads => do
    let taken ← takeOldest
    readTaken reads taken
  | .beginTransaction => atom .beginTransaction

def Job.isEnqueue : Job L → Bool
  | .enqueue _ => true
  | _ => false

/-- One thread is the runner, and the others are callbacks. -/
def queueTasks (i : Nat) (task : Task L Unit) : Prop :=
  ∃ job : Job L, task = job.task ∧ (job.isEnqueue = true ↔ i ≠ 0)

variable (L) in
def queueSystem : System (Pool (ops L) (World L)) (PoolLabel (ops L)) := poolSystem Atom queueTasks

end Routines

variable {L : Layout} {A : Type}

/-- The actions of a producer within the call for its entry. -/
def Op.produces (entry : L.Entry) : Op L → Prop
  | .claim _ other => other = entry
  | .countDropped | .admitResult | .countTruncated | .nextSequence | .store _ _
  | .storeSequence _ _ | .publish _ => True
  | _ => False

def Op.looks : Op L → Prop
  | .loadState _ | .loadSequence _ => True
  | _ => False

def Op.searches (o : Op L) : Prop := o.looks ∨ ∃ slot, o = .seize slot

def Op.reads : Op L → Prop
  | .load _ | .release _ => True
  | _ => False

def Op.stores : Op L → Prop
  | .store _ _ => True
  | _ => False

theorem fill_only (slot : Fin L.depth) (stores : List (L.Content → L.Content)) :
    (fill slot stores).Only Op.stores := by
  induction stores with
  | nil => trivial
  | cons write rest ih => exact ⟨trivial, fun _ => ih⟩

theorem produces_of_stores (entry : L.Entry) (o : Op L) (stores : o.stores) : o.produces entry := by
  cases o with
  | store => trivial
  | _ => exact stores.elim

theorem trySlots_only (entry : L.Entry) (number : Nat) (slots : List (Fin L.depth)) :
    (trySlots entry number slots).Only (Op.produces entry) := by
  induction slots with
  | nil => exact ⟨trivial, fun _ => trivial⟩
  | cons slot rest ih =>
    refine ⟨rfl, fun claimed => ?_⟩
    cases claimed with
    | false => exact ih
    | true =>
      have fills := (fill_only slot (L.stores entry)).mono (produces_of_stores entry)
      exact fills.bind fun _ => ⟨trivial, fun _ => ⟨trivial, fun _ => trivial⟩⟩

theorem admission_only (entry : L.Entry) : (admission entry).Only fun o => o = Op.admitResult := by
  unfold admission
  split
  · exact ⟨rfl, fun _ => trivial⟩
  · trivial

theorem enqueue_only (entry : L.Entry) : (enqueue entry).Only (Op.produces entry) := by
  unfold enqueue
  split
  · have admits : (admission entry).Only (Op.produces entry) := by
      refine (admission_only entry).mono fun o same => ?_
      subst same
      trivial
    refine admits.bind fun admitted => ?_
    cases admitted with
    | false => exact ⟨trivial, fun _ => trivial⟩
    | true => exact ⟨trivial, fun number => trySlots_only entry number _⟩
  · exact ⟨trivial, fun _ => trivial⟩

theorem anyWriting_only (slots : List (Fin L.depth)) :
    (anyWriting slots).Only (Op.looks (L := L)) := by
  induction slots with
  | nil => trivial
  | cons slot rest ih =>
    refine ⟨trivial, fun state => ?_⟩
    change (if state = .writing then pure true else anyWriting rest : Task L Bool).Only _
    split
    · trivial
    · exact ih

theorem scan_only (best : Option (Fin L.depth × UInt32)) (slots : List (Fin L.depth)) :
    (scan best slots).Only Op.looks := by
  induction slots generalizing best with
  | nil => trivial
  | cons slot rest ih =>
    refine ⟨trivial, fun state => ?_⟩
    change (if state = .ready then (atom (.loadSequence slot)).bind fun sequence =>
      scan (older best slot sequence) rest else scan best rest : Task L _).Only _
    split
    · exact ⟨trivial, fun _ => ih _⟩
    · exact ih best

theorem takeOldest_only : (takeOldest : Task L _).Only Op.searches := by
  refine ((anyWriting_only _).mono fun _ => .inl).bind fun writing => ?_
  unfold takeUnless
  split
  · trivial
  · refine ((scan_only none _).mono fun _ => .inl).bind fun oldest => ?_
    cases oldest with
    | none => trivial
    | some best => exact ⟨.inr ⟨best.1, rfl⟩, fun _ => trivial⟩

theorem readTaken_only (reads : Nat) (taken : Option (Fin L.depth)) :
    (readTaken reads taken).Only Op.reads := by
  cases taken with
  | none => trivial
  | some =>
    induction reads with
    | zero => exact ⟨trivial, fun _ => trivial⟩
    | succ reads ih => exact ⟨trivial, fun _ => ih⟩

variable {Phase : Type} {protocol : Protocol (ops L) Phase} {phase : Phase}

def afterTake {Phase : Type} (protocol : Protocol (ops L) Phase) (phase : Phase) :
    Option (Fin L.depth) → Phase
  | none => phase
  | some slot => protocol.after phase ⟨.seize slot, true⟩

/-- To take an entry is to look around and to seize one slot at the end. -/
theorem takeOldest_obeys (looks : ∀ o, o.looks → protocol.allows phase o)
    (stays : ∀ o reply, o.looks → protocol.after phase ⟨o, reply⟩ = phase)
    (seizes : ∀ slot, protocol.allows phase (.seize slot))
    (misses : ∀ slot, protocol.after phase ⟨.seize slot, false⟩ = phase) :
    (takeOldest : Task L _).Obeys protocol (fun taken later => later = afterTake protocol phase taken)
      phase := by
  refine (Program.Obeys.still (anyWriting_only _) looks stays).on fun writing => ?_
  unfold takeUnless
  split
  · rfl
  refine (Program.Obeys.still (scan_only none _) looks stays).on fun oldest => ?_
  cases oldest with
  | none => rfl
  | some best =>
    refine obeys_atom.mpr ⟨seizes best.1, fun seized => ?_⟩
    cases seized with
    | false => exact misses best.1
    | true => rfl

end HisiRf.SlotQueue
