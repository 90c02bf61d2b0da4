import HisiRf.Supplicant.SlotOrder
import Mathlib.Data.List.Nodup

/-! A slot queue whose calls come one after the other is a bounded queue.

What is queued leaves in the order in which it came, and a slot is missing only if
all of them are pending or lent to the runner. Numbers wrap around; it is enough
that those of two live entries are never too far apart.
-/

namespace HisiRf.SlotQueue

open Interaction List World
open LinkEvents (SlotState)

variable {L : Layout}

section Calls

inductive Call (L : Layout) where
  | enqueue (entry : L.Entry)
  | take
  | release (guard : Nat)
  | beginTransaction

inductive Result (L : Layout) where
  | finished (outcome : Outcome)
  | took (entry : Option L.Entry)
  | none

/-- The slots that were taken and not given back, oldest first. -/
structure Client (L : Layout) where
  world : World L
  guards : List (Fin L.depth)

variable (L) in
def Client.new : Client L := ⟨.new L, []⟩

def alone {A : Type} (routine : Task L A) (w : World L) : A × World L :=
  (routine.serve Op.answer w).2

def Client.keep (c : Client L) (w : World L) : Option (Fin L.depth) → Result L × Client L
  | none => (.took none, { c with world := w })
  | some slot =>
    let content := alone (atom (.load slot)) w
    (.took (some (L.view content.1)), ⟨content.2, c.guards ++ [slot]⟩)

def Client.drop (c : Client L) (guard : Nat) : Client L :=
  match c.guards[guard]? with
  | none => c
  | some slot => ⟨(alone (atom (.release slot)) c.world).2, c.guards.eraseIdx guard⟩

def Client.call (c : Client L) : Call L → Result L × Client L
  | .enqueue entry =>
    let done := alone (enqueue entry) c.world
    (.finished done.1, { c with world := done.2 })
  | .take =>
    let taken := alone takeOldest c.world
    c.keep taken.2 taken.1
  | .release guard => (.none, c.drop guard)
  | .beginTransaction => (.none, { c with world := (alone (atom .beginTransaction) c.world).2 })

def Client.results : Client L → List (Call L) → List (Result L)
  | _, [] => []
  | c, call :: rest => (c.call call).1 :: (c.call call).2.results rest

/-! ## The queue that it stands for -/

/-- What is pending, how many entries are lent, and how many results were let in. -/
structure Fifo (L : Layout) where
  pending : List L.Entry
  lent : Nat
  admitted : UInt32

variable (L) in
def Fifo.new : Fifo L := ⟨[], 0, 0⟩

def Fifo.push (q : Fifo L) (entry : L.Entry) : Outcome × Fifo L :=
  if q.pending.length + q.lent < L.depth then
    (.queued, { q with pending := q.pending ++ [entry] })
  else (.rejected, q)

def Fifo.enqueue (q : Fifo L) (entry : L.Entry) : Outcome × Fifo L :=
  if L.accepts entry = false then (.rejected, q)
  else if L.metered entry = false then q.push entry
  else if q.admitted < L.quota then { q with admitted := q.admitted + 1 }.push entry
  else (.truncated, q)

def Fifo.take (q : Fifo L) : Option L.Entry × Fifo L :=
  match q.pending with
  | [] => (none, q)
  | entry :: rest => (some entry, { q with pending := rest, lent := q.lent + 1 })

def Fifo.call (q : Fifo L) : Call L → Result L × Fifo L
  | .enqueue entry => (.finished (q.enqueue entry).1, (q.enqueue entry).2)
  | .take => (.took q.take.1, q.take.2)
  | .release guard => (.none, if guard < q.lent then { q with lent := q.lent - 1 } else q)
  | .beginTransaction => (.none, { q with admitted := 0 })

def Fifo.results : Fifo L → List (Call L) → List (Result L)
  | _, [] => []
  | q, call :: rest => (q.call call).1 :: (q.call call).2.results rest

/-- Fewer than half of all numbers lie between two entries that are ready. -/
def Near (w : World L) : Prop :=
  ∀ a b, (w.slots a).state = .ready → (w.slots b).state = .ready →
    (w.slots a).number < (w.slots b).number + 2 ^ 31

def NearAlong : Client L → List (Call L) → Prop
  | _, [] => True
  | c, call :: rest => Near c.world ∧ NearAlong (c.call call).2 rest

end Calls

variable {A B : Type} {w : World L} {slot : Fin L.depth}

theorem alone_bind (p : Task L A) (k : A → Task L B) (w : World L) :
    alone (p.bind k) w = alone (k (alone p w).1) (alone p w).2 := by
  induction p generalizing w with
  | done => rfl
  | call o next ih => exact ih _ _

theorem alone_atom (o : Op L) (k : o.Reply → Task L A) (w : World L) :
    alone ((atom o).bind k) w = alone (k (o.answer w).1) (o.answer w).2 := rfl

theorem setSlot_setSlot (w : World L) (slot : Fin L.depth) (first second : Slot L) :
    (w.setSlot slot first).setSlot slot second = w.setSlot slot second := by
  unfold setSlot
  rw [Function.update_idem]

theorem setSlot_slots (w : World L) (slot : Fin L.depth) (next : Slot L) :
    (w.setSlot slot next).slots slot = next := by simp [setSlot]

theorem alone_fill (slot : Fin L.depth) (stores : List (L.Content → L.Content)) (w : World L) :
    alone (fill slot stores) w = ((), w.setSlot slot
      { w.slots slot with content := Storage.storeAll stores (w.slots slot).content }) := by
  induction stores generalizing w with
  | nil =>
    have same : w.setSlot slot (w.slots slot) = w := by
      unfold setSlot
      rw [Function.update_eq_self]
    exact congrArg (Prod.mk ()) same.symm
  | cons write rest ih =>
    have step := ih (w.setSlot slot { w.slots slot with content := write (w.slots slot).content })
    rw [setSlot_slots, setSlot_setSlot] at step
    exact step

def Slot.written (cell : Slot L) (entry : L.Entry) (number : Nat) : Slot L :=
  ⟨.ready, number, Storage.storeAll (L.stores entry) cell.content⟩

theorem alone_writeSlot (entry : L.Entry) (number : Nat) (slot : Fin L.depth) (w : World L) :
    alone (writeSlot entry number slot) w =
      (.queued, w.setSlot slot ((w.slots slot).written entry number)) := by
  refine (alone_bind _ _ w).trans ?_
  rw [alone_fill]
  refine (alone_atom _ _ _).trans ((alone_atom _ _ _).trans ?_)
  refine congrArg (Prod.mk Outcome.queued) ?_
  simp [Op.answer, setState, setSlot_slots, setSlot_setSlot, Slot.written]

theorem alone_trySlots (entry : L.Entry) (number : Nat) (slots : List (Fin L.depth)) (w : World L) :
    (∃ slot ∈ slots, (w.slots slot).state = .free ∧ alone (trySlots entry number slots) w =
      (.queued, w.setSlot slot ((w.slots slot).written entry number))) ∨
    ((∀ slot ∈ slots, (w.slots slot).state ≠ .free) ∧ alone (trySlots entry number slots) w =
      (.rejected, { w with dropped := w.dropped + 1 })) := by
  induction slots with
  | nil => exact .inr ⟨nofun, rfl⟩
  | cons slot rest ih =>
    have step : alone (trySlots entry number (slot :: rest)) w = alone
        (if ((Op.claim slot entry).answer w).1 then writeSlot entry number slot
          else trySlots entry number rest) ((Op.claim slot entry).answer w).2 := rfl
    by_cases free : (w.slots slot).state = .free
    · refine .inl ⟨slot, mem_cons_self, free, ?_⟩
      have claimed : (Op.claim slot entry).answer w = (true, w.setState slot .writing) := if_pos free
      rw [step, claimed, if_pos rfl, alone_writeSlot]
      simp [setState, setSlot_slots, setSlot_setSlot, Slot.written]
    · have busy : (Op.claim slot entry).answer w = (false, w) := if_neg free
      rw [step, busy, if_neg Bool.false_ne_true]
      rcases ih with ⟨other, member, unused, found⟩ | ⟨none, found⟩
      · grind
      · grind

/-- A whole enqueue makes at most one free slot ready. -/
theorem alone_enqueue_state (entry : L.Entry) (w : World L) (slot : Fin L.depth) :
    let after := (alone (enqueue entry) w).2
    (after.slots slot).state = (w.slots slot).state ∨
      (w.slots slot).state = .free ∧ (after.slots slot).state = .ready := by
  have tried (number : Nat) (w : World L) :
      let after := (alone (trySlots entry number (finRange L.depth)) w).2
      (after.slots slot).state = (w.slots slot).state ∨
        (w.slots slot).state = .free ∧ (after.slots slot).state = .ready := by
    rcases alone_trySlots entry number (finRange L.depth) w with
      ⟨chosen, _, free, found⟩ | ⟨_, found⟩
    · rw [found]
      by_cases same : slot = chosen
      · subst same
        exact .inr ⟨free, by rw [setSlot_slots]; rfl⟩
      · exact .inl (by simp [setSlot, same])
    · rw [found]
      exact .inl rfl
  intro after
  by_cases accepted : L.accepts entry = true
  · have inner : after = (alone ((admission entry).bind (enqueueAdmitted entry)) w).2 :=
      congrArg (fun routine => (alone routine w).2) (if_pos accepted)
    rw [inner, alone_bind]
    have kept : (alone (admission entry) w).2.slots = w.slots := by
      unfold admission
      split
      · exact slots_of_admission (show Atom w .admitResult _ _ from rfl)
      · rfl
    rw [← kept]
    cases (alone (admission entry) w).1 with
    | false => exact .inl rfl
    | true => exact tried _ _
  · have dropped : after = { w with dropped := w.dropped + 1 } :=
      congrArg (fun routine => (alone routine w).2) (if_neg accepted)
    rw [dropped]
    exact .inl rfl

section

variable (unwritten : ∀ slot, (w.slots slot).state ≠ .writing)
include unwritten

theorem alone_anyWriting (slots : List (Fin L.depth)) : alone (anyWriting slots) w = (false, w) := by
  induction slots with
  | nil => rfl
  | cons slot rest ih =>
    have step : alone (anyWriting (slot :: rest)) w = alone
        (if (w.slots slot).state = .writing then pure true else anyWriting rest) w := rfl
    rw [step, if_neg (unwritten slot), ih]

omit unwritten in
theorem alone_scan (best : Option (Fin L.depth × UInt32)) (slots : List (Fin L.depth))
    (w : World L) : alone (scan best slots) w =
      (oldestOf best ((slots.filter fun slot => (w.slots slot).state = .ready).map
        (shown fun slot => (w.slots slot).number)), w) := by
  induction slots generalizing best with
  | nil => rfl
  | cons slot rest ih =>
    have step : alone (scan best (slot :: rest)) w = alone
        (if (w.slots slot).state = .ready then
          (atom (.loadSequence slot)).bind fun sequence => scan (older best slot sequence) rest
        else scan best rest) w := rfl
    by_cases ready : (w.slots slot).state = .ready
    · rw [step, if_pos ready, alone_atom]
      have next : alone (scan (older best slot (UInt32.ofNat (w.slots slot).number)) rest) w = _ :=
        ih _
      simp only [filter_cons, ready, decide_true, if_true, map_cons]
      exact next
    · grind

theorem alone_search :
    alone takeOldest w = alone (seizeOldest (oldestOf none (((finRange L.depth).filter fun slot =>
      (w.slots slot).state = .ready).map (shown fun slot => (w.slots slot).number)))) w := by
  have looks : alone takeOldest w =
      alone (takeUnless (alone (anyWriting (finRange L.depth)) w).1)
        (alone (anyWriting (finRange L.depth)) w).2 := alone_bind _ _ _
  have chooses : alone (takeUnless false) w =
      alone (seizeOldest (alone (scan none (finRange L.depth)) w).1)
        (alone (scan none (finRange L.depth)) w).2 := alone_bind _ _ _
  rw [looks, alone_anyWriting unwritten, chooses, alone_scan]

omit unwritten in
theorem alone_seizeOldest (ready : (w.slots slot).state = .ready) (sequence : UInt32) :
    alone (seizeOldest (some (slot, sequence))) w = (some slot, w.setState slot .reading) := by
  have seized : (Op.seize slot).answer w = (true, w.setState slot .reading) := if_pos ready
  have last : alone (seizeOldest (some (slot, sequence))) w =
    (if ((Op.seize slot).answer w).1 then some slot else none, ((Op.seize slot).answer w).2) := rfl
  exact last.trans (by rw [seized]; rfl)

/-- Whatever the numbers are, a slot that is ready is found if there is one. -/
theorem alone_take : ((∀ slot, (w.slots slot).state ≠ .ready) ∧ alone takeOldest w = (none, w)) ∨
      ∃ slot, (w.slots slot).state = .ready ∧
        alone takeOldest w = (some slot, w.setState slot .reading) := by
  rw [alone_search unwritten]
  cases found : (finRange L.depth).filter fun slot => (w.slots slot).state = .ready with
  | nil =>
    refine .inl ⟨fun slot ready => ?_, rfl⟩
    have absent := filter_eq_nil_iff.mp found slot (mem_finRange slot)
    exact absent (by simp [ready])
  | cons first rest =>
    obtain ⟨best, member, chosen⟩ := oldestOf_mem (shown (fun slot => (w.slots slot).number) first)
      (rest.map (shown fun slot => (w.slots slot).number))
    rw [← map_cons, mem_map] at member
    obtain ⟨slot, inside, rfl⟩ := member
    have ready : (w.slots slot).state = .ready := by
      rw [← found] at inside
      simpa using (mem_filter.mp inside).2
    have first_best : oldestOf none ((first :: rest).map (shown fun slot => (w.slots slot).number)) =
        some (shown (fun slot => (w.slots slot).number) slot) := chosen
    rw [first_best]
    exact .inr ⟨slot, ready, alone_seizeOldest ready _⟩

end

variable {order : List (Fin L.depth)} {c : Client L} {q : Fifo L}

/-- The slots in `order` are ready and hold what is pending, in the order of their numbers. -/
structure Represents (order : List (Fin L.depth)) (c : Client L) (q : Fifo L) : Prop where
  states : ∀ slot, (c.world.slots slot).state =
    if slot ∈ order then .ready else if slot ∈ c.guards then .reading else .free
  nodup : (order ++ c.guards).Nodup
  sorted : order.Pairwise fun a b => (c.world.slots a).number < (c.world.slots b).number
  given : ∀ slot ∈ order, (c.world.slots slot).number < c.world.nextSequence
  pending : q.pending = order.map fun slot => L.view (c.world.slots slot).content
  lent : q.lent = c.guards.length
  admitted : q.admitted = c.world.acceptedResults

theorem represents_new : Represents [] (.new L) (.new L) :=
  ⟨fun _ => rfl, nodup_nil, .nil, nofun, rfl, rfl, rfl⟩

theorem setState_slots (w : World L) (slot other : Fin L.depth) (state : SlotState) :
    (w.setState slot state).slots other =
      { w.slots other with state := if other = slot then state else (w.slots other).state } := by
  by_cases same : other = slot
  · subst same
    simp [setState, setSlot]
  · simp [setState, setSlot, same]

theorem Represents.lend {rest : List (Fin L.depth)} (rep : Represents (slot :: rest) c q) :
    Represents rest ⟨c.world.setState slot .reading, c.guards ++ [slot]⟩
      { q with pending := q.pending.tail, lent := q.lent + 1 } := by
  have first := nodup_cons.mp (cons_append ▸ rep.nodup)
  refine ⟨?_, ?_, ?_, ?_, ?_, ?_, rep.admitted⟩
  · grind [setState_slots, states]
  · grind
  · simpa only [setState_slots] using rep.sorted.of_cons
  · intro here member
    rw [setState_slots]
    exact rep.given here (mem_cons_of_mem _ member)
  · simp only [rep.pending, setState_slots, map_cons, tail_cons]
  · simp [rep.lent]

variable (rep : Represents order c q)
include rep

theorem Represents.ready_iff (slot : Fin L.depth) :
    (c.world.slots slot).state = .ready ↔ slot ∈ order := by
  rw [rep.states]
  split
  next member => simp [member]
  next absent => grind

theorem Represents.free_iff (slot : Fin L.depth) :
    (c.world.slots slot).state = .free ↔ slot ∉ order ++ c.guards := by
  rw [rep.states, mem_append]
  split
  next member => simp [member]
  next absent => grind

theorem Represents.unwritten (slot : Fin L.depth) : (c.world.slots slot).state ≠ .writing := by
  rw [rep.states]
  split
  · exact nofun
  · split <;> exact nofun

theorem Represents.room :
    (∃ slot, (c.world.slots slot).state = .free) ↔ q.pending.length + q.lent < L.depth := by
  have used : q.pending.length + q.lent = (order ++ c.guards).length := by
    rw [rep.pending, rep.lent, length_append, length_map]
  rw [used]
  constructor
  · intro ⟨slot, free⟩
    have absent := (rep.free_iff slot).mp free
    have inside : slot :: (order ++ c.guards) ⊆ finRange L.depth := fun other _ =>
      mem_finRange other
    have all := (subperm_of_subset (nodup_cons.mpr ⟨absent, rep.nodup⟩) inside).length_le
    rwa [length_finRange] at all
  intro short
  by_contra none
  have inside : finRange L.depth ⊆ order ++ c.guards := by
    intro slot _
    by_contra absent
    exact none ⟨slot, (rep.free_iff slot).mpr absent⟩
  have long := (subperm_of_subset (nodup_finRange L.depth) inside).length_le
  rw [length_finRange] at long
  omega

theorem Represents.oldest (near : Near c.world) :
    oldestOf none (((finRange L.depth).filter fun slot =>
      (c.world.slots slot).state = .ready).map (shown fun slot => (c.world.slots slot).number)) =
      order.head?.map (shown fun slot => (c.world.slots slot).number) := by
  have member (slot : Fin L.depth) : slot ∈ (finRange L.depth).filter
      (fun slot => (c.world.slots slot).state = .ready) ↔ slot ∈ order := by
    simp [rep.ready_iff]
  generalize (finRange L.depth).filter
    (fun slot => (c.world.slots slot).state = .ready) = found at member
  cases order with
  | nil =>
    have empty : found = [] := eq_nil_iff_forall_not_mem.mpr fun slot inside =>
      not_mem_nil ((member slot).mp inside)
    rw [empty]
    rfl
  | cons first =>
    cases found with
    | nil => exact absurd ((member first).mpr mem_cons_self) not_mem_nil
    | cons best others =>
      obtain ⟨lowest, inside, result, least⟩ := oldestOf_shown
        (fun slot => (c.world.slots slot).number) others best fun a inA b inB =>
          near a b ((rep.ready_iff a).mpr ((member a).mp inA))
            ((rep.ready_iff b).mpr ((member b).mp inB))
      have below := least first ((member first).mpr mem_cons_self)
      have same : lowest = first := by
        rcases mem_cons.mp ((member lowest).mp inside) with same | later
        · exact same
        · have above := rel_of_pairwise_cons rep.sorted later
          omega
      rw [same] at result
      exact result

theorem Represents.keep {p : Fifo L} (slots : w.slots = c.world.slots)
    (grows : c.world.nextSequence ≤ w.nextSequence) (pending : p.pending = q.pending)
    (lent : p.lent = q.lent) (admitted : p.admitted = w.acceptedResults) :
    Represents order ⟨w, c.guards⟩ p := by
  refine ⟨?_, rep.nodup, ?_, ?_, ?_, lent.trans rep.lent, admitted⟩
  · simpa only [slots] using rep.states
  · simpa only [slots] using rep.sorted
  · intro slot member
    rw [slots]
    exact Nat.lt_of_lt_of_le (rep.given slot member) grows
  · rw [pending, rep.pending, slots]

section

variable {entry : L.Entry} {number : Nat} (accepted : L.accepts entry = true)
include accepted

theorem Represents.append (free : (c.world.slots slot).state = .free)
    (fresh : number < c.world.nextSequence)
    (last : ∀ other ∈ order, (c.world.slots other).number < number) : Represents (order ++ [slot])
      { c with world := c.world.setSlot slot ((c.world.slots slot).written entry number) }
      { q with pending := q.pending ++ [entry] } := by
  have absent := (rep.free_iff slot).mp free
  have outside : slot ∉ order := fun member => absent (mem_append_left _ member)
  have other (here : Fin L.depth) (apart : here ≠ slot) :
      (c.world.setSlot slot ((c.world.slots slot).written entry number)).slots here =
        c.world.slots here := by simp [setSlot, apart]
  have kept : ∀ here ∈ order,
      (c.world.setSlot slot ((c.world.slots slot).written entry number)).slots here =
        c.world.slots here := fun here member => other here fun same => outside (same ▸ member)
  refine ⟨?_, ?_, ?_, ?_, ?_, rep.lent, rep.admitted⟩
  · intro here
    by_cases same : here = slot
    · subst same
      rw [setSlot_slots]
      simp [Slot.written]
    · rw [other here same, rep.states]
      simp [same]
  · rw [append_assoc, singleton_append, perm_middle.nodup_iff]
    exact nodup_cons.mpr ⟨absent, rep.nodup⟩
  · rw [pairwise_append]
    refine ⟨rep.sorted.imp_of_mem ?_, pairwise_singleton _ _, ?_⟩
    · grind
    · intro a inA b inB
      obtain rfl := mem_singleton.mp inB
      rw [kept a inA, setSlot_slots]
      exact last a inA
  · intro here member
    rcases mem_append.mp member with old | new
    · rw [kept here old]
      exact rep.given here old
    · obtain rfl := mem_singleton.mp new
      rw [setSlot_slots]
      exact fresh
  · have shows : L.view ((c.world.slots slot).written entry number).content = entry :=
      L.law entry _ accepted
    rw [map_append, map_singleton, setSlot_slots, shows, rep.pending]
    refine congrArg (· ++ [entry]) (map_congr_left fun here member => ?_)
    rw [kept here member]

theorem Represents.push (fresh : number < c.world.nextSequence)
    (last : ∀ other ∈ order, (c.world.slots other).number < number) :
    let done := alone (trySlots entry number (finRange L.depth)) c.world
    done.1 = (q.push entry).1 ∧
      ∃ order, Represents order { c with world := done.2 } (q.push entry).2 := by
  intro done
  unfold Fifo.push
  rcases alone_trySlots entry number (finRange L.depth) c.world with
    ⟨slot, _, free, found⟩ | ⟨none, found⟩
  · have room := rep.room.mp ⟨slot, free⟩
    rw [if_pos room, show done = _ from found]
    exact ⟨rfl, order ++ [slot], rep.append accepted free fresh last⟩
  · have full : ¬q.pending.length + q.lent < L.depth := fun room => by
      obtain ⟨slot, free⟩ := rep.room.mpr room
      exact none slot (mem_finRange slot) free
    rw [if_neg full, show done = _ from found]
    exact ⟨rfl, order, rep.keep rfl (Nat.le_refl _) rfl rfl rep.admitted⟩

end

theorem Represents.number {entry : L.Entry}
    (accepted : L.accepts entry = true) : let done := alone (enqueueAdmitted entry true) c.world
    done.1 = (q.push entry).1 ∧
      ∃ order, Represents order { c with world := done.2 } (q.push entry).2 :=
  (rep.keep (w := { c.world with nextSequence := c.world.nextSequence + 1 }) rfl (Nat.le_succ _) rfl rfl
    rep.admitted).push accepted (Nat.lt_succ_self _) rep.given

theorem Represents.enqueue (entry : L.Entry) :
    let done := alone (SlotQueue.enqueue entry) c.world
    done.1 = (q.enqueue entry).1 ∧
      ∃ order, Represents order { c with world := done.2 } (q.enqueue entry).2 := by
  intro done
  unfold Fifo.enqueue
  by_cases accepted : L.accepts entry = true
  · rw [if_neg (by simp [accepted])]
    have inner : done = alone ((admission entry).bind (enqueueAdmitted entry)) c.world :=
      congrArg (fun routine => alone routine c.world) (if_pos accepted)
    by_cases metered : L.metered entry = true
    · rw [if_neg (by simp [metered])]
      have asked : admission entry = atom .admitResult := if_pos metered
      rw [asked, alone_atom] at inner
      by_cases room : q.admitted < L.quota
      · have let_in : Op.admitResult.answer c.world =
            (true, { c.world with acceptedResults := c.world.acceptedResults + 1 }) :=
          if_pos (rep.admitted ▸ room)
        have counted : Represents order
            ⟨{ c.world with acceptedResults := c.world.acceptedResults + 1 }, c.guards⟩
            { q with admitted := q.admitted + 1 } :=
          rep.keep rfl (Nat.le_refl _) rfl rfl (congrArg (· + 1) rep.admitted)
        rw [if_pos room, inner, let_in]
        exact counted.number accepted
      · have kept_out : Op.admitResult.answer c.world = (false, c.world) :=
          if_neg (rep.admitted ▸ room)
        rw [if_neg room, inner, kept_out]
        exact ⟨rfl, order, rep.keep rfl (Nat.le_refl _) rfl rfl rep.admitted⟩
    · have free : admission entry = pure true := if_neg metered
      rw [if_pos (by simpa using metered)]
      rw [free] at inner
      rw [inner]
      exact rep.number accepted
  · rw [if_pos (by simpa using accepted)]
    have dropped : done = (.rejected, { c.world with dropped := c.world.dropped + 1 }) :=
      congrArg (fun routine => alone routine c.world) (if_neg accepted)
    rw [dropped]
    exact ⟨rfl, order, rep.keep rfl (Nat.le_refl _) rfl rfl rep.admitted⟩

theorem alone_takeOldest (near : Near c.world) :
    alone takeOldest c.world = match order with
      | [] => (none, c.world)
      | slot :: _ => (some slot, c.world.setState slot .reading) := by
  rw [alone_search rep.unwritten, rep.oldest near]
  cases order with
  | nil => rfl
  | cons slot => exact alone_seizeOldest ((rep.ready_iff slot).mpr mem_cons_self) _

theorem Represents.free {guard : Nat}
    (lent : c.guards[guard]? = some slot) :
    Represents order ⟨c.world.setState slot .free, c.guards.eraseIdx guard⟩
      { q with lent := q.lent - 1 } := by
  obtain ⟨inside, here⟩ := List.getElem?_eq_some_iff.mp lent
  obtain ⟨unordered, once, apart⟩ := List.nodup_append.mp rep.nodup
  have erased : c.guards.eraseIdx guard = c.guards.erase slot := by
    rw [← here, Nodup.erase_getElem once]
  have member : slot ∈ c.guards := mem_of_getElem? lent
  have outside : slot ∉ order := fun ordered => apart slot ordered slot member rfl
  have others (other : Fin L.depth) : other ∈ c.guards.eraseIdx guard ↔
      other ≠ slot ∧ other ∈ c.guards := by rw [erased, once.mem_erase_iff]
  refine ⟨?_, ?_, ?_, ?_, ?_, ?_, rep.admitted⟩
  · intro other
    rw [setState_slots]
    by_cases same : other = slot
    · subst same
      simp [outside, others]
    · simp [same, rep.states other, others]
  · grind
  · simpa only [setState_slots] using rep.sorted
  · intro other ordered
    rw [setState_slots]
    exact rep.given other ordered
  · simp only [rep.pending, setState_slots]
  · simp [rep.lent, length_eraseIdx, inside]

/-- Each call gives the result of the queue and keeps the slots in step with it. -/
theorem Represents.call (near : Near c.world) (call : Call L) :
    (c.call call).1 = (q.call call).1 ∧
      ∃ order, Represents order (c.call call).2 (q.call call).2 := by
  cases call with
  | enqueue entry =>
    obtain ⟨same, next⟩ := rep.enqueue entry
    exact ⟨congrArg Result.finished same, next⟩
  | take =>
    have taken := alone_takeOldest rep near
    unfold Client.call Fifo.call
    rw [taken]
    cases order with
    | nil =>
      have empty : q.pending = [] := rep.pending
      have same : q.take = (none, q) := by simp [Fifo.take, empty]
      rw [same]
      exact ⟨rfl, [], rep⟩
    | cons slot rest =>
      have pending : q.pending = L.view (c.world.slots slot).content :: q.pending.tail := by
        simp [rep.pending]
      have same : q.take = (some (L.view (c.world.slots slot).content),
          { q with pending := q.pending.tail, lent := q.lent + 1 }) := by
        unfold Fifo.take
        rw [pending]
        rfl
      have read : ((c.world.setState slot .reading).slots slot).content =
        (c.world.slots slot).content := by rw [setState_slots]
      rw [same]
      refine ⟨?_, rest, rep.lend⟩
      exact congrArg (fun content => Result.took (some (L.view content))) read
  | release guard =>
    unfold Client.call Fifo.call Client.drop
    dsimp only
    refine ⟨rfl, order, ?_⟩
    cases lent : c.guards[guard]? with
    | none =>
      have beyond := getElem?_eq_none_iff.mp lent
      rw [if_neg (by rw [rep.lent]; omega)]
      exact rep
    | some =>
      obtain ⟨inside, _⟩ := List.getElem?_eq_some_iff.mp lent
      rw [if_pos (by rw [rep.lent]; exact inside)]
      exact rep.free lent
  | beginTransaction => exact ⟨rfl, order, rep.keep rfl (Nat.le_refl _) rfl rfl rfl⟩

theorem Represents.results {calls : List (Call L)}
    (near : NearAlong c calls) : c.results calls = q.results calls := by
  induction calls generalizing order c q with
  | nil => rfl
  | cons call rest ih =>
    obtain ⟨same, _, next⟩ := rep.call near.1 call
    exact congrArg₂ cons same (ih next near.2)

end HisiRf.SlotQueue
