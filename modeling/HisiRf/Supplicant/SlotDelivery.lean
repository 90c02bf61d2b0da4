import HisiRf.Supplicant.SlotFifo
import Mathlib.Data.Finset.Card

/-! What a slot queue delivers.

A call that returns has published its entry once, or counted itself dropped, or it
was beyond the quota; and it has counted itself dropped exactly if it was rejected.
Whoever reads a slot has taken it, finds the entry of the call that claimed it and
meets no producer there.
-/

namespace HisiRf.SlotQueue

open Interaction Function List
open EventQueues (mgmtRxQueue)

variable {L : Layout}

variable {A : Type} {labels : List (PoolLabel (ops L))}

variable {w w' : World L}

/-- The phase tells whether a call has counted itself dropped and has not returned. -/
def tally : Protocol (ops L) Bool where
  allows dropped
    | .countDropped => dropped = false
    | .leave outcome => dropped = true ↔ outcome = .rejected
    | _ => True
  after dropped exchange :=
    match exchange.op with
    | .countDropped => true
    | .leave _ => false
    | _ => dropped

def Op.uncounted : Op L → Prop
  | .countDropped | .leave _ => False
  | _ => True

theorem uncounted_of_stores (o : Op L) (stores : o.stores) : o.uncounted := by
  cases o with
  | store => trivial
  | _ => exact stores.elim

theorem uncounted_of_searches (o : Op L) (searches : o.searches) : o.uncounted := by
  rcases searches with looks | ⟨slot, rfl⟩
  · cases o with
    | countDropped | leave => exact looks.elim
    | _ => trivial
  · trivial

theorem uncounted_of_reads (o : Op L) (reads : o.reads) : o.uncounted := by
  cases o with
  | countDropped | leave => exact reads.elim
  | _ => trivial

theorem obeys_tally {asked : Op L → Prop} {p : Task L A} (only : p.Only asked)
    (uncounted : ∀ o, asked o → o.uncounted) (dropped : Bool) :
    p.Obeys tally (fun _ later => later = dropped) dropped := by
  refine Program.Obeys.of_only (only.mono uncounted) ?_ ?_ rfl
  · intro o now uncounted _
    cases o with
    | countDropped | leave => exact uncounted.elim
    | _ => trivial
  · intro o now reply uncounted same
    cases o with
    | countDropped | leave => exact uncounted.elim
    | _ => exact same

theorem trySlots_tally (entry : L.Entry) (number : Nat) (slots : List (Fin L.depth)) :
    (trySlots entry number slots).Obeys tally
      (fun outcome dropped => dropped = true ↔ outcome = .rejected) false := by
  induction slots with
  | nil => exact obeys_atom.mpr ⟨rfl, fun _ => iff_of_true rfl rfl⟩
  | cons slot rest ih =>
    refine obeys_atom.mpr ⟨trivial, fun claimed => ?_⟩
    cases claimed with
    | false => exact ih
    | true =>
      have fills := obeys_tally (fill_only slot (L.stores entry)) uncounted_of_stores false
      refine fills.on fun _ => ?_
      exact ⟨trivial, fun _ => ⟨trivial, fun _ => iff_of_false Bool.false_ne_true nofun⟩⟩

theorem enqueue_tally (entry : L.Entry) :
    (enqueue entry).Obeys tally (fun outcome dropped => dropped = true ↔ outcome = .rejected)
      false := by
  unfold enqueue
  split
  · have admits := obeys_tally (admission_only entry) (fun o same => by
      subst same
      exact trivial) false
    refine admits.on fun admitted => ?_
    cases admitted with
    | false => exact obeys_atom.mpr ⟨trivial, fun _ => iff_of_false Bool.false_ne_true nofun⟩
    | true => exact obeys_atom.mpr ⟨trivial, fun number => trySlots_tally entry number _⟩
  · exact obeys_atom.mpr ⟨rfl, fun _ => iff_of_true rfl rfl⟩

theorem job_tally (job : Job L) : job.task.Obeys tally (fun _ dropped => dropped = false) false := by
  cases job with
  | enqueue entry =>
    refine obeys_atom.mpr ⟨trivial, fun _ => ?_⟩
    refine (enqueue_tally entry).next fun outcome dropped rejected => ?_
    exact ⟨rejected, fun _ => rfl⟩
  | consume reads =>
    have searches := obeys_tally (takeOldest_only (L := L)) uncounted_of_searches false
    exact searches.on fun taken => obeys_tally (readTaken_only reads taken) uncounted_of_reads false
  | beginTransaction => exact ⟨trivial, fun _ => rfl⟩

/-- Whether the call that a thread is in has counted itself dropped. -/
def rejecting (labels : List (PoolLabel (ops L))) : Nat → Bool := phaseOf tally (fun _ => false) labels

def returnsRejected : PoolLabel (ops L) → Bool
  | .act _ ⟨.leave .rejected, _⟩ => true
  | _ => false

theorem dropped_of_atom {o : Op L} {reply : o.Reply} (taken : Atom w o reply w')
    (other : o ≠ .countDropped) : w'.dropped = w.dropped := by
  cases o with
  | countDropped => exact absurd rfl other
  | claim =>
    rcases claim_cases taken with ⟨_, _, rfl⟩ | ⟨_, _, rfl⟩ <;> rfl
  | seize =>
    rcases seize_cases taken with ⟨_, _, rfl⟩ | ⟨_, _, rfl⟩ <;> rfl
  | admitResult =>
    unfold Atom Op.answer at taken
    dsimp only at taken
    split at taken <;> rw [(Prod.mk.inj taken).2]
  | _ =>
    obtain ⟨_, rfl⟩ := Prod.mk.inj taken
    rfl

/-- What was dropped is what returned as rejected, and the calls that are about to. -/
def Tallied (labels : List (PoolLabel (ops L))) (w : World L) (phases : Nat → Bool) : Prop :=
  ∃ late : Finset Nat, (∀ j, j ∈ late ↔ phases j = true) ∧
    w.dropped = UInt32.ofNat (labels.countP returnsRejected + late.card)

variable {phases : Nat → Bool} {i : Nat} {o : Op L} {reply : o.Reply}

section

variable (tallied : Tallied labels w phases)
include tallied

theorem Tallied.keep (kept : w'.dropped = w.dropped) {label : PoolLabel (ops L)}
    (silent : returnsRejected label = false) : Tallied (labels ++ [label]) w' phases := by
  obtain ⟨late, members, dropped⟩ := tallied
  refine ⟨late, members, ?_⟩
  rw [kept, dropped, countP_append, countP_singleton, silent]
  rfl

theorem Tallied.drop (uncounted : phases i = false) :
    Tallied (labels ++ [.act i ⟨.countDropped, ()⟩]) { w with dropped := w.dropped + 1 }
      (update phases i true) := by
  obtain ⟨late, members, dropped⟩ := tallied
  have absent : i ∉ late := by simp [members, uncounted]
  refine ⟨insert i late, ?_, ?_⟩
  · intro j
    by_cases same : j = i
    · subst same
      simp
    · simp [same, members]
  · have silent : returnsRejected (.act i ⟨.countDropped, ()⟩ : PoolLabel (ops L)) = false := rfl
    rw [countP_append, countP_singleton, silent, Finset.card_insert_of_notMem absent]
    simp [dropped, UInt32.ofNat_add, UInt32.add_assoc]

theorem Tallied.returns (counted : phases i = true) :
    Tallied (labels ++ [.act i ⟨.leave .rejected, ()⟩]) w (update phases i false) := by
  obtain ⟨late, members, dropped⟩ := tallied
  have present : i ∈ late := (members i).mpr counted
  refine ⟨late.erase i, ?_, ?_⟩
  · intro j
    by_cases same : j = i
    · subst same
      simp
    · simp [same, members]
  · have loud : returnsRejected (.act i ⟨.leave .rejected, ()⟩ : PoolLabel (ops L)) = true := rfl
    have some := Finset.card_pos.mpr ⟨i, present⟩
    have total : labels.countP returnsRejected + 1 + (late.card - 1) =
        labels.countP returnsRejected + late.card := by omega
    rw [countP_append, countP_singleton, loud, Finset.card_erase_of_mem present, if_pos rfl,
      total, dropped]

theorem Tallied.act (allowed : tally.allows (phases i) o) (taken : Atom w o reply w') :
    Tallied (labels ++ [.act i ⟨o, reply⟩]) w'
      (update phases i (tally.after (phases i) ⟨o, reply⟩)) := by
  cases o with
  | countDropped =>
    cases taken
    exact tallied.drop allowed
  | leave outcome =>
    have kept := dropped_of_atom taken nofun
    cases taken
    cases outcome with
    | rejected => exact tallied.returns (allowed.mpr rfl)
    | queued | truncated =>
      have uncounted : phases i = false := Bool.eq_false_iff.mpr fun dropped => by
        cases allowed.mp dropped
      have same : update phases i false = phases := by
        rw [← uncounted, update_eq_self]
      change Tallied _ _ (update phases i false)
      rw [same]
      exact tallied.keep kept rfl
  | _ =>
    have kept := dropped_of_atom taken nofun
    change Tallied _ _ (update phases i (phases i))
    rw [update_eq_self]
    exact tallied.keep kept rfl

end

theorem tallied_of_crew {crew : Crew (World L) Bool}
    (run : Run (crewSystem Atom tally) ⟨.new L, fun _ => false⟩ labels crew) :
    Tallied labels crew.world crew.phases := by
  induction run with
  | start => exact ⟨∅, by simp, rfl⟩
  | next _ step ih =>
    cases step with
    | start => exact ih.keep rfl rfl
    | act allowed taken => exact ih.act allowed taken

variable {entry : L.Entry} {outcome : Outcome} {past talk : List (Exchange (ops L))}

def isPublish : Exchange (ops L) → Bool
  | ⟨.publish _, _⟩ => true
  | _ => false

/-- The call made its claims for its own entry, and published once or never. -/
structure Accounted (entry : L.Entry) (outcome : Outcome) (talk : List (Exchange (ops L))) : Prop where
  claims : ∀ exchange ∈ talk, ∀ slot other, exchange.op = .claim slot other → other = entry
  published : talk.countP isPublish = if outcome = .queued then 1 else 0

def accounts (past : List (Exchange (ops L))) : Op L → Prop
  | .leave outcome =>
    ∃ entry talk, past = ⟨.enter entry, ()⟩ :: talk ∧ Accounted entry outcome talk
  | _ => True

def Accounts (entry : L.Entry) (p : Task L Outcome) : Prop :=
  ∀ past, p.Obeys (recorded accounts)
    (fun outcome later => ∃ talk, later = past ++ talk ∧ Accounted entry outcome talk) past

/-- Actions that neither publish nor claim for another entry change nothing. -/
theorem Accounted.before {front : List (Exchange (ops L))} (accounted : Accounted entry outcome talk)
    (plain : ∀ exchange ∈ front, isPublish exchange = false ∧
      ∀ slot other, exchange.op = .claim slot other → other = entry) :
    Accounted entry outcome (front ++ talk) := by
  refine ⟨?_, ?_⟩
  · exact forall_mem_append.mpr ⟨fun exchange first => (plain exchange first).2, accounted.claims⟩
  · have none : front.countP isPublish = 0 := countP_eq_zero.mpr fun exchange member => by
      simp [(plain exchange member).1]
    rw [countP_append, none, Nat.zero_add, accounted.published]

def Op.plain : Op L → Prop
  | .publish _ | .claim _ _ | .leave _ => False
  | _ => True

theorem Accounts.bind {p : Task L A} {k : A → Task L Outcome} (only : p.Only Op.plain)
    (rest : ∀ a, Accounts entry (k a)) : Accounts entry (p.bind k) := by
  intro past
  have unguarded : ∀ (o : Op L) past, o.plain → accounts past o := by
    intro o past plain
    cases o with
    | leave => exact plain.elim
    | _ => trivial
  refine (Program.Obeys.record only unguarded).next ?_
  rintro a _ ⟨front, rfl, run⟩
  refine (rest a (past ++ front)).mono ?_
  rintro outcome _ ⟨talk, rfl, accounted⟩
  refine ⟨front ++ talk, append_assoc _ _ _, accounted.before fun exchange member => ?_⟩
  have plain := only.runs run exchange member
  obtain ⟨o, reply⟩ := exchange
  cases o with
  | publish | claim | leave => exact plain.elim
  | _ => exact ⟨rfl, nofun⟩

theorem Accounts.pure (unqueued : outcome ≠ .queued) : Accounts entry (pure outcome) := by
  intro past
  refine ⟨[], (append_nil past).symm, nofun, ?_⟩
  rw [if_neg unqueued]
  rfl

theorem writeSlot_accounts (entry : L.Entry) (number : Nat) (slot : Fin L.depth) :
    Accounts entry (writeSlot entry number slot) := by
  have fills : (fill slot (L.stores entry)).Only Op.plain := by
    refine (fill_only slot _).mono fun o stores => ?_
    cases o with
    | store => trivial
    | _ => exact stores.elim
  have last : Accounts entry ((atom (.publish slot)).bind fun _ => Pure.pure .queued) := by
    intro past
    refine ⟨trivial, fun _ => ⟨[⟨.publish slot, ()⟩], rfl, ?_, rfl⟩⟩
    simp
  exact .bind fills fun _ => .bind (p := atom (.storeSequence slot number))
    ⟨trivial, fun _ => trivial⟩ fun _ => last

theorem trySlots_accounts (entry : L.Entry) (number : Nat) (slots : List (Fin L.depth)) :
    Accounts entry (trySlots entry number slots) := by
  induction slots with
  | nil => exact .bind (p := atom .countDropped) ⟨trivial, fun _ => trivial⟩ fun _ => .pure nofun
  | cons slot rest ih =>
    intro past
    refine obeys_atom.mpr ⟨trivial, fun claimed => ?_⟩
    have later : Accounts entry
        (if claimed then writeSlot entry number slot else trySlots entry number rest) := by
      cases claimed with
      | false => exact ih
      | true => exact writeSlot_accounts entry number slot
    refine (later _).mono ?_
    rintro outcome _ ⟨talk, rfl, accounted⟩
    refine ⟨[⟨.claim slot entry, claimed⟩] ++ talk, append_assoc _ _ _, ?_⟩
    refine accounted.before fun exchange member => ?_
    obtain rfl := mem_singleton.mp member
    refine ⟨rfl, ?_⟩
    rintro _ _ ⟨⟩
    rfl

theorem enqueue_accounts (entry : L.Entry) : Accounts entry (enqueue entry) := by
  unfold enqueue
  split
  · have admits : (admission entry).Only Op.plain := by
      refine (admission_only entry).mono fun o same => ?_
      subst same
      trivial
    refine .bind admits fun admitted => ?_
    cases admitted with
    | false => exact .bind (p := atom .countTruncated) ⟨trivial, fun _ => trivial⟩ fun _ => .pure nofun
    | true =>
      exact .bind (p := atom .nextSequence) ⟨trivial, fun _ => trivial⟩ fun number =>
        trySlots_accounts entry number _
  · exact .bind (p := atom .countDropped) ⟨trivial, fun _ => trivial⟩ fun _ => .pure nofun

theorem job_accounts (job : Job L) : job.task.Obeys (recorded accounts) (fun _ _ => True) [] := by
  cases job with
  | enqueue entry =>
    refine obeys_atom.mpr ⟨trivial, fun _ => ?_⟩
    refine (enqueue_accounts entry _).next ?_
    rintro outcome _ ⟨talk, rfl, accounted⟩
    exact ⟨⟨entry, talk, rfl, accounted⟩, fun _ => trivial⟩
  | consume reads =>
    have searches : ∀ (o : Op L) past, o.searches → accounts past o := by
      rintro o past (looks | ⟨slot, rfl⟩)
      · cases o with
        | leave => exact looks.elim
        | _ => trivial
      · trivial
    have loads : ∀ (o : Op L) past, o.reads → accounts past o := by
      intro o past reads
      cases o with
      | leave => exact reads.elim
      | _ => trivial
    refine (Program.Obeys.record takeOldest_only searches).next fun taken past _ => ?_
    exact (Program.Obeys.record (readTaken_only reads taken) loads).mono fun _ _ _ => trivial
  | beginTransaction => exact ⟨trivial, fun _ => trivial⟩

variable {pool after : Pool (ops L) (World L)} {exchange : Exchange (ops L)}

/-- Whoever reads a slot took it, sees the entry that was claimed for it and is alone there; only who
claimed a slot writes to it; and a call that returns has accounted for its entry. -/
def Served (labels : List (PoolLabel (ops L))) (i : Nat) : Exchange (ops L) → Prop
  | ⟨.load slot, content⟩ => stageOf slot labels = some (.taken i (L.view content)) ∧
      ∀ j n, (place labels j).placed ≠ some (n, slot)
  | ⟨.store slot _, _⟩ | ⟨.storeSequence slot _, _⟩ =>
    ∃ entry, stageOf slot labels = some (.claimed i entry)
  | ⟨.leave outcome, _⟩ => ∃ entry talk, acts i labels = ⟨.enter entry, ()⟩ :: talk ∧
      Accounted entry outcome talk
  | _ => True

theorem served_of_step (run : Run (queueSystem L) (.new (.new L)) labels pool)
    (step : (queueSystem L).step pool (.act i exchange) after) : Served labels i exchange := by
  have sound := sound_of_run run
  have claims := sound.threads i
  obtain ⟨allowed, taken⟩ := step_of_run run step
  have accounted : accounts (acts i labels) exchange.op :=
    guard_of_step (fun _ _ ⟨job, same, _⟩ => same ▸ job_accounts job) run step
  obtain ⟨o, reply⟩ := exchange
  cases phase : place labels i with
  | idle =>
    rw [phase] at allowed
    cases o with
    | leave => exact accounted
    | load | store | storeSequence => exact allowed.elim
    | _ => trivial
  | numbered =>
    rw [phase] at allowed
    rcases allowed with rfl | ⟨slot, entry, rfl, _⟩ <;> trivial
  | filling entry number slot remaining =>
    rw [phase] at allowed claims
    cases remaining with
    | nil =>
      obtain rfl : o = .storeSequence slot number := allowed
      exact ⟨entry, claims.1⟩
    | cons write =>
      obtain rfl : o = .store slot write := allowed
      exact ⟨entry, claims.1⟩
  | filled entry number slot =>
    rw [phase] at allowed
    obtain rfl : o = .publish slot := allowed
    trivial
  | reading slot =>
    rw [phase] at allowed claims
    rcases allowed with rfl | rfl | rfl
    · obtain ⟨rfl, _⟩ := Prod.mk.inj taken
      obtain ⟨entry, current⟩ := claims
      obtain ⟨stage, known, shows⟩ := sound.slots slot
      cases current.symm.trans known
      obtain ⟨state, view⟩ := shows
      refine ⟨view ▸ current, fun j n held => ?_⟩
      have writing := sound.writing_of_placed held
      rw [state] at writing
      cases writing
    · trivial
    · trivial

/-- Every slot keeps to its rounds, so that each entry is taken at most once and leaves only by being
taken; every step on a slot is served; what was dropped is counted; and calls that do not overlap
see a bounded queue. -/
theorem slot_queue_delivers (L : Layout) :
    (∀ labels pool, Run (queueSystem L) (.new (.new L)) labels pool →
      (∀ slot, ∃ stage, stageOf slot labels = some stage ∧ stage.Shows (pool.world.slots slot)) ∧
      (∀ i exchange after, (queueSystem L).step pool (.act i exchange) after →
        Served labels i exchange) ∧ Tallied labels pool.world (rejecting labels)) ∧
    ∀ calls, NearAlong (.new L) calls →
      (Client.new L).results calls = (Fifo.new L).results calls := by
  refine ⟨?_, fun calls near => represents_new.results near⟩
  intro labels pool run
  refine ⟨(sound_of_run run).slots, fun i exchange after step => served_of_step run step, ?_⟩
  refine tallied_of_crew (crew_of_run ?_ run).1
  rintro i _ ⟨job, rfl, _⟩
  exact job_tally job

/-- A frame is queued, and the runner reads it. -/
theorem frame_delivered : ∃ (labels : List (PoolLabel (ops mgmtRxQueue)))
      (pool : Pool (ops mgmtRxQueue) (World mgmtRxQueue)) (content : mgmtRxQueue.Content),
      Run (queueSystem mgmtRxQueue) (.new (.new mgmtRxQueue)) labels pool ∧
      stageOf (0 : Fin 8) labels = some (.taken 0 (mgmtRxQueue.view content)) ∧
      pool.world.dropped = 0 ∧ (Client.new mgmtRxQueue).results [.enqueue ⟨2412, 0, [1]⟩, .take] =
        (Fifo.new mgmtRxQueue).results [.enqueue ⟨2412, 0, [1]⟩, .take] := by
  have queued : Run (queueSystem mgmtRxQueue) (.new (.new mgmtRxQueue)) _ _ :=
    run_job atom_answer 8 (i := 1) ⟨.enqueue ⟨2412, 0, [1]⟩, rfl, by decide⟩ rfl
  have taken := queued.trans (run_job atom_answer 18 (i := 0) ⟨.consume 1, rfl, by decide⟩ rfl)
  obtain ⟨concurrent, sequential⟩ := slot_queue_delivers mgmtRxQueue
  have served := (concurrent _ _ taken).2.1 0 ⟨.load (0 : Fin 8), _⟩ _ (.act rfl rfl)
  have numbers : ∀ slot : Fin 8, ((((Client.new mgmtRxQueue).call
      (.enqueue ⟨2412, 0, [1]⟩)).2.world.slots slot).number = 0) := by decide
  refine ⟨_, _, _, taken, served.1, rfl, sequential _ ⟨nofun, ?_, trivial⟩⟩
  intro a b _ _
  rw [numbers a]
  exact Nat.lt_of_lt_of_le (by decide) (Nat.le_add_left (2 ^ 31) _)

end HisiRf.SlotQueue
