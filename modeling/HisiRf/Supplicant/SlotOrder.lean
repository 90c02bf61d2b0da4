import HisiRf.Supplicant.Deauth
import HisiRf.Supplicant.EventQueues
import HisiRf.Supplicant.SlotRounds

/-! In which order entries leave a slot queue.

The runner first looks whether some slot is being written, and only then for the
lowest number. What it takes has a lower number than everything that was in a
slot by the time its slot was looked at; but a producer that has its number and no
slot yet is not seen by either look.
-/

namespace HisiRf.SlotQueue

open Interaction Machine Function List Nat Program UInt32
open LinkEvents (SlotState)
open EventQueues (mgmtRxQueue)

variable {L : Layout}

theorem sequenceBefore_ofNat {a b : Nat} (near : a < b + 2 ^ 31) (far : b ≤ a + 2 ^ 31) :
    sequenceBefore (ofNat a) (ofNat b) = decide (a < b) := by
  unfold sequenceBefore
  rw [decide_eq_decide]
  exact sub_ofNat_neg_iff near far

def oldestOf (best : Option (Fin L.depth × UInt32)) (readings : List (Fin L.depth × UInt32)) :
    Option (Fin L.depth × UInt32) :=
  readings.foldl (fun best reading => older best reading.1 reading.2) best

theorem oldestOf_mem (first : Fin L.depth × UInt32) (readings : List (Fin L.depth × UInt32)) :
    ∃ best ∈ first :: readings, oldestOf (some first) readings = some best := by
  induction readings generalizing first with
  | nil => exact ⟨first, mem_cons_self, rfl⟩
  | cons reading rest ih =>
    have step : oldestOf (some first) (reading :: rest) =
        oldestOf (if sequenceBefore reading.2 first.2 then some reading else some first) rest := rfl
    rw [step]
    split
    · simp_all
    · obtain ⟨best, member, found⟩ := ih first
      refine ⟨best, ?_, found⟩
      rcases mem_cons.mp member with rfl | later
      · exact mem_cons_self
      · grind

def shown (number : Fin L.depth → Nat) (slot : Fin L.depth) : Fin L.depth × UInt32 :=
  (slot, UInt32.ofNat (number slot))

theorem oldestOf_shown (number : Fin L.depth → Nat) (slots : List (Fin L.depth)) (best : Fin L.depth)
    (window : ∀ a ∈ best :: slots, ∀ b ∈ best :: slots, number a < number b + 2 ^ 31) :
    ∃ lowest ∈ best :: slots,
      oldestOf (some (shown number best)) (slots.map (shown number)) = some (shown number lowest) ∧
      ∀ other ∈ best :: slots, number lowest ≤ number other := by
  induction slots generalizing best with
  | nil => exact ⟨best, mem_cons_self, rfl, fun other member => by simp_all⟩
  | cons slot rest ih =>
    have near := window slot (by simp) best (by simp)
    have far := window best (by simp) slot (by simp)
    have compare := sequenceBefore_ofNat near (le_of_lt far)
    -- The better of the two goes on, and the other one is not below it.
    obtain ⟨better, kept, step, low⟩ : ∃ better ∈ [best, slot],
        older (some (shown number best)) slot (ofNat (number slot)) = some (shown number better) ∧
        ∀ other ∈ [best, slot], number better ≤ number other := by
      by_cases lower : number slot < number best
      · exact ⟨slot, by simp, by simp [older, shown, compare, lower], by grind⟩
      · exact ⟨best, by simp, by simp [older, shown, compare, lower], by grind⟩
    have subset : ∀ a ∈ better :: rest, a ∈ best :: slot :: rest := by grind
    obtain ⟨lowest, member, found, least⟩ := ih better fun a inA b inB =>
      window a (subset a inA) b (subset b inB)
    refine ⟨lowest, subset lowest member, ?_, ?_⟩
    · exact (congrArg (fun next => oldestOf next (rest.map (shown number))) step).trans found
    · grind

theorem oldestOf_lowest {number : Fin L.depth → Nat} {slots : List (Fin L.depth)}
    {lowest : Fin L.depth} {sequence : UInt32}
    (window : ∀ a ∈ slots, ∀ b ∈ slots, number a < number b + 2 ^ 31)
    (found : oldestOf none (slots.map (shown number)) = some (lowest, sequence)) :
    lowest ∈ slots ∧ ∀ other ∈ slots, number lowest ≤ number other := by
  cases slots with
  | nil => cases found
  | cons first rest =>
    obtain ⟨best, member, best_found, least⟩ := oldestOf_shown number rest first window
    have same : some (shown number best) = some (lowest, sequence) := by
      rw [← best_found, ← found]
      rfl
    obtain rfl : best = lowest := congrArg Prod.fst (Option.some.inj same)
    exact ⟨member, least⟩

variable {past talk : List (Exchange (ops L))} {slots : List (Fin L.depth)}

def readingOf : Exchange (ops L) → Option (Fin L.depth × UInt32)
  | ⟨.loadSequence slot, sequence⟩ => some (slot, sequence)
  | _ => none

/-- None of the slots was being written when its state was loaded. -/
def Checked (slots : List (Fin L.depth)) (talk : List (Exchange (ops L))) : Prop :=
  ∀ slot ∈ slots, ∃ state, state ≠ SlotState.writing ∧ ⟨.loadState slot, state⟩ ∈ talk

/-- Each of the slots was not ready, or its number was loaded right after its state. -/
structure Looked (slots : List (Fin L.depth)) (talk : List (Exchange (ops L))) : Prop where
  all : ∀ slot ∈ slots, (∃ state, state ≠ SlotState.ready ∧ ⟨.loadState slot, state⟩ ∈ talk) ∨
    ∃ sequence, (slot, sequence) ∈ talk.filterMap readingOf
  ready : ∀ slot sequence, (slot, sequence) ∈ talk.filterMap readingOf → ∃ front back,
    talk = front ++ ⟨.loadState slot, .ready⟩ :: ⟨.loadSequence slot, sequence⟩ :: back

/-- The record of a take that is about to succeed or fail at its last step. -/
structure TakeRecord (slot : Fin L.depth) (checks looks : List (Exchange (ops L))) : Prop where
  loads : ∀ exchange ∈ checks ++ looks, Op.looks exchange.op
  checked : Checked (finRange L.depth) checks
  looked : Looked (finRange L.depth) looks
  best : ∃ sequence, oldestOf none (looks.filterMap readingOf) = some (slot, sequence)

def told (past : List (Exchange (ops L))) : Op L → Prop
  | .seize slot => ∃ checks looks, past = checks ++ looks ∧ TakeRecord slot checks looks
  | _ => True

theorem anyWriting_told (slots : List (Fin L.depth)) :
    (anyWriting slots).Obeys (recorded told) (fun writing later => writing = false →
      ∃ talk, later = past ++ talk ∧ (∀ exchange ∈ talk, Op.looks exchange.op) ∧
        Checked slots talk) past := by
  induction slots generalizing past with
  | nil => exact fun _ => ⟨[], (append_nil past).symm, nofun, nofun⟩
  | cons slot rest ih =>
    refine obeys_atom.mpr ⟨trivial, fun state => ?_⟩
    split
    · exact nofun
    next unwritten =>
      refine ih.mono fun writing later found none => ?_
      obtain ⟨talk, rfl, loads, checked⟩ := found none
      refine ⟨⟨.loadState slot, state⟩ :: talk, append_assoc past [_] talk, ?_, ?_⟩
      · exact forall_mem_cons.mpr ⟨trivial, loads⟩
      · refine forall_mem_cons.mpr ⟨⟨state, unwritten, mem_cons_self⟩, ?_⟩
        intro other later
        obtain ⟨seen, apart, inside⟩ := checked other later
        exact ⟨seen, apart, mem_cons_of_mem _ inside⟩

variable {slot : Fin L.depth}

theorem Looked.unready {state : SlotState} (looked : Looked slots talk) (unready : state ≠ .ready) :
    Looked (slot :: slots) (⟨.loadState slot, state⟩ :: talk) := by
  refine ⟨forall_mem_cons.mpr ⟨.inl ⟨state, unready, mem_cons_self⟩, ?_⟩, ?_⟩
  · intro other later
    rcases looked.all other later with ⟨seen, apart, inside⟩ | read
    · exact .inl ⟨seen, apart, mem_cons_of_mem _ inside⟩
    · exact .inr read
  · intro other sequence read
    obtain ⟨front, back, rfl⟩ := looked.ready other sequence read
    exact ⟨_ :: front, back, rfl⟩

theorem Looked.read {sequence : UInt32} (looked : Looked slots talk) :
    Looked (slot :: slots) (⟨.loadState slot, .ready⟩ :: ⟨.loadSequence slot, sequence⟩ :: talk) := by
  refine ⟨forall_mem_cons.mpr ⟨.inr ⟨sequence, mem_cons_self⟩, ?_⟩, ?_⟩
  · intro other later
    rcases looked.all other later with ⟨seen, apart, inside⟩ | ⟨number, read⟩
    · exact .inl ⟨seen, apart, mem_cons_of_mem _ (mem_cons_of_mem _ inside)⟩
    · exact .inr ⟨number, mem_cons_of_mem _ read⟩
  · intro other number read
    rcases mem_cons.mp read with here | later
    · cases here
      exact ⟨[], talk, rfl⟩
    · obtain ⟨front, back, rfl⟩ := looked.ready other number later
      exact ⟨_ :: _ :: front, back, rfl⟩

theorem scan_told (best : Option (Fin L.depth × UInt32)) (slots : List (Fin L.depth)) :
    (scan best slots).Obeys (recorded told) (fun oldest later => ∃ talk, later = past ++ talk ∧
      (∀ exchange ∈ talk, Op.looks exchange.op) ∧ Looked slots talk ∧
      oldest = oldestOf best (talk.filterMap readingOf)) past := by
  induction slots generalizing past best with
  | nil => exact ⟨[], (append_nil past).symm, nofun, ⟨nofun, nofun⟩, rfl⟩
  | cons slot rest ih =>
    refine obeys_atom.mpr ⟨trivial, fun state => ?_⟩
    split
    next ready =>
      subst ready
      refine obeys_atom.mpr ⟨trivial, fun sequence => ?_⟩
      refine (ih (older best slot sequence)).mono ?_
      rintro oldest _ ⟨talk, rfl, loads, looked, found⟩
      refine ⟨⟨.loadState slot, .ready⟩ :: ⟨.loadSequence slot, sequence⟩ :: talk, ?_, ?_,
        looked.read, found⟩
      · simp [recorded]
      · exact forall_mem_cons.mpr ⟨trivial, forall_mem_cons.mpr ⟨trivial, loads⟩⟩
    next unready =>
      refine (ih best).mono ?_
      rintro oldest _ ⟨talk, rfl, loads, looked, found⟩
      refine ⟨⟨.loadState slot, state⟩ :: talk, append_assoc past [_] talk, ?_,
        looked.unready unready, found⟩
      exact forall_mem_cons.mpr ⟨trivial, loads⟩

theorem takeOldest_told : (takeOldest : Task L _).Obeys (recorded told) (fun _ _ => True) [] := by
  refine (anyWriting_told _).next fun writing checks found => ?_
  unfold takeUnless
  split
  · trivial
  next unwritten =>
    obtain ⟨_, rfl, checkLoads, checked⟩ := found (Bool.eq_false_iff.mpr unwritten)
    refine (scan_told none _).next ?_
    rintro oldest _ ⟨looks, rfl, lookLoads, looked, best⟩
    cases oldest with
    | none => trivial
    | some chosen =>
      obtain ⟨slot, sequence⟩ := chosen
      have loads := forall_mem_append.mpr ⟨checkLoads, lookLoads⟩
      exact obeys_atom.mpr ⟨⟨checks, looks, rfl, loads, checked, looked, sequence, best.symm⟩,
        fun _ => trivial⟩

variable {labels : List (PoolLabel (ops L))} {pool after : Pool (ops L) (World L)} {i : Nat}

def Op.quiet : Op L → Prop
  | .seize _ => False
  | _ => True

theorem enqueue_quiet (entry : L.Entry) : (Job.enqueue entry).task.Only Op.quiet := by
  have produces : ∀ o : Op L, o.produces entry → o.quiet := by
    intro o produces
    cases o with
    | seize => exact produces.elim
    | _ => trivial
  exact ⟨trivial, fun _ => ((enqueue_only entry).mono produces).bind fun _ =>
    ⟨trivial, fun _ => trivial⟩⟩

theorem readTaken_quiet (reads : Nat) (taken : Option (Fin L.depth)) :
    (readTaken reads taken).Only Op.quiet := by
  refine (readTaken_only reads taken).mono fun o reads => ?_
  cases o with
  | seize => exact reads.elim
  | _ => trivial

theorem told_of_quiet (o : Op L) (past : List (Exchange (ops L))) (quiet : o.quiet) :
    told past o := by
  cases o with
  | seize => exact quiet.elim
  | _ => trivial

theorem job_told (job : Job L) : job.task.Obeys (recorded told) (fun _ _ => True) [] := by
  cases job with
  | enqueue entry =>
    exact (Obeys.record (enqueue_quiet entry) told_of_quiet).mono fun _ _ _ => trivial
  | consume reads =>
    refine takeOldest_told.next fun taken past _ => ?_
    exact (Obeys.record (readTaken_quiet reads taken) told_of_quiet).mono
      fun _ _ _ => trivial
  | beginTransaction => exact ⟨trivial, fun _ => trivial⟩

/-- Whether a thread is the runner is known from the start. -/
def roles : Protocol (ops L) Bool := ⟨fun runner o => o.quiet ∨ runner = true, fun runner _ => runner⟩

theorem job_roles {task : Task L Unit} (given : queueTasks i task) :
    task.Obeys roles (fun _ runner => runner = decide (i = 0)) (decide (i = 0)) := by
  obtain ⟨job, rfl, role⟩ := given
  cases job with
  | enqueue entry =>
    refine Obeys.of_only (enqueue_quiet entry) ?_ (fun _ _ _ _ same => same) rfl
    exact fun o runner quiet _ => .inl quiet
  | consume =>
    have runner : i = 0 := by simpa [Job.isEnqueue] using role
    refine Obeys.of_only (only_any _) ?_ (fun _ _ _ _ same => same) rfl
    exact fun o _ _ same => .inr (same.trans (decide_eq_true runner))
  | beginTransaction => exact ⟨.inl trivial, fun _ => rfl⟩

variable {mid : Pool (ops L) (World L)} {n : Nat} {exchange : Exchange (ops L)}

variable {later : List (PoolLabel (ops L))} {j : Nat}

section

variable (run : Run (queueSystem L) (.new (.new L)) labels pool)
include run

theorem sound_of_run : Sound labels pool.world (place labels) := sound_of_crew (crew_of_queue run).1

section

variable (step : (queueSystem L).step pool (.act i exchange) after)
include step

theorem step_of_run : watch.allows (place labels i) exchange.op ∧
      Atom pool.world exchange.op exchange.reply after.world := by
  have obeys := (crew_of_queue run).2 i
  cases step with
  | act waiting taken =>
    rw [waiting] at obeys
    exact ⟨obeys.1, taken⟩

omit step in
theorem idle_of_done (done : pool.threads j = .done ()) : place labels j = .idle := by
  have obeys := (crew_of_queue run).2 j
  rw [done] at obeys
  exact obeys

theorem move_of_run (slot : Fin L.depth) :
    SlotMove slot (place labels i) (pool.world.slots slot) exchange (after.world.slots slot) := by
  obtain ⟨allowed, taken⟩ := step_of_run run step
  exact (sound_of_run run).moves allowed taken slot

theorem runner_of_take (takes : ¬exchange.op.quiet) : i = 0 := by
  have obeys := (crew_of_run (fun _ _ given => job_roles given) run).2 i
  have role : phaseOf roles (fun i => decide (i = 0)) labels i = decide (i = 0) := by
    unfold phaseOf
    induction acts i labels with
    | nil => rfl
    | cons exchange rest ih => exact ih
  cases step with
  | act waiting =>
    rw [waiting, role] at obeys
    rcases obeys.1 with quiet | runner
    · exact absurd quiet takes
    · grind

end

end

theorem ready_stays (before : Run (queueSystem L) (.new (.new L)) labels mid)
    (run : Run (queueSystem L) mid later pool) (ready : (mid.world.slots slot).state = .ready)
    (untaken : .act 0 ⟨.seize slot, true⟩ ∉ later) :
    pool.world.slots slot = mid.world.slots slot := by
  induction run with
  | start => rfl
  | @next earlier previous next label run step ih =>
    have kept := ih fun member => untaken (mem_append_left _ member)
    have whole := before.trans run
    cases label with
    | start =>
      cases step
      exact kept
    | act =>
      have move := move_of_run whole step slot
      rw [kept] at move
      generalize next.world.slots slot = cell at move
      cases move with
      | stays => rfl
      | taken =>
        obtain rfl := runner_of_take whole step id
        exact absurd (mem_append_right _ mem_cons_self) untaken
      | _ => grind

def Phase.number : Phase L → Option Nat
  | .numbered number | .filling _ number _ _ | .filled _ number _ => some number
  | .idle | .reading _ => none

/-- The number of a producer and the slot it has for it. -/
def Phase.placed : Phase L → Option (Nat × Fin L.depth)
  | .filling _ number slot _ | .filled _ number slot => some (number, slot)
  | .idle | .numbered _ | .reading _ => none

theorem number_cases {phase : Phase L} (held : phase.number = some n) :
    phase = .numbered n ∨ ∃ slot, phase.placed = some (n, slot) := by
  cases phase with
  | numbered =>
    cases held
    exact .inl rfl
  | filling entry number slot remaining | filled entry number slot =>
    cases held
    exact .inr ⟨slot, rfl⟩
  | idle | reading => cases held

/-- A producer gets its slot at a moment when it has its number already. -/
theorem placed_after (phase : Phase L) (exchange : Exchange (ops L))
    (held : (watch.after phase exchange).placed = some (n, slot)) :
    phase.placed = some (n, slot) ∨ phase = .numbered n := by
  change (Phase.after phase exchange).placed = some (n, slot) at held
  unfold Phase.after at held
  split at held
  -- A claim that succeeds is the only way to a slot.
  case h_4 =>
      obtain ⟨rfl, _⟩ := Prod.mk.inj (Option.some.inj held)
      exact .inr rfl
  case h_5 | h_6 | h_9 => exact .inl held
  all_goals cases held

/-- At some moment of the second part a producer had this number and no slot. -/
def Unplaced (first later : List (PoolLabel (ops L))) (n : Nat) : Prop :=
  ∃ j between rest, later = between ++ rest ∧ place (first ++ between) j = .numbered n

variable {first : List (PoolLabel (ops L))} {w : World L}

theorem Unplaced.extend (more : List (PoolLabel (ops L))) (unplaced : Unplaced first later n) :
    Unplaced first (later ++ more) n := by
  obtain ⟨j, between, rest, rfl, numbered⟩ := unplaced
  exact ⟨j, between, rest ++ more, append_assoc _ _ _, numbered⟩

theorem placed_since (held : (place (first ++ later) j).placed = some (n, slot)) :
    (place first j).placed = some (n, slot) ∨ Unplaced first later n := by
  induction later using reverseRecOn with
  | nil => grind
  | append_singleton earlier label ih =>
    rw [← append_assoc] at held
    have before : (place (first ++ earlier) j).placed = some (n, slot) ∨
        place (first ++ earlier) j = .numbered n := by
      cases label with
      | start =>
        unfold place phaseOf at held
        rw [acts_start] at held
        split at held
        · cases held
        · exact .inl held
      | act k exchange =>
        unfold place at held
        rw [phaseOf_act] at held
        by_cases same : j = k
        · subst same
          rw [update_self] at held
          exact placed_after _ exchange held
        · rw [update_of_ne same] at held
          exact .inl held
    rcases before with kept | numbered
    · rcases ih kept with base | unplaced
      · exact .inl base
      · exact .inr (unplaced.extend [label])
    · exact .inr ⟨j, earlier, [label], rfl, numbered⟩

variable {phases : Nat → Phase L}

theorem Sound.writing_of_placed (sound : Sound labels w phases)
    (held : (phases j).placed = some (n, slot)) : (w.slots slot).state = .writing := by
  have claims := sound.threads j
  cases phase : phases j with
  | filling | filled =>
    rw [phase] at held claims
    obtain ⟨_, rfl⟩ := Prod.mk.inj (Option.some.inj held)
    exact sound.writing claims.1
  | _ =>
    rw [phase] at held
    cases held

section

variable (before : Run (queueSystem L) (.new (.new L)) first mid)
include before

/-- What is being written now and was not then got its slot in between. -/
theorem unplaced_of_placed (unwritten : (mid.world.slots slot).state ≠ .writing)
    (held : (place (first ++ later) j).placed = some (n, slot)) : Unplaced first later n := by
  rcases placed_since held with base | unplaced
  · exact absurd ((sound_of_run before).writing_of_placed base) unwritten
  · exact unplaced

/-- What is ready now, and was neither ready nor being written then, got its slot in between. -/
theorem unplaced_of_ready (run : Run (queueSystem L) mid later pool)
    (unready : (mid.world.slots slot).state ≠ .ready)
    (unwritten : (mid.world.slots slot).state ≠ .writing)
    (ready : (pool.world.slots slot).state = .ready) :
    Unplaced first later (pool.world.slots slot).number := by
  induction run with
  | start => grind
  | @next earlier previous next label run step ih =>
    have whole := before.trans run
    cases label with
    | start =>
      cases step
      exact (ih ready).extend _
    | act k =>
      have move := move_of_run whole step slot
      generalize next.world.slots slot = cell at move ready ⊢
      cases move with
      | stays => exact (ih ready).extend _
      | published entry filled =>
        have held : (place (first ++ earlier) k).placed =
            some ((previous.world.slots slot).number, slot) := by
          rw [filled]
          rfl
        exact (unplaced_of_placed before unwritten held).extend _
      | written => grind
      | _ => cases ready

end

structure Counted (w : World L) (phases : Nat → Phase L) : Prop where
  threads : ∀ j n, (phases j).number = some n → n < w.nextSequence
  slots : ∀ slot, (w.slots slot).state = .ready → (w.slots slot).number < w.nextSequence

theorem nextSequence_of_atom {w' : World L} {o : Op L} {reply : o.Reply} (taken : Atom w o reply w') :
    w.nextSequence ≤ w'.nextSequence ∧
      ∀ n, (⟨o, reply⟩ : Exchange (ops L)) = ⟨.nextSequence, n⟩ → n < w'.nextSequence := by
  cases o with
  | nextSequence =>
    cases taken
    refine ⟨le_succ _, ?_⟩
    rintro n same
    cases same
    exact lt_succ_self _
  | claim =>
    rcases claim_cases taken with ⟨_, _, rfl⟩ | ⟨_, _, rfl⟩
    · exact ⟨le_refl _, nofun⟩
    · grind
  | seize =>
    rcases seize_cases taken with ⟨_, _, rfl⟩ | ⟨_, _, rfl⟩
    · exact ⟨le_refl _, nofun⟩
    · grind
  | admitResult => grind [Atom, Op.answer]
  | _ =>
    obtain ⟨_, rfl⟩ := Prod.mk.inj taken
    exact ⟨le_refl _, nofun⟩

theorem number_after (phase : Phase L) (exchange : Exchange (ops L))
    (held : (watch.after phase exchange).number = some n) :
    phase.number = some n ∨ exchange = ⟨.nextSequence, n⟩ := by
  change (Phase.after phase exchange).number = some n at held
  unfold Phase.after at held
  split at held
  case h_1 =>
      cases held
      exact .inr rfl
  case h_4 | h_5 | h_6 | h_9 => exact .inl held
  all_goals cases held

theorem counted_of_run (run : Run (queueSystem L) (.new (.new L)) labels pool) :
    Counted pool.world (place labels) := by
  induction run with
  | start => exact ⟨nofun, nofun⟩
  | @next earlier previous next label run step ih =>
    cases label with
    | start k =>
      cases step with
      | start done =>
        have same : place (earlier ++ [.start k]) = place earlier :=
          phaseOf_start (idle_of_done run done)
        rw [same]
        exact ih
    | act k exchange =>
      obtain ⟨_, taken⟩ := step_of_run run step
      obtain ⟨grows, fresh⟩ := nextSequence_of_atom taken
      refine ⟨?_, ?_⟩
      · intro j n held
        unfold place at held
        rw [phaseOf_act] at held
        by_cases same : j = k
        · subst same
          rw [update_self] at held
          rcases number_after _ exchange held with kept | given
          · exact lt_of_lt_of_le (ih.threads j n kept) grows
          · exact fresh n given
        · rw [update_of_ne same] at held
          exact lt_of_lt_of_le (ih.threads j n held) grows
      intro slot ready
      have move := move_of_run run step slot
      generalize next.world.slots slot = cell at move ready ⊢
      cases move with
      | stays => exact lt_of_lt_of_le (ih.slots slot ready) grows
      | published entry filled =>
        refine lt_of_lt_of_le (ih.threads k _ ?_) grows
        rw [filled]
        rfl
      | written => grind
      | _ => cases ready

variable {base late : List (PoolLabel (ops L))} {origin : Pool (ops L) (World L)}
  {other : Fin L.depth} {front back checks looks : List (Exchange (ops L))}

theorem glance (run : Run (queueSystem L) mid late pool)
    (own : late.filterMap (PoolLabel.own 0) = front ++ exchange :: back) (loads : exchange.op.looks) :
    ∃ first second seen, late = first ++ second ∧
      first.filterMap (PoolLabel.own 0) = front ++ [exchange] ∧
      second.filterMap (PoolLabel.own 0) = back ∧ Run (queueSystem L) mid first seen ∧
      Run (queueSystem L) seen second pool ∧
      Atom seen.world exchange.op exchange.reply seen.world := by
  obtain ⟨earlier, rest, rfl, begins, tail⟩ := filterMap_eq_append_iff.mp own
  obtain ⟨skipped, label, second, rfl, others, mine, last⟩ := filterMap_eq_cons_iff.mp tail
  obtain rfl := own_eq_some mine
  rw [← append_assoc] at run
  obtain ⟨now, seen, before, step, later⟩ := run.step_at
  refine ⟨earlier ++ skipped ++ [.act 0 exchange], second, seen, by simp, ?_, last, before.next step,
    later, ?_⟩
  · simp_all
  · cases step with
    | @act _ o _ reply _ _ taken =>
      cases o with
      | loadState slot | loadSequence slot =>
        cases taken
        rfl
      | _ => exact loads.elim

theorem untaken_of_loads (slot : Fin L.depth)
    (loads : ∀ exchange ∈ late.filterMap (PoolLabel.own 0), Op.looks exchange.op) :
    .act 0 ⟨.seize slot, true⟩ ∉ late := by
  intro member
  exact loads ⟨.seize slot, true⟩ (mem_filterMap.mpr ⟨_, member, by simp [PoolLabel.own]⟩)

variable {sequence : UInt32}

section

variable (before : Run (queueSystem L) (.new (.new L)) base origin)
  (run : Run (queueSystem L) origin late pool)
  (own : late.filterMap (PoolLabel.own 0) = checks ++ looks) (record : TakeRecord slot checks looks)
include before run own record

theorem reading_stands (read : (other, sequence) ∈ looks.filterMap readingOf) :
    (pool.world.slots other).state = .ready ∧
      sequence = ofNat (pool.world.slots other).number := by
  obtain ⟨front, back, rfl⟩ := record.looked.ready other sequence read
  rw [← append_assoc] at own
  have loads : ∀ exchange ∈ (⟨.loadSequence other, sequence⟩ :: back : List (Exchange (ops L))),
      Op.looks exchange.op := by
    intro exchange member
    exact record.loads exchange (by simp_all)
  obtain ⟨first, second, seen, rfl, _, rest, reaches, later, ready⟩ := glance run own trivial
  have state : (seen.world.slots other).state = .ready := (Prod.mk.inj ready).1.symm
  have stands := ready_stays (before.trans reaches) later state
    (untaken_of_loads other (by rw [rest]; exact loads))
  -- The number is loaded after that, and the slot is the same until then.
  have again : second.filterMap (PoolLabel.own 0) = [] ++ ⟨.loadSequence other, sequence⟩ :: back := rest
  obtain ⟨between, last, now, rfl, nothing, _, middle, _, shown⟩ := glance later again trivial
  have same := ready_stays (before.trans reaches) middle state
    (untaken_of_loads other (by
      grind))
  refine ⟨by rw [stands]; exact state, ?_⟩
  have number : sequence = ofNat (now.world.slots other).number := (Prod.mk.inj shown).1
  rw [number, same, stands]

omit before in
/-- Since the runner looked whether a slot was being written, it has been taking. -/
theorem checked_moment (other : Fin L.depth) :
    ∃ first second seen, late = first ++ second ∧ first.filterMap (PoolLabel.own 0) ≠ [] ∧
      (∃ unchecked, second.filterMap (PoolLabel.own 0) = unchecked ++ looks ∧
        ∀ exchange ∈ unchecked ++ looks, Op.looks exchange.op) ∧
      Run (queueSystem L) origin first seen ∧ Run (queueSystem L) seen second pool ∧
      (seen.world.slots other).state ≠ .writing := by
  obtain ⟨state, unwritten, member⟩ := record.checked other (mem_finRange other)
  obtain ⟨front, unchecked, split⟩ := append_of_mem member
  rw [split, append_assoc] at own
  obtain ⟨first, second, seen, rfl, begun, rest, reaches, later, shown⟩ := glance run own trivial
  refine ⟨first, second, seen, rfl, by rw [begun]; simp, ⟨unchecked, rest, ?_⟩, reaches, later, ?_⟩
  · intro exchange inside
    refine record.loads exchange ?_
    rw [split, append_assoc]
    exact mem_append_right _ (mem_cons_of_mem _ inside)
  · have state_eq : state = (seen.world.slots other).state := (Prod.mk.inj shown).1
    rwa [← state_eq]

/-- A slot that is ready was read, or its entry got the slot after the runner had begun. -/
theorem read_of_ready (ready : (pool.world.slots other).state = .ready) :
    (∃ sequence, (other, sequence) ∈ looks.filterMap readingOf) ∨
      ∃ first second, late = first ++ second ∧ first.filterMap (PoolLabel.own 0) ≠ [] ∧
        Unplaced (base ++ first) second (pool.world.slots other).number := by
  rcases record.looked.all other (mem_finRange other) with ⟨state, unready, member⟩ | read
  · right
    obtain ⟨first, second, seen, rfl, begun, ⟨unchecked, rest, loads⟩, reaches, later, unwritten⟩ :=
      checked_moment run own record other
    refine ⟨first, second, rfl, begun, ?_⟩
    refine unplaced_of_ready (before.trans reaches) later ?_ unwritten ready
    -- An entry that was ready at the check would have been so at the look.
    intro already
    obtain ⟨looked, unlooked, split⟩ := append_of_mem member
    rw [split, ← append_assoc] at rest
    obtain ⟨between, last, now, rfl, passed, _, middle, _, shown⟩ := glance later rest trivial
    have same := ready_stays (before.trans reaches) middle already
      (untaken_of_loads other (by
        grind))
    have state_eq : state = (now.world.slots other).state := (Prod.mk.inj shown).1
    rw [state_eq, same] at unready
    exact unready already
  · exact .inl read

end

/-- A number that was given and is neither dropped nor taken. -/
def Outstanding (labels : List (PoolLabel (ops L))) (w : World L) (n : Nat) : Prop :=
  (∃ j, (place labels j).number = some n) ∨
    ∃ slot, (w.slots slot).state = .ready ∧ (w.slots slot).number = n

/-- A moment since the first step of the job that the runner is at. -/
def DuringTake (labels early : List (PoolLabel (ops L))) : Prop :=
  ∃ late, labels = early ++ late ∧ acts 0 early ≠ [] ∧ .start 0 ∉ late

theorem duringTake_of_split {second : List (PoolLabel (ops L))}
    (whole : labels = base ++ (first ++ second)) (fresh : acts 0 base = [])
    (unstarted : .start 0 ∉ first ++ second) (begun : first.filterMap (PoolLabel.own 0) ≠ []) :
    DuringTake labels (base ++ first) := by
  refine ⟨second, by grind, ?_, ?_⟩
  · rw [acts_append fun started => unstarted (mem_append_left _ started), fresh]
    exact begun
  · grind

/-- The slot that is chosen has the lowest number of those that were read. -/
theorem lowest_of_readings (counted : Counted w phases)
    (window : ∀ other, (w.slots other).state = .ready → w.nextSequence ≤ (w.slots other).number +
      2 ^ 31) {readings : List (Fin L.depth × UInt32)}
    (stands : ∀ other sequence, (other, sequence) ∈ readings → (w.slots other).state = .ready ∧
      sequence = ofNat (w.slots other).number)
    (best : oldestOf none readings = some (slot, sequence)) (other : Fin L.depth)
    (read : ∃ sequence, (other, sequence) ∈ readings) :
    (w.slots slot).number ≤ (w.slots other).number := by
  let number (slot : Fin L.depth) : Nat := (w.slots slot).number
  have shows : (readings.map Prod.fst).map (shown number) = readings := by
    rw [map_map]
    refine (map_congr_left ?_).trans (map_id readings)
    rintro ⟨other, sequence⟩ member
    exact Prod.ext rfl (stands other sequence member).2.symm
  have isReady (other : Fin L.depth) (member : other ∈ readings.map Prod.fst) :
      (w.slots other).state = .ready := by
    obtain ⟨⟨_, sequence⟩, inside, rfl⟩ := mem_map.mp member
    exact (stands _ sequence inside).1
  have near : ∀ a ∈ readings.map Prod.fst, ∀ b ∈ readings.map Prod.fst,
      number a < number b + 2 ^ 31 := by
    intro a inA b inB
    exact lt_of_lt_of_le (counted.slots a (isReady a inA)) (window b (isReady b inB))
  obtain ⟨_, least⟩ := oldestOf_lowest near (by rw [shows]; exact best)
  obtain ⟨sequence, inside⟩ := read
  exact least other (mem_map.mpr ⟨_, inside, rfl⟩)

/-- The number of what is taken is the lowest of those that are outstanding, but for producers that
had a number and no slot at some moment of the take. -/
theorem take_oldest_keeps_order (run : Run (queueSystem L) (.new (.new L)) labels pool)
    (step : (queueSystem L).step pool (.act i ⟨.seize slot, true⟩) after)
    (window : ∀ other, (pool.world.slots other).state = .ready →
      pool.world.nextSequence ≤ (pool.world.slots other).number + 2 ^ 31)
    (outstanding : Outstanding labels pool.world n)
    (placed : ∀ early j, DuringTake labels early → place early j ≠ .numbered n) :
    (pool.world.slots slot).number ≤ n := by
  obtain rfl := runner_of_take run step id
  obtain ⟨checks, looks, acted, record⟩ :=
    guard_of_step (fun _ _ ⟨job, same, _⟩ => same ▸ job_told job) run step
  obtain ⟨base, late, whole, fresh, own, unstarted⟩ :=
    acts_split (show acts 0 labels = [] ++ (checks ++ looks) from acted)
  subst whole
  obtain ⟨origin, before, run'⟩ := run.split
  -- Nobody had this number and no slot since the first look.
  have settled (first second : List (PoolLabel (ops L))) (split : late = first ++ second)
      (begun : first.filterMap (PoolLabel.own 0) ≠ []) : ¬Unplaced (base ++ first) second n := by
    rintro ⟨j, between, rest, rfl, numbered⟩
    refine placed (base ++ first ++ between) j ?_ numbered
    subst split
    have whole : base ++ (first ++ (between ++ rest)) = base ++ ((first ++ between) ++ rest) := by simp
    rw [append_assoc]
    refine duringTake_of_split whole fresh (by simpa using unstarted) ?_
    simp [begun]
  rcases outstanding with ⟨j, held⟩ | ⟨other, ready, rfl⟩
  · -- Who has a slot now had none when the slot was checked.
    exfalso
    rcases number_cases held with numbered | ⟨other, has⟩
    · obtain ⟨first, second, seen, rfl, begun, _⟩ := checked_moment run' own record slot
      refine settled first second rfl begun ⟨j, second, [], (append_nil second).symm, ?_⟩
      rwa [append_assoc]
    · obtain ⟨first, second, seen, rfl, begun, _, reaches, _, unwritten⟩ :=
        checked_moment run' own record other
      rw [← append_assoc] at has
      exact settled first second rfl begun (unplaced_of_placed (before.trans reaches) unwritten has)
  · rcases read_of_ready before run' own record ready with read | ⟨first, second, split, begun, unplaced⟩
    · obtain ⟨sequence, best⟩ := record.best
      exact lowest_of_readings (counted_of_run run) window
        (fun other sequence => reading_stands before run' own record) best other read
    · grind

theorem atom_answer (w : World L) (o : Op L) : Atom w o (o.answer w).1 (o.answer w).2 := rfl

/-- A callback gives itself the number zero and is preempted by one that queues its frame with the
number one. The runner takes that frame, and the first one is queued after it. -/
theorem take_oldest_overtakes_unplaced_producer :
    ∃ (labels later : List (PoolLabel (ops mgmtRxQueue)))
      (pool after final : Pool (ops mgmtRxQueue) (World mgmtRxQueue)),
      Run (queueSystem mgmtRxQueue) (.new (.new mgmtRxQueue)) labels pool ∧
      (queueSystem mgmtRxQueue).step pool (.act 0 ⟨.seize (0 : Fin 8), true⟩) after ∧
      Run (queueSystem mgmtRxQueue) after later final ∧ .act 1 ⟨.nextSequence, (0 : Nat)⟩ ∈ labels ∧
      (pool.world.slots (0 : Fin 8)).number = 1 ∧ pool.world.nextSequence = 2 ∧
      (final.world.slots (1 : Fin 8)).state = .ready ∧
      (final.world.slots (1 : Fin 8)).number = 0 := by
  have first : Run (queueSystem mgmtRxQueue) (.new (.new mgmtRxQueue)) _ _ :=
    run_job atom_answer 2 (i := 1) ⟨.enqueue ⟨2412, 0, [1]⟩, rfl, by decide⟩ rfl
  have second := first.trans (run_job atom_answer 8 (i := 2) ⟨.enqueue ⟨2412, 0, [2]⟩, rfl, by decide⟩ rfl)
  have looked := second.trans (run_job atom_answer 17 (i := 0) ⟨.consume 1, rfl, by decide⟩ rfl)
  refine ⟨_, _, _, _, _, looked, .act rfl rfl, run_drive atom_answer 6 1 _ _ rfl, ?_, rfl, rfl, rfl,
    rfl⟩
  exact .tail _ (.tail _ (.head _))

theorem place_loads (rest : ∀ j, place base j = .idle)
    (loads : ∀ exchange ∈ talk, Op.looks exchange.op) (j : Nat) :
    place (base ++ talk.map (.act 0)) j = .idle := by
  induction talk using reverseRecOn with
  | nil => simpa using rest j
  | append_singleton earlier exchange ih =>
    have before := ih fun other member => loads other (mem_append_left _ member)
    rw [map_append, ← append_assoc]
    unfold place at before ⊢
    rw [map_singleton, phaseOf_act]
    by_cases runner : j = 0
    · subst runner
      rw [update_self, before]
      have load := loads exchange (mem_append_right _ mem_cons_self)
      obtain ⟨o, reply⟩ := exchange
      cases o with
      | loadState | loadSequence => rfl
      | _ => exact load.elim
    · grind

/-- If every producer rests when the runner takes up its job and only the runner acts after that,
nobody has a number during the take. -/
theorem rest_during {early : List (PoolLabel (ops L))} (rest : ∀ j, place base j = .idle)
    (loads : ∀ exchange ∈ talk, Op.looks exchange.op)
    (during : DuringTake (base ++ .start 0 :: talk.map (.act 0)) early) (j : Nat) :
    place early j = .idle := by
  have started : place (base ++ [.start 0]) = place base := phaseOf_start (rest 0)
  obtain ⟨late, whole, _, unstarted⟩ := during
  rcases append_eq_append_iff.mp whole with ⟨extra, rfl, split⟩ | ⟨extra, rfl, split⟩
  · cases extra with
    | nil => grind
    | cons =>
      obtain ⟨rfl, tail⟩ := cons.inj split
      obtain ⟨said, unsaid, rfl, rfl, _⟩ := map_eq_append_iff.mp tail
      rw [append_cons]
      refine place_loads (fun j => by rw [started, rest]) ?_ j
      exact fun exchange member => loads exchange (mem_append_left _ member)
  · grind

/-- Two callbacks after each other, and the runner takes the frame of the first one. -/
theorem take_of_first_frame : ∃ (labels : List (PoolLabel (ops mgmtRxQueue)))
      (pool after : Pool (ops mgmtRxQueue) (World mgmtRxQueue)),
      Run (queueSystem mgmtRxQueue) (.new (.new mgmtRxQueue)) labels pool ∧
      (queueSystem mgmtRxQueue).step pool (.act 0 ⟨.seize (0 : Fin 8), true⟩) after ∧
      Outstanding labels pool.world 1 ∧ (pool.world.slots (0 : Fin 8)).number ≤ 1 := by
  have first : Run (queueSystem mgmtRxQueue) (.new (.new mgmtRxQueue)) _ _ :=
    run_job atom_answer 8 (i := 1) ⟨.enqueue ⟨2412, 0, [1]⟩, rfl, by decide⟩ rfl
  have second := first.trans
    (run_job atom_answer 9 (i := 2) ⟨.enqueue ⟨2412, 0, [2]⟩, rfl, by decide⟩ rfl)
  have looked := second.trans (run_job atom_answer 18 (i := 0) ⟨.consume 1, rfl, by decide⟩ rfl)
  refine ⟨_, _, _, looked, .act rfl rfl, .inr ⟨(1 : Fin 8), rfl, rfl⟩,
    take_oldest_keeps_order (i := 0) looked (.act rfl rfl) ?_ (.inr ⟨(1 : Fin 8), rfl, rfl⟩) ?_⟩
  · intro other _
    exact le_trans (by decide) (le_add_left (2 ^ 31) _)
  intro early j during
  have rest (j : Nat) := idle_of_done (j := j) second (by
    match j with
    | 0 | 1 | 2 | _ + 3 => rfl)
  obtain ⟨checks, looks, acted, record⟩ :=
    guard_of_step (i := 0) (fun _ _ ⟨job, same, _⟩ => same ▸ job_told job) looked (.act rfl rfl)
  have loads := record.loads
  rw [← acted] at loads
  rw [rest_during rest loads during]
  exact nofun

end HisiRf.SlotQueue
