import HisiRf.Supplicant.ScanThreads

/-! Which scan an event is fed to.

If no callback of an earlier scan is at work when a scan is started, or comes after
that, and nothing is pending then, each event is fed during the scan that it belongs
to and no scan is ended by the callback of another.
-/

namespace HisiRf.ScanFeed

open Interaction Function List
open EventQueues (IeLimit ScanMeta)

variable {limit : IeLimit}

section Currency

def entryOf : Phase limit → Option (events limit).Entry
  | .filling entry _ _ _ | .filled entry _ _ => some entry
  | .idle | .numbered _ | .reading _ => none

structure Current (w : World limit) (places : Nat → Phase limit) (held : Nat → Mark limit) : Prop where
  callbacks : ∀ j scan, held j = .callback scan → scan = w.begun
  writers : ∀ j entry, entryOf (places j) = some entry → entry.1 = w.begun
  pending : ∀ slot, (w.queue.slots slot).state = .ready → (w.queue.slots slot).content.1 = w.begun
  taken : ∀ j slot, held j = .taken slot →
    places j = .reading slot ∧ (w.queue.slots slot).content.1 = w.begun
  loaded : ∀ j entry, held j = .loaded entry → entry.1 = w.begun

variable {w : World limit} {places : Nat → Phase limit} {held : Nat → Mark limit} {i : Nat}
  {known : List (PoolLabel (SlotQueue.ops (events limit)))} {o : SlotQueue.Op (events limit)}
  {reply : o.Reply} {q : SlotQueue.World (events limit)} {slot : Fin (events limit).depth}
  {entry : (events limit).Entry} {mark : Mark limit} {phase : Phase limit} {after : World limit}

theorem entryOf_after (phase : Phase limit) (exchange : Exchange (SlotQueue.ops (events limit)))
    (writes : entryOf (SlotQueue.watch.after phase exchange) = some entry) :
    entryOf phase = some entry ∨ ∃ slot, exchange.op = .claim slot entry := by
  change entryOf (SlotQueue.Phase.after phase exchange) = some entry at writes
  unfold SlotQueue.Phase.after at writes
  split at writes
  case h_4 number slot claimed =>
      cases writes
      exact .inr ⟨slot, rfl⟩
  case h_5 | h_6 | h_9 => exact .inl writes
  all_goals cases writes

theorem claim_scan (allowed : mark.allows (.inl (.claim slot entry))) : mark = .callback entry.1 := by
  cases mark with
  | callback => exact congrArg Mark.callback allowed.symm
  | _ => exact allowed.elim

/-- What a thread has in hand changes on a slot only when it takes the slot or reads it. -/
theorem mark_after_slot (reply : o.Reply) (allowed : mark.allows (.inl o)) :
    mark.after ⟨.inl o, reply⟩ = .idle ∨
      (∃ scan, mark = .callback scan ∧ mark.after ⟨.inl o, reply⟩ = .callback scan) ∨
      (∃ slot, (⟨o, reply⟩ : Exchange (SlotQueue.ops (events limit))) = ⟨.seize slot, true⟩ ∧
        mark.after ⟨.inl o, reply⟩ = .taken slot) ∨ ∃ slot content, mark = .taken slot ∧
        (⟨o, reply⟩ : Exchange (SlotQueue.ops (events limit))) = ⟨.load slot, content⟩ ∧
        mark.after ⟨.inl o, reply⟩ = .loaded ((events limit).view content) := by
  cases mark with
  | idle =>
    cases o with
    | seize slot =>
      cases reply with
      | false => exact .inl rfl
      | true => exact .inr (.inr (.inl ⟨slot, rfl, rfl⟩))
    | _ => exact .inl rfl
  | callback scan => exact .inr (.inl ⟨scan, rfl, rfl⟩)
  | taken slot =>
    cases o with
    | load other =>
      obtain rfl : other = slot := allowed
      exact .inr (.inr (.inr ⟨_, reply, rfl, rfl, rfl⟩))
    | release => exact .inl rfl
    | _ => exact allowed.elim
  | loaded => exact allowed.elim

theorem idle_of_seize (follows : SlotQueue.watch.allows phase (.seize slot)) : phase = .idle := by
  cases phase with
  | idle => rfl
  | numbered => rcases follows with same | ⟨_, _, same, _⟩ <;> cases same
  | filling _ _ _ remaining => cases remaining <;> cases follows
  | filled => cases follows
  | reading => rcases follows with same | same | same <;> cases same

theorem content_of_reading {cell next : SlotQueue.Slot (events limit)}
    {exchange : Exchange (SlotQueue.ops (events limit))}
    (move : SlotQueue.SlotMove slot phase cell exchange next) (reading : cell.state = .reading) :
    next.content = cell.content := by
  cases move with
  | written => simp_all
  | _ => rfl

theorem reading_of_place (sound : SlotQueue.Sound known w.queue places)
    (reads : places i = .reading slot) : (w.queue.slots slot).state = .reading := by
  have claims := sound.threads i
  rw [reads] at claims
  obtain ⟨entry, current⟩ := claims
  obtain ⟨stage, same, shows⟩ := sound.slots slot
  cases current.symm.trans same
  exact shows.1

theorem Current.onSlot (current : Current w places held) (sound : SlotQueue.Sound known w.queue places)
    (follows : SlotQueue.watch.allows (places i) o) (fits : (held i).allows (.inl o))
    (done : SlotQueue.Atom w.queue o reply q) : Current { w with queue := q }
      (update places i (SlotQueue.watch.after (places i) ⟨o, reply⟩))
      (update held i ((held i).after ⟨.inl o, reply⟩)) := by
  have move := sound.moves follows done
  have mark := mark_after_slot reply fits
  refine ⟨?_, ?_, ?_, ?_, ?_⟩
  · intro j scan here
    by_cases same : j = i
    · subst same
      rw [update_self] at here
      rw [here] at mark
      rcases mark with idle | ⟨_, kept, stays⟩ | ⟨_, _, taken⟩ | ⟨_, _, _, _, loaded⟩
      · cases idle
      · cases stays
        exact current.callbacks j scan kept
      · cases taken
      · cases loaded
    · rw [update_of_ne same] at here
      exact current.callbacks j scan here
  · intro j entry here
    by_cases same : j = i
    · subst same
      rw [update_self] at here
      rcases entryOf_after _ _ here with kept | ⟨slot, claims⟩
      · exact current.writers j entry kept
      · obtain rfl : o = .claim slot entry := claims
        exact current.callbacks j entry.1 (claim_scan fits)
    · rw [update_of_ne same] at here
      exact current.writers j entry here
  · intro slot ready
    have step := move slot
    have claims := sound.threads i
    generalize q.slots slot = cell at step ready ⊢
    cases step with
    | stays => exact current.pending slot ready
    | published entry filled =>
      rw [filled] at claims
      have view := congrArg Prod.fst claims.2.1
      have own := current.writers i entry (by rw [filled]; rfl)
      exact view.trans own
    | written => simp_all
    | _ => cases ready
  · intro j slot here
    by_cases same : j = i
    · subst same
      rw [update_self] at here
      rw [here] at mark
      rcases mark with idle | ⟨_, _, kept⟩ | ⟨other, seizes, taken⟩ | ⟨_, _, _, _, loaded⟩
      · cases idle
      · cases kept
      · cases taken
        cases seizes
        rcases SlotQueue.seize_cases done with ⟨ready, _, rfl⟩ | ⟨_, missed, _⟩
        · have tag := current.pending slot ready
          rw [update_self, idle_of_seize follows]
          refine ⟨rfl, ?_⟩
          rw [SlotQueue.setState_slots]
          exact tag
        · cases missed
      · cases loaded
    · rw [update_of_ne same] at here ⊢
      obtain ⟨reads, tag⟩ := current.taken j slot here
      refine ⟨reads, ?_⟩
      rw [content_of_reading (move slot) (reading_of_place sound reads)]
      exact tag
  intro j entry here
  by_cases same : j = i
  · subst same
    rw [update_self] at here
    rw [here] at mark
    rcases mark with idle | ⟨_, _, kept⟩ | ⟨_, _, taken⟩ | ⟨slot, content, takes, loads, loaded⟩
    · cases idle
    · cases kept
    · cases taken
    · cases loads
      cases loaded
      have tag := (current.taken j slot takes).2
      have read := (Prod.mk.inj done).1
      rw [← read] at tag
      exact tag
  · rw [update_of_ne same] at here
    exact current.loaded j entry here

/-- What is done beside the slots leaves the queue as it is, and nobody gets hold of an entry by it. -/
theorem mark_beside {o : Op limit} (reply : o.Reply) (allowed : mark.allows (.inr o)) :
    mark.after ⟨.inr o, reply⟩ = .idle ∨ mark.after ⟨.inr o, reply⟩ = mark ∨
      ∃ scan, o = .enterCallback scan ∧ mark.after ⟨.inr o, reply⟩ = .callback scan := by
  cases mark with
  | idle =>
    cases o with
    | enterCallback scan => exact .inr (.inr ⟨scan, rfl, rfl⟩)
    | _ => exact .inl rfl
  | callback =>
    cases o with
    | leaveCallback => exact .inl rfl
    | _ => exact .inr (.inl rfl)
  | taken => exact allowed.elim
  | loaded =>
    cases o with
    | feed => exact .inl rfl
    | _ => exact allowed.elim

theorem Current.beside {o : Op limit} {reply : o.Reply} (current : Current w places held)
    (fits : (held i).allows (.inr o)) (same : after.queue = w.queue)
    (during : after.begun = w.begun) (enters : ∀ scan, o = .enterCallback scan → scan = w.begun) :
    Current after places (update held i ((held i).after ⟨.inr o, reply⟩)) := by
  have kept (j : Nat) : update held i ((held i).after ⟨.inr o, reply⟩) j = .idle ∨
      update held i ((held i).after ⟨.inr o, reply⟩) j = held j ∨
      update held i ((held i).after ⟨.inr o, reply⟩) j = .callback w.begun := by
    by_cases own : j = i
    · subst own
      rw [update_self]
      rcases mark_beside reply fits with idle | stays | ⟨scan, enter, entered⟩
      · exact .inl idle
      · exact .inr (.inl stays)
      · simp_all
    · simp_all
  refine ⟨?_, ?_, ?_, ?_, ?_⟩
  · intro j scan here
    rw [during]
    rcases kept j with idle | stays | entered
    · simp_all
    · exact current.callbacks j scan (stays.symm.trans here)
    · simp_all
  · rw [during]
    exact current.writers
  · rw [same, during]
    exact current.pending
  · intro j slot here
    rw [same, during]
    rcases kept j with idle | stays | entered
    · simp_all
    · exact current.taken j slot (stays.symm.trans here)
    · simp_all
  · intro j entry here
    rw [during]
    rcases kept j with idle | stays | entered
    · simp_all
    · exact current.loaded j entry (stays.symm.trans here)
    · simp_all

theorem idle_of_capture (fits : mark.allows (.inr .capture)) : mark = .idle := by
  cases mark with
  | idle => rfl
  | _ => exact fits.elim

def Drained (w : World limit) : Prop :=
  ∀ slot, (w.queue.slots slot).state ≠ .ready ∧ (w.queue.slots slot).state ≠ .writing

theorem writing_of_entry (sound : SlotQueue.Sound known w.queue places)
    (writes : entryOf (places i) = some entry) : ∃ slot, (w.queue.slots slot).state = .writing := by
  have claims := sound.threads i
  cases phase : places i with
  | filling other number slot | filled other number slot =>
    rw [phase] at claims
    exact ⟨slot, sound.writing claims.1⟩
  | _ =>
    rw [phase] at writes
    cases writes

/-- A scan is started while nothing is pending and nobody else is at work. -/
theorem current_of_begin (sound : SlotQueue.Sound known w.queue places)
    (alone : ∀ j, held j = .idle) (drained : Drained w) (same : after.queue = w.queue) :
    Current after places held := by
  refine ⟨?_, ?_, ?_, ?_, ?_⟩
  · simp_all
  · intro j entry writes
    obtain ⟨slot, writing⟩ := writing_of_entry sound writes
    exact absurd writing (drained slot).2
  · intro slot ready
    rw [same] at ready
    exact absurd ready (drained slot).1
  · simp_all
  · simp_all

end Currency

section Scans

/-- A scan is started when no callback is at work and nothing is pending, and a callback that comes
belongs to the scan that was started last. -/
def Orderly (pool : Pool (ops limit) (World limit)) : PoolLabel (ops limit) → Prop
  | .act i ⟨.inr .capture, true⟩ => (∀ j, j ≠ i → pool.threads j = .done ()) ∧ Drained pool.world
  | .act _ ⟨.inr (.enterCallback scan), _⟩ => scan = pool.world.begun
  | _ => True

variable {labels : List (PoolLabel (ops limit))} {pool after : Pool (ops limit) (World limit)} {i : Nat}

section

variable (run : Run (scanSystem limit) (.new (.new limit)) labels pool)
include run

theorem mark_of_done (rests : pool.threads i = .done ()) : mark labels i = .idle := by
  have obeys := (crew_of_marks run).2 i
  rw [rests] at obeys
  exact obeys

theorem allowed_of_act {o : (ops limit).Op} {next : (ops limit).Reply o → Task limit Unit}
    (waiting : pool.threads i = .call o next) :
    slots.allows (place labels i) o ∧ (mark labels i).allows o := by
  have placed := (crew_of_slots run).2 i
  have marked := (crew_of_marks run).2 i
  rw [waiting] at placed marked
  exact ⟨placed.1, marked.1⟩

end

/-- An action beside the queue, in a run that has been orderly so far. -/
theorem Current.act {o : Op limit} {reply : o.Reply} {w : World limit}
    {next : o.Reply → Task limit Unit} (current : Current pool.world (place labels) (mark labels))
    (run : Run (scanSystem limit) (.new (.new limit)) labels pool)
    (waiting : pool.threads i = .call (.inr o) next) (taken : o.effect pool.world reply w)
    (orderly : Orderly pool (.act i ⟨.inr o, reply⟩)) : Current w (place labels)
      (update (mark labels) i ((mark labels i).after ⟨.inr o, reply⟩)) := by
  have fits := (allowed_of_act run waiting).2
  obtain ⟨same, begins⟩ := effect_cases taken
  rcases begins with during | begins
  · apply current.beside fits same during
    intro scan enters
    subst enters
    exact orderly
  cases begins
  have own := idle_of_capture fits
  apply current_of_begin (sound_of_run run) _ orderly.2 same
  intro j
  by_cases mine : j = i
  · subst mine
    rw [update_self, own]
    rfl
  · rw [update_of_ne mine]
    exact mark_of_done run (orderly.1 j mine)

theorem current_of_run
    (run : Run ((scanSystem limit).keeping Orderly) (.new (.new limit)) labels pool) :
    Current pool.world (place labels) (mark labels) := by
  induction run with
  | start => exact ⟨nofun, nofun, nofun, nofun, nofun⟩
  | @next earlier before now label run step ih =>
    obtain ⟨step, orderly⟩ := step
    have reached := run.unruled
    cases step with
    | @start i p rests =>
      have free := (crew_of_slots reached).2 i
      rw [rests] at free
      unfold place mark
      rw [phaseOf_start free, phaseOf_start (mark_of_done reached rests)]
      exact ih
    | @act i o next reply w waiting taken =>
      unfold place mark
      rw [phaseOf_act, phaseOf_act]
      cases o with
      | inl =>
        obtain ⟨queue, taken, rfl⟩ := taken
        have allowed := allowed_of_act reached waiting
        exact ih.onSlot (sound_of_run reached) allowed.1 allowed.2 taken
      | inr o =>
        have still : update (place earlier) i
            (slots.after (place earlier i) ⟨.inr o, reply⟩) = place earlier :=
          update_eq_self i (place earlier)
        exact still ▸ ih.act reached waiting taken orderly

variable {scan : Nat}

theorem callback_after {mark : Mark limit} {exchange : Exchange (ops limit)}
    (inside : mark.after exchange = .callback scan) :
    mark = .callback scan ∨ exchange = ⟨.inr (.enterCallback scan), ()⟩ := by
  unfold Mark.after at inside
  split at inside
  case h_2 entered => simp_all
  case h_7 => exact .inl inside
  all_goals cases inside

theorem entered_of_mark (inside : mark labels i = .callback scan) :
    ⟨.inr (.enterCallback scan), ()⟩ ∈ acts i labels := by
  unfold mark phaseOf at inside
  generalize acts i labels = talk at inside ⊢
  induction talk using reverseRecOn with
  | nil => cases inside
  | append_singleton earlier exchange ih =>
    rw [foldl_concat] at inside
    rw [mem_append, mem_singleton]
    rcases callback_after inside with before | enters
    · exact .inl (ih before)
    · exact .inr enters.symm

theorem callback_of_swap {mark : Mark limit} (fits : mark.allows (.inr .swapActive)) :
    ∃ scan, mark = .callback scan := by
  cases mark with
  | callback scan => exact ⟨scan, rfl⟩
  | _ => exact fits.elim

theorem loaded_of_feed {mark : Mark limit} {entry : (events limit).Entry}
    (fits : mark.allows (.inr (.feed entry))) : mark = .loaded entry := by
  cases mark with
  | loaded => exact congrArg Mark.loaded fits.symm
  | _ => exact fits.elim

/-- If nothing is being written, so many rounds are enough to drop all that is pending. -/
theorem alone_discardPending (rounds : Nat) (w : SlotQueue.World (events limit))
    (remaining : List (Fin (events limit).depth)) (enough : remaining.length ≤ rounds)
    (unwritten : ∀ slot, (w.slots slot).state ≠ .writing)
    (known : ∀ slot, (w.slots slot).state = .ready → slot ∈ remaining) (slot : Fin (events limit).depth) :
    ((SlotQueue.alone (discardPending rounds) w).2.slots slot).state ≠ .ready ∧
      ((SlotQueue.alone (discardPending rounds) w).2.slots slot).state ≠ .writing := by
  induction rounds generalizing w remaining with
  | zero =>
    have empty : remaining = [] := length_eq_zero_iff.mp (Nat.le_zero.mp enough)
    refine ⟨fun ready => ?_, unwritten slot⟩
    have member := known slot ready
    rw [empty] at member
    exact not_mem_nil member
  | succ rounds ih =>
    unfold discardPending
    rw [show ∀ k, SlotQueue.alone (SlotQueue.takeOldest >>= k) w = _ from
      fun k => SlotQueue.alone_bind _ k w]
    rcases SlotQueue.alone_take unwritten with ⟨none, found⟩ | ⟨first, ready, found⟩
    · rw [found]
      exact ⟨none slot, unwritten slot⟩
    rw [found]
    have states (other : Fin (events limit).depth) :
        (((w.setState first .reading).setState first .free).slots other).state =
          if other = first then .free else (w.slots other).state := by
      rw [SlotQueue.setState_slots, SlotQueue.setState_slots]
      by_cases same : other = first <;> simp [same]
    have member := known first ready
    have shorter := length_erase_of_mem member
    apply ih ((w.setState first .reading).setState first .free) (remaining.erase first)
    · omega
    · grind
    · grind

/-- Every event is fed during its scan and every scan is ended by a callback of its own, if scans do
not overlap. What is pending when a scan is cancelled is dropped unless a callback is writing. -/
theorem scan_events_stay_in_their_scan (limit : IeLimit) :
    (∀ (labels : List (PoolLabel (ops limit))) (pool after : Pool (ops limit) (World limit)) (i : Nat),
      Run ((scanSystem limit).keeping Orderly) (.new (.new limit)) labels pool →
      (∀ entry status, (scanSystem limit).step pool (.act i ⟨.inr (.feed entry), status⟩) after →
        entry.1 = pool.world.begun) ∧
      ((scanSystem limit).step pool (.act i ⟨.inr .swapActive, true⟩) after →
        ⟨.inr (.enterCallback pool.world.begun), ()⟩ ∈ acts i labels)) ∧
    ∀ (w : SlotQueue.World (events limit)) (rounds : Nat), (events limit).depth ≤ rounds →
      (∀ slot, (w.slots slot).state ≠ .writing) →
      ∀ slot, ((SlotQueue.alone (discardPending rounds) w).2.slots slot).state ≠ .ready ∧
        ((SlotQueue.alone (discardPending rounds) w).2.slots slot).state ≠ .writing := by
  constructor
  · intro labels pool after i run
    have current := current_of_run run
    have reached := run.unruled
    constructor
    · intro entry status step
      cases step with
      | act waiting =>
        have loaded := loaded_of_feed (allowed_of_act reached waiting).2
        exact current.loaded i entry loaded
    · intro step
      cases step with
      | act waiting =>
        obtain ⟨scan, inside⟩ := callback_of_swap (allowed_of_act reached waiting).2
        have same := current.callbacks i scan inside
        exact same ▸ entered_of_mark inside
  · intro w rounds enough unwritten slot
    have all : (finRange (events limit).depth).length ≤ rounds := by
      rwa [length_finRange]
    exact alone_discardPending rounds w _ all unwritten (fun other _ => mem_finRange other) slot

/-! ## Jobs with good answers -/

/-- Native calls succeed. -/
def answer (w : World limit) : (o : (ops limit).Op) → (ops limit).Reply o × World limit
  | .inl o => ((o.answer w.queue).1, { w with queue := (o.answer w.queue).2 })
  | .inr .requireDisconnectReturned | .inr .loadPort => (true, w)
  | .inr .capture =>
    (!w.active, if w.active then w else { w with active := true, begun := w.begun + 1 })
  | .inr .loadActive => (w.active, w)
  | .inr .swapActive | .inr .claimTimeout => (w.active, { w with active := false })
  | .inr .storeInactive => ((), { w with active := false })
  | .inr .beginScanCapture | .inr .scanIoctl | .inr (.feed _) => (0, w)
  | .inr (.enterCallback _) | .inr .leaveCallback => ((), w)

/-- A callback belongs to a scan that was started. -/
def begun (w : World limit) : (ops limit).Op → Bool
  | .inr (.enterCallback scan) => 0 < scan ∧ scan ≤ w.begun
  | _ => true

theorem atom_answer (w : World limit) (o : (ops limit).Op) (fits : begun w o = true) :
    Atom w o (answer w o).1 (answer w o).2 := by
  cases o with
  | inl => exact ⟨_, rfl, rfl⟩
  | inr o =>
    cases o with
    | capture | loadActive | swapActive | claimTimeout => exact ⟨rfl, rfl⟩
    | enterCallback =>
      obtain ⟨positive, reached⟩ := of_decide_eq_true fits
      exact ⟨positive, reached, rfl⟩
    | _ => rfl

theorem complies_begun :
    Complies Atom (@answer limit) (fun _ _ => True) (fun _ => True) (fun _ => begun) False :=
  ⟨fun _ _ => trivial, fun _ _ w o _ _ fits => ⟨atom_answer w o fits, trivial, trivial⟩⟩

def orderly (w : World limit) : (ops limit).Op → Bool
  | .inr .capture =>
    decide (∀ slot, (w.queue.slots slot).state ≠ .ready ∧ (w.queue.slots slot).state ≠ .writing)
  | .inr (.enterCallback scan) => 0 < scan ∧ scan = w.begun
  | _ => true

theorem complies_orderly :
    Complies Atom (@answer limit) Orderly (fun _ => True) (fun _ => orderly) True := by
  refine ⟨fun _ _ => trivial, fun i threads w o beside _ fits => ?_⟩
  cases o with
  | inl => exact ⟨atom_answer w _ rfl, trivial, trivial⟩
  | inr o =>
    cases o with
    | capture =>
      have drained := of_decide_eq_true fits
      refine ⟨atom_answer w _ rfl, ?_, trivial⟩
      cases (answer w (.inr .capture)).1 with
      | true => exact ⟨beside trivial, drained⟩
      | false => trivial
    | enterCallback =>
      obtain ⟨positive, rfl⟩ := of_decide_eq_true fits
      exact ⟨⟨positive, Nat.le_refl _, rfl⟩, rfl, trivial⟩
    | _ => exact ⟨atom_answer w _ rfl, trivial, trivial⟩

def noIes : IeLimit := ⟨0, by decide⟩

def tasksOf (limit : IeLimit) (jobs : List (Nat × Job)) : List (Nat × Task limit Unit) :=
  jobs.map fun job => (job.1, job.2.task)

theorem tasks_given (jobs : List (Nat × Job)) (own : ∀ job ∈ jobs, job.2.isCallback = true ↔ job.1 ≠ 0)
    (task : Nat × Task limit Unit) (member : task ∈ tasksOf limit jobs) : scanTasks task.1 task.2 := by
  obtain ⟨⟨i, job⟩, inside, rfl⟩ := mem_map.mp member
  exact ⟨job, rfl, own _ inside⟩

set_option maxRecDepth 4000 in
/-- The end of the first scan is fed during that scan, and an entry that is ready is dropped. -/
theorem done_fed_in_first_scan :
    (∃ (labels : List (PoolLabel (ops noIes))) (pool after : Pool (ops noIes) (World noIes)),
      Run ((scanSystem noIes).keeping Orderly) (.new (.new noIes)) labels pool ∧
      (scanSystem noIes).step pool (.act 0 ⟨.inr (.feed (1, .done 0)), (0 : Int32)⟩) after ∧
      1 = pool.world.begun) ∧
    ∃ w : SlotQueue.World (events noIes), (w.slots ⟨0, by decide⟩).state = .ready ∧
      ∀ slot, ((SlotQueue.alone (discardPending 33) w).2.slots slot).state ≠ .ready ∧
        ((SlotQueue.alone (discardPending 33) w).2.slots slot).state ≠ .writing := by
  have ended : Run ((scanSystem noIes).keeping Orderly) (.new (.new noIes)) _ _ ∧ _ :=
    serve_keeping complies_orderly 100 (tasksOf noIes [(0, .begin), (1, .done 1 0)])
      (tasks_given _ (by decide)) (.new noIes) trivial rfl
  have looked := ended.1.trans (job_keeping complies_orderly 69 (i := 0) ⟨.poll [[]], rfl, by decide⟩ rfl
    (fun _ _ _ => rfl) trivial rfl).1
  constructor
  · refine ⟨_, _, _, looked, .act rfl rfl, ?_⟩
    exact ((scan_events_stay_in_their_scan noIes).1 _ _ _ 0 looked).1 (1, .done 0)
      (0 : Int32) (.act rfl rfl)
  · refine ⟨(SlotQueue.World.new _).setState ⟨0, by decide⟩ .ready, rfl,
      (scan_events_stay_in_their_scan noIes).2 _ 33 (Nat.le_refl 33) fun slot => ?_⟩
    rw [SlotQueue.setState_slots]
    dsimp only
    split <;> exact nofun

set_option maxRecDepth 4000 in
/-- The first scan is cancelled and the second one started. If the first scan ends after all, its
callback ends the second scan, and what it queues is fed to the supplicant as the end of the second.
If a callback of the first scan is writing when the scan is cancelled, the result that it writes is
fed as one of the second. -/
theorem events_of_cancelled_scan_reach_next_scan : (∃ (early later : List (PoolLabel (ops noIes)))
        (pool ended polled fed : Pool (ops noIes) (World noIes)),
      Run (scanSystem noIes) (.new (.new noIes)) early pool ∧
      ⟨.inr (.enterCallback 1), ()⟩ ∈ acts 1 early ∧ pool.world.begun = 2 ∧
      (scanSystem noIes).step pool (.act 1 ⟨.inr .swapActive, true⟩) ended ∧
      Run (scanSystem noIes) ended later polled ∧ polled.world.begun = 2 ∧
      (scanSystem noIes).step polled (.act 0 ⟨.inr (.feed (1, .done 0)), (0 : Int32)⟩) fed) ∧
    ∃ (early later : List (PoolLabel (ops noIes))) (pool polled fed : Pool (ops noIes) (World noIes)),
      Run (scanSystem noIes) (.new (.new noIes)) early pool ∧
      (pool.world.queue.slots (0 : Fin 33)).state = .writing ∧ pool.world.begun = 2 ∧
      Run (scanSystem noIes) pool later polled ∧ polled.world.begun = 2 ∧
      (scanSystem noIes).step polled
        (.act 0 ⟨.inr (.feed (1, .result { ScanMeta.zero with kind := 1 } [])), (0 : Int32)⟩) fed := by
  have work (n i : Nat) (job : Job) (own : job.isCallback = true ↔ i ≠ 0) {w : World noIes}
      {threads : Nat → Task noIes Unit} (idle : threads i = .done ())
      (fits : passes answer begun n (job.task : Task noIes Unit) w = true) :
      Run (scanSystem noIes) ⟨w, threads⟩ _ _ :=
    (job_keeping complies_begun n ⟨job, rfl, own⟩ idle False.elim trivial fits).1.unruled
  have goOn (n i : Nat) (p : Task noIes Unit) (w : World noIes) {threads : Nat → Task noIes Unit}
      (here : threads i = p) (fits : passes answer begun n p w = true) :
      Run (scanSystem noIes) ⟨w, threads⟩ _ _ :=
    (run_keeping complies_begun n i p w here False.elim trivial fits).1.unruled
  have first : Run (scanSystem noIes) (.new (.new noIes)) _ _ := work 100 0 .begin (by decide) rfl rfl
  constructor
  · have cancelled := first.trans (work 100 0 (.cancel 1) (by decide) rfl rfl)
    have second := cancelled.trans (work 100 0 .begin (by decide) rfl rfl)
    have late := second.trans (work 2 1 (.done 1 0) (by decide) rfl rfl)
    refine ⟨_, _, _, _, _, _, late, ?_, rfl, .act rfl ⟨rfl, rfl⟩,
      (goOn 100 1 _ _ rfl rfl).trans (work 69 0 (.poll [[]]) (by decide) rfl rfl), rfl, .act rfl rfl⟩
    exact mem_of_getElem? (i := 0) rfl
  -- The callback has a slot and no more when the runner cancels the scan.
  have writing := first.trans
    (work 6 1 (.result 1 { ScanMeta.zero with kind := 1 } []) (by decide) rfl rfl)
  have cancelled := writing.trans (work 100 0 (.cancel 1) (by decide) rfl rfl)
  have second := cancelled.trans (work 100 0 .begin (by decide) rfl rfl)
  exact ⟨_, _, _, _, _, second, rfl, rfl,
    (goOn 100 1 _ _ rfl rfl).trans (work 69 0 (.poll [[]]) (by decide) rfl rfl), rfl, .act rfl rfl⟩

end Scans

end HisiRf.ScanFeed
