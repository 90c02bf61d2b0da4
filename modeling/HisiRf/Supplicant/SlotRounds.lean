import HisiRf.Supplicant.SlotQueue

/-! The rounds of a slot.

A slot is claimed by one producer, published by the same, taken by the runner and
freed by it, over and over again and in no other order. Between its claim and its
publication only its producer writes to it, and from then on nobody does until it
is free again.
-/

namespace HisiRf.SlotQueue

open Interaction Function

variable {L : Layout}

inductive Phase (L : Layout) where
  | idle
  | numbered (number : Nat)
  | filling (entry : L.Entry) (number : Nat) (slot : Fin L.depth)
      (remaining : List (L.Content → L.Content))
  | filled (entry : L.Entry) (number : Nat) (slot : Fin L.depth)
  | reading (slot : Fin L.depth)

/-- What a thread may do that has neither a number nor a slot. -/
def Op.free : Op L → Prop
  | .claim _ _ | .store _ _ | .storeSequence _ _ | .publish _ | .load _ | .release _ => False
  | _ => True

def Phase.allows : Phase L → Op L → Prop
  | .idle, o => o.free
  | .numbered _, o => o = .countDropped ∨ ∃ slot entry, o = .claim slot entry ∧ L.accepts entry = true
  | .filling _ _ slot (write :: _), o => o = .store slot write
  | .filling _ number slot [], o => o = .storeSequence slot number
  | .filled _ _ slot, o => o = .publish slot
  | .reading slot, o => o = .load slot ∨ o = .release slot ∨ o = .beginTransaction

def Phase.after : Phase L → Exchange (ops L) → Phase L
  | .idle, ⟨.nextSequence, number⟩ => .numbered number
  | .idle, ⟨.seize slot, true⟩ => .reading slot
  | .numbered _, ⟨.countDropped, _⟩ => .idle
  | .numbered number, ⟨.claim slot entry, true⟩ => .filling entry number slot (L.stores entry)
  | .filling entry number slot remaining, ⟨.store _ _, _⟩ => .filling entry number slot remaining.tail
  | .filling entry number slot _, ⟨.storeSequence _ _, _⟩ => .filled entry number slot
  | .filled _ _ _, ⟨.publish _, _⟩ => .idle
  | .reading _, ⟨.release _, _⟩ => .idle
  | phase, _ => phase

def watch : Protocol (ops L) (Phase L) := ⟨Phase.allows, Phase.after⟩

variable {A : Type}

/-- A routine that starts and ends with neither a number nor a slot. -/
def Clean (p : Task L A) : Prop := p.Obeys watch (fun _ phase => phase = .idle) .idle

theorem Clean.bind {B : Type} {p : Task L A} {k : A → Task L B} (first : Clean p)
    (rest : ∀ a, Clean (k a)) : Clean (p.bind k) := first.on rest

theorem fill_watched (entry : L.Entry) (number : Nat) (slot : Fin L.depth)
    (remaining : List (L.Content → L.Content)) :
    (fill slot remaining).Obeys watch (fun _ phase => phase = .filling entry number slot [])
      (.filling entry number slot remaining) := by
  induction remaining with
  | nil => rfl
  | cons write rest ih => exact obeys_atom.mpr ⟨rfl, fun _ => ih⟩

theorem trySlots_watched {entry : L.Entry} (accepted : L.accepts entry = true) (number : Nat)
    (slots : List (Fin L.depth)) :
    (trySlots entry number slots).Obeys watch (fun _ phase => phase = .idle) (.numbered number) := by
  induction slots with
  | nil => exact obeys_atom.mpr ⟨.inl rfl, fun _ => rfl⟩
  | cons slot rest ih =>
    refine obeys_atom.mpr ⟨.inr ⟨slot, entry, rfl, accepted⟩, fun claimed => ?_⟩
    cases claimed with
    | false => exact ih
    | true =>
      refine (fill_watched entry number slot _).on fun _ => ?_
      exact obeys_atom.mpr ⟨rfl, fun _ => obeys_atom.mpr ⟨rfl, fun _ => rfl⟩⟩

theorem enqueue_clean (entry : L.Entry) : Clean (enqueue entry) := by
  unfold enqueue
  split
  next accepted =>
    have admits : Clean (admission entry) := by
      unfold admission
      split
      · exact ⟨trivial, fun _ => rfl⟩
      · rfl
    refine admits.bind fun admitted => ?_
    cases admitted with
    | false => exact ⟨trivial, fun _ => rfl⟩
    | true => exact obeys_atom.mpr ⟨trivial, fun number => trySlots_watched accepted number _⟩
  · exact ⟨trivial, fun _ => rfl⟩

theorem read_clean (reads : Nat) (slot : Fin L.depth) :
    (read slot reads).Obeys watch (fun _ phase => phase = .idle) (.reading slot) := by
  induction reads with
  | zero => exact ⟨.inr (.inl rfl), fun _ => rfl⟩
  | succ reads ih => exact obeys_atom.mpr ⟨.inl rfl, fun _ => ih⟩

theorem takeOldest_watched : (takeOldest : Task L _).Obeys watch
    (fun taken phase => phase = afterTake watch .idle taken) .idle := by
  refine takeOldest_obeys ?_ ?_ (fun _ => trivial) (fun _ => rfl)
  · intro o looks
    cases o with
    | loadState | loadSequence => trivial
    | _ => exact looks.elim
  · intro o reply looks
    cases o with
    | loadState | loadSequence => rfl
    | _ => exact looks.elim

theorem job_clean (job : Job L) : Clean job.task := by
  cases job with
  | enqueue entry =>
    refine obeys_atom.mpr ⟨trivial, fun _ => ?_⟩
    exact (enqueue_clean entry).bind fun outcome => ⟨trivial, fun _ => rfl⟩
  | consume reads =>
    refine takeOldest_watched.on fun taken => ?_
    cases taken with
    | none => rfl
    | some slot => exact read_clean reads slot
  | beginTransaction => exact ⟨trivial, fun _ => rfl⟩

def place (labels : List (PoolLabel (ops L))) : Nat → Phase L := phaseOf watch (fun _ => .idle) labels

theorem crew_of_queue {labels : List (PoolLabel (ops L))} {pool : Pool (ops L) (World L)}
    (run : Run (queueSystem L) (.new (.new L)) labels pool) :
    Run (crewSystem Atom watch) ⟨.new L, fun _ => .idle⟩ labels ⟨pool.world, place labels⟩ ∧
      ∀ i, (pool.threads i).Obeys watch (fun _ phase => phase = .idle) (place labels i) := by
  refine crew_of_run ?_ run
  rintro i _ ⟨job, rfl, _⟩
  exact job_clean job

variable {cell : Slot L}

section Stages

inductive Touch (L : Layout) where
  | claimed (thread : Nat) (entry : L.Entry)
  | published (thread : Nat)
  | taken (thread : Nat)
  | freed (thread : Nat)

def touches (slot : Fin L.depth) : PoolLabel (ops L) → Option (Touch L)
  | .act i ⟨.claim other entry, true⟩ => if other = slot then some (.claimed i entry) else none
  | .act i ⟨.publish other, _⟩ => if other = slot then some (.published i) else none
  | .act i ⟨.seize other, true⟩ => if other = slot then some (.taken i) else none
  | .act i ⟨.release other, _⟩ => if other = slot then some (.freed i) else none
  | _ => none

/-- How far a slot is in its round, and whose entry it holds. -/
inductive Stage (L : Layout) where
  | free
  | claimed (thread : Nat) (entry : L.Entry)
  | published (entry : L.Entry)
  | taken (thread : Nat) (entry : L.Entry)

def Stage.next : Stage L → Touch L → Option (Stage L)
  | .free, .claimed i entry => some (.claimed i entry)
  | .claimed i entry, .published j => if i = j then some (.published entry) else none
  | .published entry, .taken i => some (.taken i entry)
  | .taken i _, .freed j => if i = j then some .free else none
  | _, _ => none

def history (slot : Fin L.depth) (labels : List (PoolLabel (ops L))) : List (Touch L) :=
  labels.filterMap (touches slot)

/-- The stage after a history; there is none if the history leaves the order of the rounds. -/
def stageOf (slot : Fin L.depth) (labels : List (PoolLabel (ops L))) : Option (Stage L) :=
  (history slot labels).foldlM Stage.next .free

def Stage.owner : Stage L → Option Nat
  | .free | .published _ => none
  | .claimed i _ | .taken i _ => some i

def Stage.Shows (slot : Slot L) : Stage L → Prop
  | .free => slot.state = .free
  | .claimed _ _ => slot.state = .writing
  | .published entry => slot.state = .ready ∧ L.view slot.content = entry
  | .taken _ entry => slot.state = .reading ∧ L.view slot.content = entry

variable {labels : List (PoolLabel (ops L))} {label : PoolLabel (ops L)} {slot : Fin L.depth}
  {w w' : World L} {phases : Nat → Phase L} {i : Nat} {o : Op L} {reply : o.Reply}
  {stage : Stage L}

theorem stageOf_snoc (slot : Fin L.depth) (labels : List (PoolLabel (ops L)))
    (label : PoolLabel (ops L)) : stageOf slot (labels ++ [label]) = match touches slot label with
      | none => stageOf slot labels
      | some touch => (stageOf slot labels).bind fun stage => stage.next touch := by
  unfold stageOf history
  rw [filterMap_concat, List.foldlM_append]
  cases touches slot label with
  | none =>
    exact bind_pure _
  | some =>
    simp only [Option.toList_some, List.foldlM_cons, List.foldlM_nil, bind_pure]
    rfl

/-- What the phase of a thread says about the slot it has. -/
def Claims (labels : List (PoolLabel (ops L))) (w : World L) (i : Nat) : Phase L → Prop
  | .filling entry _ slot remaining => stageOf slot labels = some (.claimed i entry) ∧
      L.view (Storage.storeAll remaining (w.slots slot).content) = entry
  | .filled entry number slot => stageOf slot labels = some (.claimed i entry) ∧
      L.view (w.slots slot).content = entry ∧ (w.slots slot).number = number
  | .reading slot => ∃ entry, stageOf slot labels = some (.taken i entry)
  | .idle | .numbered _ => True

def Phase.holds : Phase L → Option (Fin L.depth)
  | .filling _ _ slot _ | .filled _ _ slot | .reading slot => some slot
  | .idle | .numbered _ => none

variable {phase next : Phase L}

theorem Claims.owner (claims : Claims labels w i phase) (held : phase.holds = some slot) :
    ∃ stage, stageOf slot labels = some stage ∧ stage.owner = some i := by
  cases phase with
  | filling | filled =>
    cases held
    exact ⟨_, claims.1, rfl⟩
  | reading =>
    cases held
    obtain ⟨entry, taken⟩ := claims
    exact ⟨_, taken, rfl⟩
  | idle | numbered => cases held

/-- What a thread says of its own slot is not touched by what happens to the others. -/
theorem Claims.frame {later : List (PoolLabel (ops L))} (claims : Claims labels w i phase)
    (same : ∀ slot, phase.holds = some slot → stageOf slot later = stageOf slot labels ∧
      w'.slots slot = w.slots slot) :
    Claims later w' i phase := by
  cases phase with
  | filling entry number slot | filled entry number slot =>
    obtain ⟨stage, cells⟩ := same slot rfl
    exact ⟨stage.trans claims.1, by rw [cells]; exact claims.2⟩
  | reading slot =>
    obtain ⟨stage, _⟩ := same slot rfl
    obtain ⟨entry, taken⟩ := claims
    exact ⟨entry, stage.trans taken⟩
  | idle | numbered => trivial

/-- Every slot is at a stage of its round and looks like it, and every thread knows its slot. -/
structure Sound (labels : List (PoolLabel (ops L))) (w : World L) (phases : Nat → Phase L) : Prop where
  slots : ∀ slot, ∃ stage, stageOf slot labels = some stage ∧ stage.Shows (w.slots slot)
  threads : ∀ i, Claims labels w i (phases i)

theorem Sound.new : Sound [] (.new L) fun _ => .idle :=
  ⟨fun _ => ⟨.free, rfl, rfl⟩, fun _ => trivial⟩

variable (sound : Sound labels w phases)
include sound

theorem Sound.keep (untouched : ∀ slot, touches slot label = none)
    (cells : w'.slots = w.slots) (claims : Claims labels w i next) :
    Sound (labels ++ [label]) w' (update phases i next) := by
  have same (slot : Fin L.depth) : stageOf slot (labels ++ [label]) = stageOf slot labels := by
    rw [stageOf_snoc, untouched]
  refine ⟨?_, ?_⟩
  · intro slot
    rw [same, cells]
    exact sound.slots slot
  · intro j
    by_cases here : j = i
    · subst here
      rw [update_self]
      exact claims.frame fun slot _ => ⟨same slot, by rw [cells]⟩
    · rw [update_of_ne here]
      exact (sound.threads j).frame fun slot _ => ⟨same slot, by rw [cells]⟩

theorem Sound.touch {later : Stage L} (current : stageOf slot labels = some stage)
    (mine : ∀ j, stage.owner = some j → j = i)
    (elsewhere : ∀ other, other ≠ slot → touches other label = none)
    (moves : stageOf slot (labels ++ [label]) = some later) (shows : later.Shows cell)
    (claims : Claims (labels ++ [label]) (w.setSlot slot cell) i next) :
    Sound (labels ++ [label]) (w.setSlot slot cell) (update phases i next) := by
  have same (other : Fin L.depth) (apart : other ≠ slot) :
      stageOf other (labels ++ [label]) = stageOf other labels ∧
        (w.setSlot slot cell).slots other = w.slots other := by
    rw [stageOf_snoc, elsewhere other apart]
    exact ⟨rfl, update_of_ne apart _ _⟩
  refine ⟨?_, ?_⟩
  · intro other
    by_cases apart : other = slot
    · subst apart
      refine ⟨later, moves, ?_⟩
      simpa only [World.setSlot, update_self] using shows
    · obtain ⟨stage, cells⟩ := same other apart
      rw [stage, cells]
      exact sound.slots other
  intro j
  by_cases here : j = i
  · grind
  · rw [update_of_ne here]
    refine (sound.threads j).frame fun other held => same other ?_
    rintro rfl
    obtain ⟨_, known, owner⟩ := (sound.threads j).owner held
    cases current.symm.trans known
    exact here (mine j owner)

theorem Sound.move {later : Stage L} {touch : Touch L}
    (current : stageOf slot labels = some stage) (mine : ∀ j, stage.owner = some j → j = i)
    (touched : ∀ other, touches other label = if slot = other then some touch else none)
    (moves : stage.next touch = some later) (shows : later.Shows cell)
    (claims : stageOf slot (labels ++ [label]) = some later → Claims (labels ++ [label])
      (w.setSlot slot cell) i next) :
    Sound (labels ++ [label]) (w.setSlot slot cell) (update phases i next) := by
  have moved : stageOf slot (labels ++ [label]) = some later := by
    rw [stageOf_snoc, touched, if_pos rfl, current]
    exact moves
  refine sound.touch current mine ?_ moved shows (claims moved)
  intro other apart
  rw [touched, if_neg (Ne.symm apart)]

end Stages

variable {labels : List (PoolLabel (ops L))} {slot : Fin L.depth} {w w' : World L}
  {phases : Nat → Phase L} {i : Nat} {o : Op L} {reply : o.Reply}

section

variable (sound : Sound labels w phases)
include sound

theorem Sound.stage (slot : Fin L.depth) :
    ((w.slots slot).state = .free → stageOf slot labels = some .free) ∧
      ((w.slots slot).state = .ready → stageOf slot labels =
        some (.published (L.view (w.slots slot).content))) := by
  obtain ⟨stage, known, shows⟩ := sound.slots slot
  rw [known]
  cases stage with
  | free =>
    have state : (w.slots slot).state = .free := shows
    simp [state]
  | claimed =>
    have state : (w.slots slot).state = .writing := shows
    simp [state]
  | published =>
    obtain ⟨state, view⟩ := shows
    simp [state, view]
  | taken =>
    obtain ⟨state, _⟩ := shows
    simp [state]

theorem Sound.seize (ready : (w.slots slot).state = .ready) :
    Sound (labels ++ [.act i ⟨.seize slot, true⟩]) (w.setState slot .reading)
      (update phases i (.reading slot)) := by
  have current := (sound.stage slot).2 ready
  exact sound.move current nofun (fun _ => rfl) rfl ⟨rfl, rfl⟩ fun moved => ⟨_, moved⟩

variable {number : Nat} {entry : L.Entry}

theorem Sound.claim (free : (w.slots slot).state = .free)
    (accepted : L.accepts entry = true) :
    Sound (labels ++ [.act i ⟨.claim slot entry, true⟩]) (w.setState slot .writing)
      (update phases i (.filling entry number slot (L.stores entry))) := by
  have current := (sound.stage slot).1 free
  exact sound.move current nofun (fun _ => rfl) rfl rfl fun moved => ⟨moved, L.law entry _ accepted⟩

theorem Sound.write {next : Phase L} {label : PoolLabel (ops L)}
    (current : stageOf slot labels = some (.claimed i entry))
    (untouched : ∀ other, touches other label = none) (state : cell.state = .writing)
    (claims : stageOf slot (labels ++ [label]) = some (.claimed i entry) → Claims (labels ++
      [label]) (w.setSlot slot cell) i next) :
    Sound (labels ++ [label]) (w.setSlot slot cell) (update phases i next) := by
  have stays : stageOf slot (labels ++ [label]) = some (.claimed i entry) := by
    rw [stageOf_snoc, untouched, current]
  refine sound.touch current ?_ (fun other _ => untouched other) stays state (claims stays)
  intro j owner
  exact (Option.some.inj owner).symm

theorem Sound.publish
    (filled : phases i = .filled entry number slot) :
    Sound (labels ++ [.act i ⟨.publish slot, ()⟩]) (w.setState slot .ready)
      (update phases i .idle) := by
  have claims := sound.threads i
  rw [filled] at claims
  obtain ⟨current, view, _⟩ := claims
  refine sound.move current ?_ (fun _ => rfl) (if_pos rfl) ⟨rfl, view⟩ fun _ => trivial
  intro j owner
  exact (Option.some.inj owner).symm

theorem Sound.release (reading : phases i = .reading slot) :
    Sound (labels ++ [.act i ⟨.release slot, ()⟩]) (w.setState slot .free)
      (update phases i .idle) := by
  have claims := sound.threads i
  rw [reading] at claims
  obtain ⟨entry, current⟩ := claims
  refine sound.move current ?_ (fun _ => rfl) (if_pos rfl) rfl fun _ => trivial
  intro j owner
  exact (Option.some.inj owner).symm

theorem Sound.writing {stageEntry : L.Entry}
    (current : stageOf slot labels = some (.claimed i stageEntry)) :
    (w.slots slot).state = .writing := by
  obtain ⟨stage, known, shows⟩ := sound.slots slot
  cases current.symm.trans known
  exact shows

theorem Sound.idle (free : o.free) (taken : Atom w o reply w') :
    Sound (labels ++ [.act i ⟨o, reply⟩]) w' (update phases i (watch.after .idle ⟨o, reply⟩)) := by
  cases o with
  | seize =>
    rcases seize_cases taken with ⟨ready, rfl, rfl⟩ | ⟨_, rfl, rfl⟩
    · exact sound.seize ready
    · exact sound.keep (fun _ => rfl) rfl trivial
  | admitResult => exact sound.keep (fun _ => rfl) (slots_of_admission taken) trivial
  | claim | store | storeSequence | publish | load | release => exact free.elim
  | _ =>
    obtain ⟨_, rfl⟩ := Prod.mk.inj taken
    exact sound.keep (fun _ => rfl) rfl trivial

theorem Sound.step (allowed : watch.allows (phases i) o) (taken : Atom w o reply w') :
    Sound (labels ++ [.act i ⟨o, reply⟩]) w'
      (update phases i (watch.after (phases i) ⟨o, reply⟩)) := by
  cases phase : phases i with
  | idle =>
    rw [phase] at allowed
    exact sound.idle allowed taken
  | numbered =>
    rw [phase] at allowed
    rcases allowed with rfl | ⟨slot, entry, rfl, accepted⟩
    · cases taken
      exact sound.keep (fun _ => rfl) rfl trivial
    · rcases claim_cases taken with ⟨free, rfl, rfl⟩ | ⟨_, rfl, rfl⟩
      · exact sound.claim free accepted
      · exact sound.keep (fun _ => rfl) rfl trivial
  | filling entry number slot remaining =>
    rw [phase] at allowed
    have claims := sound.threads i
    rw [phase] at claims
    obtain ⟨current, view⟩ := claims
    have writing := sound.writing current
    cases remaining with
    | nil =>
      obtain rfl : o = .storeSequence slot number := allowed
      cases taken
      refine sound.write current (fun _ => rfl) writing fun stays => ⟨stays, ?_⟩
      simpa [World.setSlot, Storage.storeAll] using view
    | cons write =>
      obtain rfl : o = .store slot write := allowed
      cases taken
      refine sound.write current (fun _ => rfl) writing fun stays => ⟨stays, ?_⟩
      simpa [World.setSlot, Storage.storeAll] using view
  | filled entry number slot =>
    rw [phase] at allowed
    obtain rfl : o = .publish slot := allowed
    cases taken
    exact sound.publish phase
  | reading =>
    rw [phase] at allowed
    have claims := sound.threads i
    rw [phase] at claims
    rcases allowed with rfl | rfl | rfl
    · cases taken
      exact sound.keep (fun _ => rfl) rfl claims
    · cases taken
      exact sound.release phase
    · cases taken
      exact sound.keep (fun _ => rfl) rfl claims

theorem Sound.start (i : Nat) : Sound (labels ++ [.start i]) w phases := by
  have kept : Sound (labels ++ [.start i]) w (update phases i (phases i)) :=
    sound.keep (fun _ => rfl) rfl (sound.threads i)
  rwa [update_eq_self] at kept

end

/-- The rounds hold along every run of threads that keep to the protocol. -/
theorem sound_of_crew {crew : Crew (World L) (Phase L)}
    (run : Run (crewSystem Atom watch) ⟨.new L, fun _ => .idle⟩ labels crew) :
    Sound labels crew.world crew.phases := by
  induction run with
  | start => exact .new
  | next _ step ih =>
    cases step with
    | start i => exact ih.start i
    | act allowed taken => exact ih.step allowed taken

variable {other : Fin L.depth} {phase : Phase L}

inductive SlotMove (slot : Fin L.depth) (phase : Phase L) (cell : Slot L) :
    Exchange (ops L) → Slot L → Prop where
  | stays (exchange : Exchange (ops L)) : SlotMove slot phase cell exchange cell
  | claimed (entry : L.Entry) : cell.state = .free →
      SlotMove slot phase cell ⟨.claim slot entry, true⟩ { cell with state := .writing }
  | written {exchange : Exchange (ops L)} {next : Slot L} : cell.state = .writing →
      next.state = .writing → SlotMove slot phase cell exchange next
  | published (entry : L.Entry) : phase = .filled entry cell.number slot →
      cell.state = .writing →
      SlotMove slot phase cell ⟨.publish slot, ()⟩ { cell with state := .ready }
  | taken : cell.state = .ready →
      SlotMove slot phase cell ⟨.seize slot, true⟩ { cell with state := .reading }
  | freed : cell.state = .reading →
      SlotMove slot phase cell ⟨.release slot, ()⟩ { cell with state := .free }

variable {exchange : Exchange (ops L)}

theorem SlotMove.set {next : Slot L} (here : SlotMove other phase (w.slots other) exchange next)
    (slot : Fin L.depth) :
    SlotMove slot phase (w.slots slot) exchange ((w.setSlot other next).slots slot) := by
  by_cases same : slot = other
  · subst same
    simpa only [World.setSlot, update_self] using here
  · simpa only [World.setSlot, update_of_ne same] using .stays exchange

theorem SlotMove.keep (cells : w'.slots = w.slots) (slot : Fin L.depth) :
    SlotMove slot phase (w.slots slot) exchange (w'.slots slot) := by
  rw [cells]
  exact .stays exchange

theorem Sound.moves (sound : Sound labels w phases) (allowed : watch.allows (phases i) o)
    (taken : Atom w o reply w') (slot : Fin L.depth) :
    SlotMove slot (phases i) (w.slots slot) ⟨o, reply⟩ (w'.slots slot) := by
  have claims := sound.threads i
  cases phase : phases i with
  | idle =>
    rw [phase] at allowed
    cases o with
    | seize =>
      rcases seize_cases taken with ⟨ready, rfl, rfl⟩ | ⟨_, rfl, rfl⟩
      · exact SlotMove.set (.taken ready) slot
      · exact .stays _
    | admitResult => exact .keep (slots_of_admission taken) slot
    | claim | store | storeSequence | publish | load | release => exact allowed.elim
    | _ =>
      obtain ⟨_, rfl⟩ := Prod.mk.inj taken
      exact .stays _
  | numbered =>
    rw [phase] at allowed
    rcases allowed with rfl | ⟨other, entry, rfl, _⟩
    · cases taken
      exact .stays _
    · rcases claim_cases taken with ⟨free, rfl, rfl⟩ | ⟨_, rfl, rfl⟩
      · exact SlotMove.set (.claimed entry free) slot
      · exact .stays _
  | filling entry number other remaining =>
    rw [phase] at allowed claims
    have writing := sound.writing claims.1
    cases remaining with
    | nil =>
      obtain rfl : o = .storeSequence other number := allowed
      cases taken
      refine SlotMove.set ?_ slot
      exact .written writing writing
    | cons write =>
      obtain rfl : o = .store other write := allowed
      cases taken
      refine SlotMove.set ?_ slot
      exact .written writing writing
  | filled entry number other =>
    rw [phase] at allowed claims
    obtain rfl : o = .publish other := allowed
    cases taken
    have writing := sound.writing claims.1
    obtain ⟨_, _, rfl⟩ := claims
    exact SlotMove.set (.published entry rfl writing) slot
  | reading other =>
    rw [phase] at allowed claims
    rcases allowed with rfl | rfl | rfl
    · cases taken
      exact .stays _
    · cases taken
      obtain ⟨entry, current⟩ := claims
      obtain ⟨stage, known, shows⟩ := sound.slots other
      cases current.symm.trans known
      exact SlotMove.set (.freed shows.1) slot
    · cases taken
      exact .stays _

end HisiRf.SlotQueue
