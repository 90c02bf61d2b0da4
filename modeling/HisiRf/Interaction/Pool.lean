import HisiRf.Interaction.Program
import HisiRf.Interaction.Transition

/-! Any number of threads that run programs over the atomic actions of one world.

A thread that has nothing to do may take up a program from those it is given.
What matters about a thread for the others is not its program but its phase in a
protocol: which actions it may take, and how each of them changes the phase. If
every program obeys the protocol, a run of the threads is a run of a crew, which
knows the phases only; invariants are then proved of the crew.
-/

namespace Interaction

open Function List

variable {J : Signature} {World Phase A B : Type}

structure Pool (J : Signature) (World : Type) where
  world : World
  threads : Nat → Program J Unit

def Pool.new (w : World) : Pool J World := ⟨w, fun _ => .done ()⟩

inductive PoolLabel (J : Signature) where
  | start (thread : Nat)
  | act (thread : Nat) (exchange : Exchange J)

inductive PoolStep (atom : World → (o : J.Op) → J.Reply o → World → Prop)
    (tasks : Nat → Program J Unit → Prop) : Pool J World → PoolLabel J → Pool J World → Prop where
  | start {pool : Pool J World} {i : Nat} {p : Program J Unit} : pool.threads i = .done () →
      tasks i p →
      PoolStep atom tasks pool (.start i) ⟨pool.world, update pool.threads i p⟩
  | act {pool : Pool J World} {i : Nat} {o : J.Op} {next : J.Reply o → Program J Unit}
      {reply : J.Reply o} {after : World} : pool.threads i = .call o next →
      atom pool.world o reply after →
      PoolStep atom tasks pool (.act i ⟨o, reply⟩)
        ⟨after, update pool.threads i (next reply)⟩

def poolSystem (atom : World → (o : J.Op) → J.Reply o → World → Prop)
    (tasks : Nat → Program J Unit → Prop) : System (Pool J World) (PoolLabel J) :=
  ⟨PoolStep atom tasks⟩

/-- Which actions a thread may take in a phase, and the phase it is in afterwards. -/
structure Protocol (J : Signature) (Phase : Type) where
  allows : Phase → J.Op → Prop
  after : Phase → Exchange J → Phase

namespace Program

variable (protocol : Protocol J Phase)

/-- Every action is allowed when it is taken, and the program ends in a phase fit for its result. -/
def Obeys (post : A → Phase → Prop) : Program J A → Phase → Prop
  | .done a, phase => post a phase
  | .call o next, phase => protocol.allows phase o ∧
      ∀ reply, Obeys post (next reply) (protocol.after phase ⟨o, reply⟩)

variable {protocol} {post : A → Phase → Prop} {p : Program J A} {phase : Phase}

theorem Obeys.mono {weaker : A → Phase → Prop} (obeys : p.Obeys protocol post phase)
    (weakens : ∀ a phase, post a phase → weaker a phase) : p.Obeys protocol weaker phase := by
  induction p generalizing phase with
  | done a => exact weakens a phase obeys
  | call o next ih => exact ⟨obeys.1, fun reply => ih reply (obeys.2 reply)⟩

variable {k : A → Program J B} {last : B → Phase → Prop} {talk : List (Exchange J)}

theorem Obeys.bind (obeys : p.Obeys protocol (fun a phase => (k a).Obeys protocol last phase) phase) :
    (p.bind k).Obeys protocol last phase := by
  induction p generalizing phase with
  | done => exact obeys
  | call o next ih => exact ⟨obeys.1, fun reply => ih reply (obeys.2 reply)⟩

theorem Obeys.next (first : p.Obeys protocol post phase)
    (rest : ∀ a later, post a later → (k a).Obeys protocol last later) :
    (p.bind k).Obeys protocol last phase := Obeys.bind (first.mono rest)

theorem Obeys.on {fixed : A → Phase}
    (first : p.Obeys protocol (fun a later => later = fixed a) phase)
    (rest : ∀ a, (k a).Obeys protocol last (fixed a)) : (p.bind k).Obeys protocol last phase :=
  first.next fun a _ same => same ▸ rest a

/-- The phase after a whole conversation. -/
theorem Obeys.ends {a : A} (obeys : p.Obeys protocol post phase) (run : p.Runs talk a) :
    post a (talk.foldl protocol.after phase) := by
  induction run generalizing phase with
  | done => exact obeys
  | call reply _ ih =>
    exact ih (obeys.2 reply)

/-- Each action of a conversation was allowed in the phase in which it was taken. -/
theorem Obeys.allowed {first second : List (Exchange J)} {exchange : Exchange J}
    {rest : Program J A} (obeys : p.Obeys protocol post phase) (reaches : p.Reaches talk rest)
    (split : talk = first ++ exchange :: second) :
    protocol.allows (first.foldl protocol.after phase) exchange.op := by
  induction reaches generalizing phase first with
  | here => simp at split
  | call reply _ ih =>
    cases first with
    | nil =>
      obtain ⟨rfl, _⟩ := cons.inj split
      exact obeys.1
    | cons =>
      obtain ⟨rfl, tail⟩ := cons.inj split
      rw [foldl_cons]
      exact ih (obeys.2 reply) tail

/-- A program all of whose requests are allowed in certain phases and lead to such phases. -/
theorem Obeys.of_only {harmless : J.Op → Prop} {within : Phase → Prop} (only : p.Only harmless)
    (allowed : ∀ o phase, harmless o → within phase → protocol.allows phase o)
    (stays : ∀ o phase reply, harmless o → within phase → within (protocol.after phase ⟨o, reply⟩))
    (here : within phase) : p.Obeys protocol (fun _ => within) phase := by
  induction p generalizing phase with
  | done => exact here
  | call o next ih =>
    refine ⟨allowed o phase only.1 here, fun reply => ?_⟩
    exact ih reply (only.2 reply) (stays o phase reply only.1 here)

/-- A program all of whose requests leave the phase as it is. -/
theorem Obeys.still {harmless : J.Op → Prop} (only : p.Only harmless)
    (allowed : ∀ o, harmless o → protocol.allows phase o)
    (stays : ∀ o reply, harmless o → protocol.after phase ⟨o, reply⟩ = phase) :
    p.Obeys protocol (fun _ later => later = phase) phase := by
  refine of_only only ?_ ?_ rfl
  · rintro o _ asks rfl
    exact allowed o asks
  · rintro o _ reply asks rfl
    exact stays o reply asks

end Program

/-- A single action and what follows it. -/
theorem obeys_atom {protocol : Protocol J Phase} {phase : Phase} {post : A → Phase → Prop}
    {o : J.Op} {k : J.Reply o → Program J A} : ((Program.call o .done).bind k).Obeys protocol post phase ↔
      protocol.allows phase o ∧
        ∀ reply, (k reply).Obeys protocol post (protocol.after phase ⟨o, reply⟩) := Iff.rfl

/-- Two protocols at once. -/
def Protocol.both {Other : Type} (first : Protocol J Phase) (second : Protocol J Other) :
    Protocol J (Phase × Other) where
  allows phases o := first.allows phases.1 o ∧ second.allows phases.2 o
  after phases exchange := (first.after phases.1 exchange, second.after phases.2 exchange)

theorem Program.Obeys.both {Other : Type} {first : Protocol J Phase} {second : Protocol J Other}
    {p : Program J A} {post : A → Phase → Prop} {last : A → Other → Prop} {phase : Phase}
    {other : Other} (one : p.Obeys first post phase) (two : p.Obeys second last other) :
    p.Obeys (first.both second) (fun a phases => post a phases.1 ∧ last a phases.2)
      (phase, other) := by
  induction p generalizing phase other with
  | done => exact ⟨one, two⟩
  | call o next ih => exact ⟨⟨one.1, two.1⟩, fun reply => ih reply (one.2 reply) (two.2 reply)⟩

/-- The world with the phase of every thread. -/
structure Crew (World Phase : Type) where
  world : World
  phases : Nat → Phase

inductive CrewStep (atom : World → (o : J.Op) → J.Reply o → World → Prop)
    (protocol : Protocol J Phase) :
    Crew World Phase → PoolLabel J → Crew World Phase → Prop where
  | start {crew : Crew World Phase} (i : Nat) : CrewStep atom protocol crew (.start i) crew
  | act {crew : Crew World Phase} {i : Nat} {o : J.Op} {reply : J.Reply o} {after : World} :
      protocol.allows (crew.phases i) o → atom crew.world o reply after →
      CrewStep atom protocol crew (.act i ⟨o, reply⟩)
        ⟨after, update crew.phases i (protocol.after (crew.phases i) ⟨o, reply⟩)⟩

def crewSystem (atom : World → (o : J.Op) → J.Reply o → World → Prop)
    (protocol : Protocol J Phase) : System (Crew World Phase) (PoolLabel J) :=
  ⟨CrewStep atom protocol⟩

variable {atom : World → (o : J.Op) → J.Reply o → World → Prop}
  {tasks : Nat → Program J Unit → Prop}

variable {protocol : Protocol J Phase} {rests : Nat → Phase → Prop} {pool after : Pool J World}
  {crew : Crew World Phase} {label : PoolLabel J} {labels : List (PoolLabel J)}

/-- The crew that stands for a pool: each thread obeys from its phase on and comes to rest. -/
structure Manned (protocol : Protocol J Phase) (rests : Nat → Phase → Prop) (pool : Pool J World)
    (crew : Crew World Phase) : Prop where
  world : crew.world = pool.world
  threads : ∀ i, (pool.threads i).Obeys protocol (fun _ => rests i) (crew.phases i)

section

variable (manned : Manned protocol rests pool crew)
  (obey : ∀ i p phase, tasks i p → rests i phase → p.Obeys protocol (fun _ => rests i) phase)
include manned obey

theorem Manned.step (step : PoolStep atom tasks pool label after) :
    ∃ next, CrewStep atom protocol crew label next ∧ Manned protocol rests after next := by
  cases step with
  | @start i p idle task =>
    refine ⟨crew, .start i, manned.world, ?_⟩
    intro j
    by_cases same : j = i
    · subst same
      have resting := manned.threads j
      rw [idle] at resting
      simp only [update_self]
      exact obey j p (crew.phases j) task resting
    · simp only [update_of_ne same]
      exact manned.threads j
  | @act i o next reply world waiting taken =>
    have turn := manned.threads i
    rw [waiting] at turn
    refine ⟨_, .act turn.1 (manned.world ▸ taken), rfl, ?_⟩
    intro j
    by_cases same : j = i
    · subst same
      simp only [update_self]
      exact turn.2 reply
    · simp only [update_of_ne same]
      exact manned.threads j

omit manned obey in
theorem manned_new {w : World} {phases : Nat → Phase} (resting : ∀ i, rests i (phases i)) :
    Manned protocol rests (.new w) ⟨w, phases⟩ := ⟨rfl, resting⟩

/-- A run of programs that obey the protocol is a run of the crew with the same labels. -/
theorem Manned.run (run : Run (poolSystem atom tasks) pool labels after) :
    ∃ next, Run (crewSystem atom protocol) crew labels next ∧ Manned protocol rests after next := by
  induction run with
  | start => exact ⟨crew, .start, manned⟩
  | next _ step ih =>
    obtain ⟨reached, earlier, still⟩ := ih
    obtain ⟨next, taken, now⟩ := still.step obey step
    exact ⟨next, earlier.next taken, now⟩

end

variable {answer : World → (o : J.Op) → J.Reply o × World}

/-- Let the environment answer the next actions of a program. -/
def drive (answer : World → (o : J.Op) → J.Reply o × World) :
    Nat → Program J A → World → List (Exchange J) × Program J A × World
  | 0, p, w => ([], p, w)
  | _ + 1, .done a, w => ([], .done a, w)
  | n + 1, .call o next, w =>
    let answered := answer w o
    let rest := drive answer n (next answered.1) answered.2
    (⟨o, answered.1⟩ :: rest.1, rest.2)

/-- The next action is one of these. -/
def Program.asks (wanted : J.Op → Bool) : Program J A → Bool
  | .done _ => false
  | .call o _ => wanted o

theorem Program.asks_eq {wanted : J.Op → Bool} {p : Program J A} (asks : p.asks wanted = true) :
    ∃ o next, p = .call o next ∧ wanted o = true := by
  cases p with
  | done => cases asks
  | call o next => exact ⟨o, next, rfl, asks⟩

variable {w : World} {threads : Nat → Program J Unit} {i : Nat} {p : Program J Unit}

/-- A thread takes the answer that its program asks for. -/
theorem step_asked {after : World} {o : J.Op} {next : J.Reply o → Program J Unit}
    {reply : J.Reply o} (here : threads i = p) (asks : p = .call o next)
    (taken : atom w o reply after) : (poolSystem atom tasks).step ⟨w, threads⟩ (.act i ⟨o, reply⟩)
      ⟨after, update threads i (next reply)⟩ := .act (here.trans asks) taken

/-- Every action that a program takes under these answers is fine where it is taken. -/
def passes (answer : World → (o : J.Op) → J.Reply o × World) (fine : World → J.Op → Bool) :
    Nat → Program J A → World → Bool
  | 0, _, _ | _ + 1, .done _, _ => true
  | n + 1, .call o next, w =>
    fine w o && passes answer fine n (next (answer w o).1) (answer w o).2

theorem passes_always (n : Nat) (p : Program J A) (w : World) :
    passes answer (fun _ _ => true) n p w = true := by
  induction n generalizing p w with
  | zero => rfl
  | succ n ih =>
    cases p with
    | done => rfl
    | call => exact ih _ _

def Program.ended : Program J A → Bool
  | .done _ => true
  | .call _ _ => false

/-- Jobs that are taken up and done one after the other. -/
def serve (answer : World → (o : J.Op) → J.Reply o × World) (n : Nat) :
    List (Nat × Program J Unit) → World → List (PoolLabel J) × World
  | [], w => ([], w)
  | (i, p) :: rest, w =>
    let driven := drive answer n p w
    let later := serve answer n rest driven.2.2
    (.start i :: driven.1.map (.act i) ++ later.1, later.2)

/-- Each of the jobs comes to its end, and all its actions are fine. -/
def serves (answer : World → (o : J.Op) → J.Reply o × World) (fine : Nat → World → J.Op → Bool)
    (n : Nat) : List (Nat × Program J Unit) → World → Bool
  | [], _ => true
  | (i, p) :: rest, w =>
    let driven := drive answer n p w
    driven.2.1.ended && passes answer (fine i) n p w && serves answer fine n rest driven.2.2

variable {rule : Pool J World → PoolLabel J → Prop} {inv : World → Prop}
  {fine : Nat → World → J.Op → Bool} {lone : Prop}

/-- The actions that are fine keep to a rule, by an invariant of the world and, if the thread is a
lone one, by the rest of all others. -/
structure Complies (atom : World → (o : J.Op) → J.Reply o → World → Prop)
    (answer : World → (o : J.Op) → J.Reply o × World) (rule : Pool J World → PoolLabel J → Prop)
    (inv : World → Prop) (fine : Nat → World → J.Op → Bool) (lone : Prop) : Prop where
  start : ∀ pool i, rule pool (.start i)
  act : ∀ i threads w o, (lone → ∀ j, j ≠ i → threads j = .done ()) → inv w → fine i w o = true →
    atom w o (answer w o).1 (answer w o).2 ∧ rule ⟨w, threads⟩ (.act i ⟨o, (answer w o).1⟩) ∧
      inv (answer w o).2

section

variable (complies : Complies atom answer rule inv fine lone)
include complies

theorem run_keeping (n i : Nat) (p : Program J Unit) (w : World) (here : threads i = p)
    (beside : lone → ∀ j, j ≠ i → threads j = .done ()) (holds : inv w)
    (fits : passes answer (fine i) n p w = true) :
    Run ((poolSystem atom tasks).keeping rule) ⟨w, threads⟩ ((drive answer n p w).1.map (.act i))
      ⟨(drive answer n p w).2.2, update threads i (drive answer n p w).2.1⟩ ∧
    inv (drive answer n p w).2.2 := by
  have stop (p : Program J Unit) (w : World) {threads : Nat → Program J Unit} (here : threads i = p) :
      Run ((poolSystem atom tasks).keeping rule) ⟨w, threads⟩ [] ⟨w, update threads i p⟩ := by
    have same : update threads i p = threads := here ▸ update_eq_self i threads
    rw [same]
    exact .start
  induction n generalizing p w threads with
  | zero => exact ⟨stop p w here, holds⟩
  | succ n ih =>
    cases p with
    | done a => exact ⟨stop (.done a) w here, holds⟩
    | call o next =>
      obtain ⟨now, later⟩ := Bool.and_eq_true_iff.mp fits
      obtain ⟨taken, ruled, kept⟩ := complies.act i threads w o beside holds now
      have step : ((poolSystem atom tasks).keeping rule).step ⟨w, threads⟩
          (.act i ⟨o, (answer w o).1⟩)
          ⟨(answer w o).2, update threads i (next (answer w o).1)⟩ := ⟨.act here taken, ruled⟩
      obtain ⟨rest, last⟩ := ih (next (answer w o).1) (answer w o).2 (update_self i _ threads)
        (fun alone j other => (update_of_ne other _ _).trans (beside alone j other)) kept later
      rw [update_idem] at rest
      exact ⟨(Run.start.next step).trans rest, last⟩

/-- A thread takes up a job and acts for a while. -/
theorem job_keeping (n : Nat) (given : tasks i p) (idle : threads i = .done ())
    (beside : lone → ∀ j, j ≠ i → threads j = .done ()) (holds : inv w)
    (fits : passes answer (fine i) n p w = true) :
    Run ((poolSystem atom tasks).keeping rule) ⟨w, threads⟩
      (.start i :: (drive answer n p w).1.map (.act i))
      ⟨(drive answer n p w).2.2, update threads i (drive answer n p w).2.1⟩ ∧
    inv (drive answer n p w).2.2 := by
  have begun : ((poolSystem atom tasks).keeping rule).step ⟨w, threads⟩ (.start i)
      ⟨w, update threads i p⟩ := ⟨.start idle given, complies.start _ _⟩
  have goes : Run ((poolSystem atom tasks).keeping rule) ⟨w, update threads i p⟩ _ _ ∧ _ :=
    run_keeping complies n i p w (update_self i p threads)
      (fun alone j other => (update_of_ne other _ _).trans (beside alone j other)) holds fits
  rw [update_idem] at goes
  exact ⟨(Run.start.next begun).trans goes.1, goes.2⟩

theorem serve_keeping (n : Nat) (jobs : List (Nat × Program J Unit))
    (given : ∀ job ∈ jobs, tasks job.1 job.2) (w : World) (holds : inv w)
    (ends : serves answer fine n jobs w = true) :
    Run ((poolSystem atom tasks).keeping rule) (.new w) (serve answer n jobs w).1
      (.new (serve answer n jobs w).2) ∧ inv (serve answer n jobs w).2 := by
  induction jobs generalizing w with
  | nil => exact ⟨.start, holds⟩
  | cons job rest ih =>
    obtain ⟨i, p⟩ := job
    obtain ⟨now, later⟩ := Bool.and_eq_true_iff.mp ends
    obtain ⟨done, fits⟩ := Bool.and_eq_true_iff.mp now
    have first : Run ((poolSystem atom tasks).keeping rule) (.new w) _ _ ∧ _ :=
      job_keeping complies n (given _ mem_cons_self) rfl (fun _ _ _ => rfl) holds fits
    have quiet : update (fun _ => .done ()) i (drive answer n p w).2.1 =
        fun _ : Nat => (.done () : Program J Unit) := by
      cases left : (drive answer n p w).2.1 with
      | done => exact update_eq_self i fun _ => (.done () : Program J Unit)
      | call =>
        rw [left] at done
        cases done
    rw [quiet] at first
    obtain ⟨second, last⟩ :=
      ih (fun job member => given job (mem_cons_of_mem _ member)) _ first.2 later
    exact ⟨first.1.trans second, last⟩

end

section

variable (answers : ∀ w o, atom w o (answer w o).1 (answer w o).2)
include answers

theorem complies_any : Complies atom answer (fun _ _ => True) (fun _ => True) (fun _ _ _ => true) False :=
  ⟨fun _ _ => trivial, fun _ _ w o _ _ _ => ⟨answers w o, trivial, trivial⟩⟩

theorem run_drive (n i : Nat) (p : Program J Unit) (w : World) (here : threads i = p) :
    Run (poolSystem atom tasks) ⟨w, threads⟩ ((drive answer n p w).1.map (.act i))
      ⟨(drive answer n p w).2.2, update threads i (drive answer n p w).2.1⟩ :=
  (run_keeping (complies_any answers) n i p w here False.elim trivial (passes_always n p w)).1.unruled

theorem run_job (n : Nat) (given : tasks i p) (idle : threads i = .done ()) :
    Run (poolSystem atom tasks) ⟨w, threads⟩ (.start i :: (drive answer n p w).1.map (.act i))
      ⟨(drive answer n p w).2.2, update threads i (drive answer n p w).2.1⟩ :=
  (job_keeping (complies_any answers) n given idle False.elim trivial (passes_always n p w)).1.unruled

end

theorem run_serve (answers : ∀ w o, atom w o (answer w o).1 (answer w o).2) (n : Nat)
    (jobs : List (Nat × Program J Unit)) (given : ∀ job ∈ jobs, tasks job.1 job.2) (w : World)
    (ends : serves answer (fun _ _ _ => true) n jobs w = true) :
    Run (poolSystem atom tasks) (.new w) (serve answer n jobs w).1 (.new (serve answer n jobs w).2) :=
  (serve_keeping (complies_any answers) n jobs given w trivial ends).1.unruled

theorem drive_forall {fine : Exchange J → Prop} (answers : ∀ w o, fine ⟨o, (answer w o).1⟩) (n : Nat)
    (p : Program J A) (w : World) : ∀ exchange ∈ (drive answer n p w).1, fine exchange := by
  induction n generalizing p w with
  | zero => exact forall_mem_nil _
  | succ n ih =>
    cases p with
    | done => exact forall_mem_nil _
    | call o => exact forall_mem_cons.mpr ⟨answers w o, ih _ _⟩

end Interaction
