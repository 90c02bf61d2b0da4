import HisiRf.Interaction.Pool
import Mathlib.Data.List.Induction

/-! What a thread has done since it took up its program.

The record is a phase like any other: a program obeys a guard if each of its
actions is taken only after a conversation that the guard asks for. In a run of
a pool the record of a thread is read off the labels.
-/

namespace Interaction

open Function List

variable {J : Signature} {World A : Type}

/-- The phase is the conversation so far. -/
def recorded (guard : List (Exchange J) → J.Op → Prop) : Protocol J (List (Exchange J)) where
  allows := guard
  after past exchange := past ++ [exchange]

variable {guard : List (Exchange J) → J.Op → Prop} {p : Program J A} {past : List (Exchange J)}

namespace Program

/-- A program that asks for nothing guarded just extends the record. -/
theorem Obeys.record {harmless : J.Op → Prop} (only : p.Only harmless)
    (unguarded : ∀ o past, harmless o → guard past o) :
    p.Obeys (recorded guard) (fun a later => ∃ talk, later = past ++ talk ∧ p.Runs talk a) past := by
  induction p generalizing past with
  | done a => exact ⟨[], (append_nil past).symm, .done a⟩
  | call o next ih =>
    refine ⟨unguarded o past only.1, fun reply => ?_⟩
    refine (ih reply (only.2 reply)).mono ?_
    rintro a later ⟨talk, rfl, run⟩
    exact ⟨⟨o, reply⟩ :: talk, append_assoc past [_] talk, .call reply run⟩

theorem recorded_foldl (talk : List (Exchange J)) :
    talk.foldl (recorded guard).after past = past ++ talk := by
  induction talk generalizing past with
  | nil => exact (append_nil past).symm
  | cons exchange rest ih => exact ih.trans (append_assoc past [exchange] rest)

/-- The guard was met at each action of a conversation. -/
theorem Obeys.guards {post : A → List (Exchange J) → Prop} {rest : Program J A}
    {talk first second : List (Exchange J)} {exchange : Exchange J}
    (obeys : p.Obeys (recorded guard) post past) (reaches : p.Reaches talk rest)
    (split : talk = first ++ exchange :: second) : guard (past ++ first) exchange.op := by
  have met := obeys.allowed reaches split
  rwa [recorded_foldl] at met

end Program

/-- If fewer than `bound` came before each of them, there are at most `bound`. -/
theorem countP_le_of_splits {Entry : Type} (wanted : Entry → Bool) {bound : Nat} {log : List Entry}
    (few : ∀ first entry second, log = first ++ entry :: second → wanted entry = true →
      first.countP wanted < bound) : log.countP wanted ≤ bound := by
  induction log using reverseRecOn with
  | nil => simp
  | append_singleton earlier last ih =>
    rw [countP_append, countP_singleton]
    by_cases hit : wanted last = true
    · have fewer := few earlier last [] rfl hit
      rw [if_pos hit]
      omega
    · rw [if_neg hit]
      refine ih fun first entry second split counts => ?_
      exact few first entry (second ++ [last]) (by simp [split]) counts

variable {atom : World → (o : J.Op) → J.Reply o → World → Prop}
  {tasks : Nat → Program J Unit → Prop} {pool : Pool J World} {labels : List (PoolLabel J)}

section Threads

variable {after : Pool J World} {label : PoolLabel J} {i : Nat}

def PoolLabel.startsThread (i : Nat) : PoolLabel J → Bool
  | .start j => i == j
  | .act _ _ => false

def PoolLabel.own (i : Nat) : PoolLabel J → Option (Exchange J)
  | .start _ => none
  | .act j exchange => if i = j then some exchange else none

open PoolLabel (own startsThread)

/-- The actions of a thread since it took up its program. -/
def acts (i : Nat) (labels : List (PoolLabel J)) : List (Exchange J) :=
  (since (startsThread i) labels).filterMap (own i)

theorem acts_start (i j : Nat) (labels : List (PoolLabel J)) :
    acts i (labels ++ [.start j]) = if i = j then [] else acts i labels := by
  unfold acts
  rw [since_concat]
  by_cases same : i = j
  · simp [startsThread, same]
  · simp [startsThread, own, same]

theorem acts_act (i j : Nat) (exchange : Exchange J) (labels : List (PoolLabel J)) :
    acts i (labels ++ [.act j exchange]) =
      if i = j then acts i labels ++ [exchange] else acts i labels := by
  unfold acts
  rw [since_concat, if_neg (by simp [startsThread]), filterMap_concat]
  by_cases same : i = j <;> simp [own, same]

variable {w : World} {exchange : Exchange J} {later : List (PoolLabel J)}

section

variable (obey : ∀ i p, tasks i p → p.Obeys (recorded guard) (fun _ _ => True) [])
  (run : Run (poolSystem atom tasks) (.new w) labels pool)
include obey run

/-- In a run each thread obeys the guard with its own record. -/
theorem obeys_acts (i : Nat) :
    (pool.threads i).Obeys (recorded guard) (fun _ _ => True) (acts i labels) := by
  induction run with
  | start => trivial
  | next _ step ih =>
    cases step with
    | @start j p _ given =>
      rw [acts_start]
      by_cases same : i = j
      · subst same
        simp only [update_self]
        exact obey i p given
      · rw [if_neg same]
        simp only [update_of_ne same]
        exact ih
    | @act j o next reply world waiting =>
      rw [acts_act]
      by_cases same : i = j
      · subst same
        rw [waiting] at ih
        simp only [update_self]
        exact ih.2 reply
      · rw [if_neg same]
        simp only [update_of_ne same]
        exact ih

/-- The guard is met whenever a thread acts. -/
theorem guard_of_step (step : PoolStep atom tasks pool (.act i exchange) after) :
    guard (acts i labels) exchange.op := by
  have obeys := obeys_acts obey run i
  cases step with
  | act waiting =>
    rw [waiting] at obeys
    exact obeys.1

end

theorem own_eq_some (own : label.own i = some exchange) : label = .act i exchange := by
  cases label with
  | start => cases own
  | act j =>
    by_cases same : i = j
    · subst same
      rw [PoolLabel.own, if_pos rfl] at own
      rw [Option.some.inj own]
    · rw [PoolLabel.own, if_neg same] at own
      cases own

theorem startsThread_eq_false (unstarted : .start i ∉ later) :
    ∀ label ∈ later, startsThread i label = false := by
  intro label member
  cases label with
  | act => rfl
  | start j =>
    have other : i ≠ j := fun same => unstarted (same ▸ member)
    simp [startsThread, other]

theorem acts_append (unstarted : .start i ∉ later) :
    acts i (labels ++ later) = acts i labels ++ later.filterMap (own i) := by
  unfold acts
  rw [since_append (startsThread_eq_false unstarted), filterMap_append]

/-- A record that is known in two parts splits the labels where the second part begins. -/
theorem acts_split {first second : List (Exchange J)} (known : acts i labels = first ++ second) :
    ∃ earlier later, labels = earlier ++ later ∧ acts i earlier = first ∧
      later.filterMap (own i) = second ∧ .start i ∉ later := by
  obtain ⟨past, whole, unstarted⟩ := since_split (startsThread i) labels
  obtain ⟨front, later, split, own, tail⟩ := filterMap_eq_append_iff.mp known
  rw [split] at whole unstarted
  have silent : .start i ∉ later := by
    intro started
    have calm := unstarted _ (mem_append_right front started)
    simp [startsThread] at calm
  refine ⟨past ++ front, later, by rw [whole, append_assoc], ?_, tail, silent⟩
  rw [whole, ← append_assoc, acts_append silent, tail] at known
  exact append_cancel_right known

/-- Each action of a thread stands in the labels, with what came before and after it. -/
theorem last_acts {before : List (Exchange J)} {later : List (Exchange J)}
    (known : acts i labels = before ++ exchange :: later) :
    ∃ earlier between, labels = earlier ++ .act i exchange :: between ∧ acts i earlier = before ∧
      between.filterMap (own i) = later ∧ .start i ∉ between := by
  obtain ⟨front, tail, rfl, begins, own, silent⟩ := acts_split known
  obtain ⟨skipped, label, between, rfl, others, mine, last⟩ := filterMap_eq_cons_iff.mp own
  obtain rfl := own_eq_some mine
  have unskipped : .start i ∉ skipped := fun started => silent (mem_append_left _ started)
  have unstarted : .start i ∉ between := fun started =>
    silent (mem_append_right _ (mem_cons_of_mem _ started))
  refine ⟨front ++ skipped, between, (append_assoc _ _ _).symm, ?_, last, unstarted⟩
  rw [acts_append unskipped, begins, filterMap_eq_nil_iff.mpr others, append_nil]

end Threads

variable {Phase : Type} {protocol : Protocol J Phase} {home : Nat → Phase}

/-- The phase that the record of a thread leads to, if it starts each program from its home phase. -/
def phaseOf (protocol : Protocol J Phase) (home : Nat → Phase) (labels : List (PoolLabel J))
    (i : Nat) : Phase := (acts i labels).foldl protocol.after (home i)

theorem phaseOf_act (i : Nat) (exchange : Exchange J) :
    phaseOf protocol home (labels ++ [.act i exchange]) = update (phaseOf protocol home labels) i
        (protocol.after (phaseOf protocol home labels i) exchange) := by
  funext j
  unfold phaseOf
  rw [acts_act]
  by_cases same : j = i
  · subst same
    rw [if_pos rfl, foldl_concat, update_self]
  · rw [if_neg same, update_of_ne same]

variable {i : Nat} {w : World} {rule : Pool J World → PoolLabel J → Prop} {exchange : Exchange J}

theorem phaseOf_start (resting : phaseOf protocol home labels i = home i) :
    phaseOf protocol home (labels ++ [.start i]) = phaseOf protocol home labels := by
  funext j
  by_cases same : j = i
  · subst same
    rw [resting, phaseOf, acts_start, if_pos rfl, foldl_nil]
  · rw [phaseOf, acts_start, if_neg same, phaseOf]

section

variable (obey : ∀ i p, tasks i p → p.Obeys protocol (fun _ phase => phase = home i) (home i))
include obey

/-- If each program leads from the home phase of its thread back to it, a run of the pool is a run of
the crew, and the crew is known from the labels. -/
theorem crew_of_run
    (run : Run (poolSystem atom tasks) (.new w) labels pool) :
    Run (crewSystem atom protocol) ⟨w, home⟩ labels ⟨pool.world, phaseOf protocol home labels⟩ ∧
      ∀ i, (pool.threads i).Obeys protocol (fun _ phase => phase = home i)
        (phaseOf protocol home labels i) := by
  induction run with
  | start => exact ⟨.start, fun _ => rfl⟩
  | next _ step ih =>
    obtain ⟨crew, threads⟩ := ih
    cases step with
    | @start i p idle given =>
      have resting := threads i
      rw [idle] at resting
      rw [phaseOf_start resting]
      refine ⟨crew.next (.start i), ?_⟩
      intro j
      by_cases same : j = i
      · subst same
        simp only [update_self]
        exact (show phaseOf protocol home _ j = home j from resting) ▸ obey j p given
      · simp only [update_of_ne same]
        exact threads j
    | @act i o next reply world waiting taken =>
      have turn := threads i
      rw [waiting] at turn
      rw [phaseOf_act]
      refine ⟨crew.next (.act turn.1 taken), ?_⟩
      intro j
      by_cases same : j = i
      · subst same
        simp only [update_self]
        exact turn.2 reply
      · simp only [update_of_ne same]
        exact threads j

/-- The rule for an invariant of the world and the phases, in runs that keep to a rule. -/
theorem crew_invariant {inv : World → (Nat → Phase) → Prop}
    (begins : inv w home)
    (keeps : ∀ pool places i o reply w', inv pool.world places → protocol.allows (places i) o →
      atom pool.world o reply w' → rule pool (.act i ⟨o, reply⟩) →
      inv w' (update places i (protocol.after (places i) ⟨o, reply⟩)))
    (run : Run ((poolSystem atom tasks).keeping rule) (.new w) labels pool) :
    inv pool.world (phaseOf protocol home labels) := by
  induction run with
  | start => exact begins
  | next earlier step ih =>
    obtain ⟨step, kept⟩ := step
    have threads := (crew_of_run obey earlier.unruled).2
    cases step with
    | @start i p idle =>
      have resting := threads i
      rw [idle] at resting
      rw [phaseOf_start resting]
      exact ih
    | @act i o next reply after waiting taken =>
      have turn := threads i
      rw [waiting] at turn
      rw [phaseOf_act]
      exact keeps _ _ i o reply after ih turn.1 taken kept

/-- What a thread is allowed to do when it takes a step. -/
theorem allowed_of_step {after : Pool J World}
    (run : Run (poolSystem atom tasks) (.new w) labels pool)
    (step : (poolSystem atom tasks).step pool (.act i exchange) after) :
    protocol.allows (phaseOf protocol home labels i) exchange.op ∧
      atom pool.world exchange.op exchange.reply after.world := by
  have turn := (crew_of_run obey run).2 i
  cases step with
  | act waiting taken =>
    rw [waiting] at turn
    exact ⟨turn.1, taken⟩

/-- The rule for what holds from one step on until a step that breaks it. -/
theorem crew_since {holds : World → (Nat → Phase) → Prop} {breaks : Exchange J → Prop}
    {first between : List (PoolLabel J)}
    (begins : ∀ pool after, Run ((poolSystem atom tasks).keeping rule) (.new w) first pool →
      ((poolSystem atom tasks).keeping rule).step pool (.act i exchange) after →
      holds after.world (phaseOf protocol home (first ++ [.act i exchange])))
    (keeps : ∀ labels pool i o reply w',
      Run ((poolSystem atom tasks).keeping rule) (.new w) labels pool →
      holds pool.world (phaseOf protocol home labels) →
      protocol.allows (phaseOf protocol home labels i) o → atom pool.world o reply w' →
      rule pool (.act i ⟨o, reply⟩) → ¬breaks ⟨o, reply⟩ → holds w'
        (update (phaseOf protocol home labels) i
          (protocol.after (phaseOf protocol home labels i) ⟨o, reply⟩)))
    (run : Run ((poolSystem atom tasks).keeping rule) (.new w) (first ++ .act i exchange :: between) pool)
    (unbroken : ∀ k later, .act k later ∈ between → ¬breaks later) :
    holds pool.world (phaseOf protocol home (first ++ .act i exchange :: between)) := by
  induction between using reverseRecOn generalizing pool with
  | nil =>
    obtain ⟨before, earlier, step⟩ := run.last
    exact begins before pool earlier step
  | append_singleton past label ih =>
    rw [← cons_append, ← append_assoc] at run ⊢
    obtain ⟨before, earlier, step, kept⟩ := run.last
    have held := ih earlier fun k later member => unbroken k later (mem_append_left _ member)
    have threads := (crew_of_run obey earlier.unruled).2
    cases step with
    | @start j p idle =>
      have resting := threads j
      rw [idle] at resting
      rw [phaseOf_start resting]
      exact held
    | @act j o next reply world waiting taken =>
      have turn := threads j
      rw [waiting] at turn
      rw [phaseOf_act]
      exact keeps _ before j o reply world earlier held turn.1 taken kept
        (unbroken j ⟨o, reply⟩ (mem_append_right _ mem_cons_self))

end

end Interaction
