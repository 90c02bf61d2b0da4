import HisiRf.Netif.HostTx
import Mathlib.Data.List.Nodup

/-! Whole histories of the host-TX tracker.

The counters account for every accepted buffer after any calls whatever. As long
as no fault was reported, the history of each ticket can be read off its slot; a
ticket without a slot has then had exactly one return of its post and exactly
one completed dispatch or free.
-/

namespace HisiRf.HostTx

open Interaction List Tracker Option

variable {t t' : Tracker} {label : Label} {labels : List Label}

/-- A step keeps the three words, or it reports: then it closes, and a first fault stays. -/
def Reports (t t' : Tracker) : Prop :=
  t'.terminal = t.terminal ∧ ((t'.fault = t.fault ∧ t'.closed = t.closed) ∨
    (t'.closed = true ∧ (t.fault ≠ 0 → t'.fault = t.fault)))

theorem reports_fail (status : Int32) : Reports t (t.fail status) := by
  refine ⟨rfl, .inr ⟨rfl, fun faulted => ?_⟩⟩
  rw [fault_fail, if_neg faulted]

theorem Reports.retire {marked : Tracker} (ticket : Ticket) (reports : Reports t marked) :
    Reports t (marked.retire ticket) := by
  have kept : (marked.retire ticket).terminal = marked.terminal ∧
      (marked.retire ticket).fault = marked.fault ∧
      (marked.retire ticket).closed = marked.closed := by
    refine ⟨?_, retire_fault ticket, ?_⟩ <;> unfold Tracker.retire
    · split
      · rfl
      · split <;> rfl
    · split
      · rfl
      · split
        · rfl
        · dsimp only
          split <;> rfl
  unfold Reports
  rw [kept.1, kept.2.1, kept.2.2]
  exact reports

theorem begin_reports (pointer : Nat) : Reports t (t.begin pointer).2 := by
  rcases t.begin_cases pointer with ⟨_, refused⟩ | ⟨_, refused⟩ | ⟨_, _, _, _, _, _, _, went⟩
  · rw [refused]
    exact reports_fail (t := t) contractError
  · rw [refused]
    exact ⟨rfl, .inl ⟨rfl, rfl⟩⟩
  · rw [went]
    exact ⟨rfl, .inl ⟨rfl, rfl⟩⟩

theorem postReturned_reports (ticket : Ticket) (status : Int32) :
    Reports t (t.postReturned ticket status) := by
  unfold postReturned
  split
  · exact reports_fail contractError
  · split
    · exact reports_fail contractError
    · apply Reports.retire
      split
      · exact reports_fail status
      · exact ⟨rfl, .inl ⟨rfl, rfl⟩⟩

theorem complete_reports (ticket : Ticket) (freeing : Bool) (status : Int32) :
    Reports t (t.complete ticket freeing status) := by
  unfold complete
  split
  · exact reports_fail contractError
  split
  · exact reports_fail contractError
  · split
    · exact reports_fail status
    · apply Reports.retire
      split
      · exact reports_fail status
      · exact ⟨rfl, .inl ⟨rfl, rfl⟩⟩

structure Resumes (t : Tracker) (label : Label) (t' : Tracker) : Prop where
  named : label = .resumeHandshake 0 (.ok ())
  unfaulted : t.fault = 0
  unsealed : t.terminal = false
  drained : t.diagnostic.pending = 0
  fault : t'.fault = 0
  terminal : t'.terminal = false

section

variable (step : Step t label t')
include step

theorem step_reports :
    Reports t t' ∨ (label = .sealAdmission ∧ t'.terminal = true ∧ t'.closed = true ∧
      t'.fault = t.fault) ∨ Resumes t label t' := by
  cases step with
  | begin pointer => exact .inl (begin_reports pointer)
  | postReturned ticket status => exact .inl (postReturned_reports ticket status)
  | dispatch =>
    left
    unfold dispatch
    split
    · exact reports_fail contractError
    · exact ⟨rfl, .inl ⟨rfl, rfl⟩⟩
  | beforeFree =>
    left
    unfold beforeFree
    split <;> exact ⟨rfl, .inl ⟨rfl, rfl⟩⟩
  | complete ticket freeing status => exact .inl (complete_reports ticket freeing status)
  | close => exact .inl ⟨rfl, .inr ⟨rfl, fun _ => rfl⟩⟩
  | sealAdmission => exact .inr (.inl ⟨rfl, rfl, rfl, rfl⟩)
  | fail status => exact .inl (reports_fail status)
  | resumeHandshake =>
    unfold resumeHandshake
    split_ifs with native faulted busy
    · exact .inl ⟨rfl, .inl ⟨rfl, rfl⟩⟩
    · exact .inl ⟨rfl, .inl ⟨rfl, rfl⟩⟩
    · exact .inl ⟨rfl, .inl ⟨rfl, rfl⟩⟩
    · simp only [not_or, not_not, Bool.not_eq_true] at busy
      obtain rfl := not_not.mp native
      have unfaulted : t.fault = 0 := not_not.mp faulted
      exact .inr (.inr ⟨rfl, unfaulted, busy.1, busy.2, unfaulted, busy.1⟩)

theorem step_faulted (faulted : t.fault ≠ 0) : t'.fault = t.fault := by
  rcases step_reports step with ⟨_, ⟨same, _⟩ | ⟨_, kept⟩⟩ | ⟨_, _, _, same⟩ | resumes
  · exact same
  · exact kept faulted
  · exact same
  · exact absurd resumes.unfaulted faulted

theorem step_opens (closed : t.closed = true) (opened : t'.closed = false) :
    Resumes t label t' := by
  rcases step_reports step with ⟨_, ⟨_, same⟩ | ⟨shut, _⟩⟩ | ⟨_, _, shut, _⟩ | resumes
  · grind
  · grind
  · grind
  · exact resumes

/-- A tracker with a fault is closed, and so is one that was sealed. -/
structure Guarded (t : Tracker) : Prop where
  faulted : t.fault ≠ 0 → t.closed = true
  terminal : t.terminal = true → t.closed = true

theorem step_terminal (terminal : t.terminal = true) : t'.terminal = true := by
  rcases step_reports step with ⟨same, _⟩ | ⟨_, sealed, _⟩ | resumes
  · grind
  · exact sealed
  · rw [resumes.unsealed] at terminal
    cases terminal

theorem step_unsealed (other : label ≠ .sealAdmission) : t'.terminal = t.terminal := by
  rcases step_reports step with ⟨same, _⟩ | ⟨sealing, _⟩ | resumes
  · exact same
  · grind
  · rw [resumes.unsealed, resumes.terminal]

theorem step_empty (closed : t.closed = true) (empty : t.live = []) : t'.live = [] := by
  cases step_effect step with
  | spared => grind
  | accepted _ accepts =>
    have admitted := accepts.isOpen
    rw [closed] at admitted
    cases admitted
  | advanced _ advances =>
    obtain ⟨before, rest, split, _⟩ := advances.replaced
    rw [empty] at split
    simp at split

end

theorem Guarded.step (guarded : Guarded t) (step : Step t label t') : Guarded t' := by
  rcases step_reports step with ⟨sealing, ⟨fault, closed⟩ | ⟨shut, _⟩⟩ | ⟨_, _, shut, _⟩ | resumes
  · constructor
    · rw [fault, closed]
      exact guarded.faulted
    · rw [sealing, closed]
      exact guarded.terminal
  · exact ⟨fun _ => shut, fun _ => shut⟩
  · exact ⟨fun _ => shut, fun _ => shut⟩
  · constructor
    · exact fun faulted => absurd resumes.fault faulted
    · intro sealing
      rw [resumes.terminal] at sealing
      cases sealing

theorem guarded_new : Guarded .new :=
  ⟨fun faulted => absurd rfl faulted, fun terminal => Bool.noConfusion terminal⟩

theorem Guarded.of_run (run : Run trackerSystem .new labels t) : Guarded t :=
  run.invariant (fun _ _ _ guarded step => guarded.step step) guarded_new

/-- A fault is kept, and the tracker closed with it, through any further calls. -/
theorem faulted_run (run : Run trackerSystem t labels t') (guarded : Guarded t)
    (faulted : t.fault ≠ 0) : t'.fault = t.fault ∧ t'.closed = true := by
  have keeps (u : Tracker) (label : Label) (v : Tracker) (held : Guarded u ∧ u.fault = t.fault)
      (step : trackerSystem.step u label v) : Guarded v ∧ v.fault = t.fault := by
    obtain ⟨guarded, same⟩ := held
    exact ⟨guarded.step step, (step_faulted step (same ▸ faulted)).trans same⟩
  obtain ⟨guarded, same⟩ := run.invariant keeps ⟨guarded, rfl⟩
  exact ⟨same, guarded.faulted (same ▸ faulted)⟩

/-- The slots of a tracker that has accepted this many buffers, in whatever order they lie. -/
structure Orderly (live : List Active) (accepted : Nat) : Prop where
  tickets : (live.map Active.ticket).Nodup
  bounded : ∀ a ∈ live, 0 < a.ticket.raw.toNat ∧ a.ticket.raw.toNat ≤ accepted
  queued : live.Pairwise fun a b => a.stage = .queued → b.stage = .queued → a.pointer ≠ b.pointer
  nonzero : ∀ a ∈ live, a.pointer ≠ 0
  unfinished : ∀ a ∈ live, a.finished = false

variable {accepted : Nat} {a : Active} {rest : List Active} {pointer : Nat} {ticket : Ticket}
  {a' : Active}

theorem Orderly.perm {first second : List Active} (same : first.Perm second)
    (orderly : Orderly first accepted) : Orderly second accepted where
  tickets := (same.map _).nodup_iff.mp orderly.tickets
  bounded := fun a member => orderly.bounded a (same.mem_iff.mpr member)
  queued := by
    refine (same.pairwise_iff ?_).mp orderly.queued
    exact fun differ second first => (differ first second).symm
  nonzero := fun a member => orderly.nonzero a (same.mem_iff.mpr member)
  unfinished := fun a member => orderly.unfinished a (same.mem_iff.mpr member)

theorem orderly_middle {before after : List Active} :
    Orderly (before ++ a :: after) accepted ↔ Orderly (a :: (before ++ after)) accepted :=
  ⟨Orderly.perm perm_middle, Orderly.perm perm_middle.symm⟩

theorem Orderly.tail (orderly : Orderly (a :: rest) accepted) : Orderly rest accepted where
  tickets := (nodup_cons.mp orderly.tickets).2
  bounded := (forall_mem_cons.mp orderly.bounded).2
  queued := (pairwise_cons.mp orderly.queued).2
  nonzero := (forall_mem_cons.mp orderly.nonzero).2
  unfinished := (forall_mem_cons.mp orderly.unfinished).2

theorem Orderly.accept (orderly : Orderly rest accepted) (next : ticket.raw.toNat = accepted + 1)
    (nonzero : pointer ≠ 0) (unqueued : ∀ a ∈ rest, isQueued pointer a = false) :
    Orderly (⟨ticket, pointer, .queued, false⟩ :: rest) (accepted + 1) where
  tickets := by
    refine nodup_cons.mpr ⟨?_, orderly.tickets⟩
    intro member
    obtain ⟨a, live, same⟩ := mem_map.mp member
    have bound := (orderly.bounded a live).2
    rw [same] at bound
    dsimp only at bound
    omega
  bounded := by
    refine forall_mem_cons.mpr ⟨by dsimp only; omega, fun a old => ?_⟩
    have bound := orderly.bounded a old
    omega
  queued := by
    refine pairwise_cons.mpr ⟨?_, orderly.queued⟩
    intro a live _ queued same
    have free := unqueued a live
    simp [isQueued, queued, ← same] at free
  nonzero := forall_mem_cons.mpr ⟨nonzero, orderly.nonzero⟩
  unfinished := forall_mem_cons.mpr ⟨rfl, orderly.unfinished⟩

theorem Orderly.advance (orderly : Orderly (a :: rest) accepted) (ticket : a'.ticket = a.ticket)
    (pointer : a'.pointer = a.pointer) (unqueues : a'.stage = .queued → a.stage = .queued)
    (unfinished : a'.finished = false) : Orderly (a' :: rest) accepted where
  tickets := by
    rw [map_cons, ticket]
    exact orderly.tickets
  bounded := by
    obtain ⟨own, others⟩ := forall_mem_cons.mp orderly.bounded
    rw [← ticket] at own
    exact forall_mem_cons.mpr ⟨own, others⟩
  queued := by
    obtain ⟨first, others⟩ := pairwise_cons.mp orderly.queued
    refine pairwise_cons.mpr ⟨?_, others⟩
    intro b live queued
    rw [pointer]
    exact first b live (unqueues queued)
  nonzero := by
    obtain ⟨own, others⟩ := forall_mem_cons.mp orderly.nonzero
    rw [← pointer] at own
    exact forall_mem_cons.mpr ⟨own, others⟩
  unfinished :=
    forall_mem_cons.mpr ⟨unfinished, (forall_mem_cons.mp orderly.unfinished).2⟩

structure Accounted (t : Tracker) : Prop where
  orderly : Orderly t.live t.diagnostic.accepted.toNat
  balance : t.diagnostic.accepted.toNat =
    t.diagnostic.processed.toNat + t.diagnostic.dropped.toNat + t.live.length
  pending : t.diagnostic.pending.toNat = t.live.length

theorem accounted_new : Accounted .new where
  orderly := ⟨nodup_nil, nofun, .nil, nofun, nofun⟩
  balance := rfl
  pending := rfl

theorem Accounted.accepts (accounted : Accounted t) (accepts : Accepts t t' ticket pointer) :
    Accounted t' := by
  obtain ⟨before, after, split, inserted⟩ := accepts.inserted
  have room := t'.slots.length_live_le
  have length : t'.live.length = t.live.length + 1 := by
    rw [split, inserted, length_append, length_cons, length_append]
    omega
  have sequence : t'.diagnostic.accepted.toNat = t.diagnostic.accepted.toNat + 1 := by
    rw [accepts.accepted, accepts.next]
  refine ⟨?_, ?_, ?_⟩
  · rw [inserted, orderly_middle, sequence]
    refine Orderly.accept ?_ accepts.next accepts.nonzero ?_
    · exact split ▸ accounted.orderly
    · exact split ▸ accepts.unqueued
  · rw [sequence, accepts.processed, accepts.dropped, length, accounted.balance]
    omega
  · have fits : t.live.length + 1 ≤ capacity := length ▸ room
    have small : capacity = 32 := rfl
    rw [accepts.pending, UInt32.toNat_add, accounted.pending, length, UInt32.toNat_one]
    omega

theorem Accounted.advances (accounted : Accounted t) (advances : Advances t t' a a') :
    Accounted t' := by
  obtain ⟨before, after, split, replaced⟩ := advances.replaced
  have orderly := orderly_middle.mp (split ▸ accounted.orderly)
  have length : t.live.length = (before ++ after).length + 1 := by
    rw [split, length_append, length_cons, length_append]
    omega
  have balance := accounted.balance
  have pending := accounted.pending
  have bound := t.diagnostic.accepted.toNat_lt
  cases finished : a'.finished with
  | false =>
    simp only [finished, Bool.false_eq_true, if_false, toList_some,
      singleton_append] at replaced
    have same : t'.live.length = t.live.length := by
      rw [replaced, length_append, length_cons, length, length_append]
      omega
    refine ⟨?_, ?_, ?_⟩
    · rw [replaced, orderly_middle, advances.accepted]
      exact orderly.advance advances.ticket advances.pointer advances.unqueues finished
    · simp [advances.accepted, advances.processed, advances.dropped, finished, same, balance]
    · simp [advances.pending, finished, same, pending]
  | true =>
    simp only [finished, if_true, toList_none, nil_append] at replaced
    have fewer : t.live.length = t'.live.length + 1 := by rw [replaced, length]
    refine ⟨?_, ?_, ?_⟩
    · rw [replaced, advances.accepted]
      exact orderly.tail
    · have processed := Machine.toNat_succ (a := t.diagnostic.processed) (by omega)
      have dropped := Machine.toNat_succ (a := t.diagnostic.dropped) (by omega)
      rw [advances.accepted, advances.processed, advances.dropped, finished]
      cases executed : a'.stage == .executed with
      | true | false => grind
    · have positive : (1 : UInt32) ≤ t.diagnostic.pending := by
        rw [UInt32.le_iff_toNat_le, UInt32.toNat_one]
        omega
      rw [advances.pending, finished, if_pos rfl, UInt32.toNat_sub_of_le _ _ positive,
        UInt32.toNat_one]
      omega

theorem Accounted.step (accounted : Accounted t) (step : Step t label t') : Accounted t' := by
  cases step_effect step with
  | spared slots counts =>
    have same : t'.live = t.live := congrArg Storage.Slots.live slots
    refine ⟨?_, ?_, ?_⟩
    · rw [same, counts.accepted]
      exact accounted.orderly
    · rw [counts.accepted, counts.processed, counts.dropped, same]
      exact accounted.balance
    · rw [counts.pending, same]
      exact accounted.pending
  | accepted _ accepts => exact accounted.accepts accepts
  | advanced _ advances => exact accounted.advances advances

theorem Accounted.of_run (run : Run trackerSystem .new labels t) : Accounted t :=
  run.invariant (fun _ _ _ accounted step => accounted.step step) accounted_new

theorem begin_inv (step : Step t (.begin pointer (.ok ticket)) t') :
    Accepts t t' ticket pointer := by
  generalize named : Label.begin pointer (.ok ticket) = label at step
  cases step with
  | begin =>
    obtain ⟨rfl, went⟩ := Label.begin.inj named
    exact begin_accepts went.symm
  | _ => cases named

theorem accepted_le_of_run (run : Run trackerSystem t labels t') :
    t.diagnostic.accepted.toNat ≤ t'.diagnostic.accepted.toNat := by
  induction run with
  | start => exact Nat.le_refl _
  | next _ step =>
    cases step_effect step with
    | spared _ counts => rwa [counts.accepted]
    | accepted _ accepts =>
      rw [accepts.accepted, accepts.next]
      omega
    | advanced _ advances => rwa [advances.accepted]

theorem tickets_increase {first rest : List Label} {other : Nat} {later : Ticket}
    (run : Run trackerSystem t (first ++ .begin pointer (.ok ticket) :: rest) t')
    (member : .begin other (.ok later) ∈ rest) : ticket.raw.toNat < later.raw.toNat := by
  obtain ⟨_, after, _, accepts, tail⟩ := run.step_at
  obtain ⟨between, last, rfl⟩ := append_of_mem member
  obtain ⟨before, _, middle, acceptsLater, _⟩ := tail.step_at
  have grown := accepted_le_of_run middle
  rw [(begin_inv accepts).accepted] at grown
  have next := (begin_inv acceptsLater).next
  omega

/-- After any calls the counters account for every accepted buffer, each occupied slot has a ticket
of its own, and no address is queued twice. A first fault stays and keeps the tracker closed. -/
theorem host_tx_accounts_for_tickets (run : Run trackerSystem .new labels t) :
    t.diagnostic.accepted.toNat = t.diagnostic.processed.toNat + t.diagnostic.dropped.toNat +
        t.diagnostic.pending.toNat ∧
      t.diagnostic.pending.toNat = t.live.length ∧ t.live.length ≤ 32 ∧
      (t.live.map Active.ticket).Nodup ∧
      (∀ a ∈ t.live, a.ticket.raw.toNat ≤ t.diagnostic.accepted.toNat) ∧
      (∀ first pointer ticket rest other later,
        labels = first ++ .begin pointer (.ok ticket) :: rest → .begin other (.ok later) ∈ rest →
          ticket.raw.toNat < later.raw.toNat) ∧
      (t.live.Pairwise fun a b => a.stage = .queued → b.stage = .queued → a.pointer ≠ b.pointer) ∧
      (∀ a ∈ t.live, a.pointer ≠ 0) ∧ (t.fault ≠ 0 → ∀ more t', Run trackerSystem t more t' →
        t'.fault = t.fault ∧ t'.closed = true) := by
  have accounted := Accounted.of_run run
  refine ⟨?_, accounted.pending, t.slots.length_live_le, accounted.orderly.tickets,
    fun a live => (accounted.orderly.bounded a live).2, ?_, accounted.orderly.queued,
    accounted.orderly.nonzero, ?_⟩
  · rw [accounted.pending]
    exact accounted.balance
  · rintro first pointer ticket rest other later rfl member
    exact tickets_increase run member
  · intro faulted more t' further
    exact faulted_run further (Guarded.of_run run) faulted

theorem reused_address_accounted :
    (((Tracker.new.begin 7).2.dispatch 7).2.begin 7).2.live.length = 2 ∧
      ((((Tracker.new.begin 7).2.dispatch 7).2.begin 7).2.live.map Active.ticket).Nodup :=
  ⟨by decide +kernel, (host_tx_accounts_for_tickets
    (.next (.next (.next .start (.begin 7)) (.dispatch 7)) (.begin 7))).2.2.2.1⟩

def history (ticket : Ticket) (labels : List Label) : List Handling :=
  labels.filterMap (Label.handling ticket)

/-- The statuses with which the posting call of this ticket returned. -/
def posts (ticket : Ticket) (labels : List Label) : List Int32 :=
  labels.filterMap (Label.posting ticket)

/-- The two logs of a ticket that was never given out, that occupies a slot, or that is done. -/
inductive Told (t : Tracker) (ticket : Ticket) (handled : List Handling) (posted : List Int32) :
    Prop where
  | unused (outside : t.diagnostic.accepted.toNat < ticket.raw.toNat ∨ ticket.raw.toNat = 0)
      (silent : handled = [] ∧ posted = [])
  | held {a : Active} (live : a ∈ t.live) (own : a.ticket = ticket)
      (logged : handled = a.history ∧ posted = a.posts)
  | retired {pointer : Nat} {freeing : Bool} (gone : ∀ a ∈ t.live, a.ticket ≠ ticket)
      (used : 0 < ticket.raw.toNat ∧ ticket.raw.toNat ≤ t.diagnostic.accepted.toNat)
      (handled : handled = [.begun pointer, .taken freeing pointer, .completed freeing 0])
      (posted : posted = [0])

theorem finished_logs (finished : a.finished = true) :
    (∃ freeing, a.history = [.begun a.pointer, .taken freeing a.pointer, .completed freeing 0]) ∧
      a.posts = [0] := by
  simp only [Active.finished, Bool.and_eq_true, Bool.or_eq_true, beq_iff_eq] at finished
  obtain ⟨returned, stage⟩ := finished
  refine ⟨?_, by rw [Active.posts, returned]; rfl⟩
  rcases stage with executed | freed
  · exact ⟨false, by rw [Active.history, executed]⟩
  · exact ⟨true, by rw [Active.history, freed]⟩

theorem aims_silent (aims : label.Aims a) (other : a.ticket ≠ ticket) :
    label.handling ticket = none ∧ label.posting ticket = none := by
  cases aims <;> simp [Label.handling, Label.posting, other]

theorem Accounted.same_slot (accounted : Accounted t) {b : Active} (first : a ∈ t.live)
    (second : b ∈ t.live) (same : a.ticket = b.ticket) : a = b :=
  inj_on_of_nodup_map accounted.orderly.tickets first second same

variable {handled : List Handling} {posted : List Int32}

section

variable (told : Told t ticket handled posted) (accounted : Accounted t)
include told accounted

theorem Told.accepts {fresh : Ticket} (accepts : Accepts t t' fresh pointer) :
    Told t' ticket (handled ++ (Label.handling ticket (.begin pointer (.ok fresh))).toList)
      posted := by
  obtain ⟨before, after, split, inserted⟩ := accepts.inserted
  have next := accepts.next
  have mem_iff (a : Active) : a ∈ t'.live ↔ a = ⟨fresh, pointer, .queued, false⟩ ∨ a ∈ t.live := by
    rw [inserted, split]
    simp only [mem_append, mem_cons]
    tauto
  by_cases same : fresh = ticket
  · -- The ticket is one more than all that were accepted, so it was not used before.
    subst same
    have spoken : (Label.handling fresh (.begin pointer (.ok fresh))).toList = [.begun pointer] := by
      simp [Label.handling]
    cases told with
    | unused _ silent =>
      obtain ⟨rfl, rfl⟩ := silent
      rw [spoken]
      exact .held ((mem_iff _).mpr (.inl rfl)) rfl ⟨rfl, rfl⟩
    | @held a live own =>
      have bound := (accounted.orderly.bounded a live).2
      rw [own] at bound
      omega
    | retired => omega
  have spoken : (Label.handling ticket (.begin pointer (.ok fresh))).toList = [] := by
    simp [Label.handling, same]
  rw [spoken, append_nil]
  cases told with
  | unused outside silent =>
    refine .unused ?_ silent
    have differ : fresh.raw.toNat ≠ ticket.raw.toNat := by
      intro equal
      exact same (congrArg Ticket.mk (UInt64.toNat_inj.mp equal))
    rw [accepts.accepted]
    omega
  | held live own logged => exact .held ((mem_iff _).mpr (.inr live)) own logged
  | retired gone used whole clean =>
    refine .retired ?_ ?_ whole clean
    · grind
    · rw [accepts.accepted]
      omega

theorem Told.advances (aims : label.Aims a) (advances : Advances t t' a a')
    (logged : a'.history = a.history ++ (label.handling a.ticket).toList ∧ a'.posts = a.posts ++
      (label.posting a.ticket).toList) :
    Told t' ticket (handled ++ (label.handling ticket).toList)
      (posted ++ (label.posting ticket).toList) := by
  obtain ⟨before, after, split, replaced⟩ := advances.replaced
  have member : a ∈ t.live := by simp [split]
  have others (b : Active) (differ : b.ticket ≠ a.ticket) : b ∈ t'.live ↔ b ∈ t.live := by
    have first : b ≠ a := fun same => differ (congrArg Active.ticket same)
    have second : b ≠ a' := fun same => differ ((congrArg Active.ticket same).trans advances.ticket)
    rw [replaced, split]
    cases a'.finished <;> simp [first, second]
  have bounds := accounted.orderly.bounded a member
  by_cases same : a.ticket = ticket
  · subst same
    have slot : handled = a.history ∧ posted = a.posts := by
      cases told with
      | unused => omega
      | held live own => rwa [accounted.same_slot member live own.symm]
      | retired => grind
    rw [slot.1, slot.2, ← logged.1, ← logged.2]
    cases finished : a'.finished with
    | false =>
      refine .held (a := a') ?_ advances.ticket ⟨rfl, rfl⟩
      simp [replaced, finished]
    | true =>
      obtain ⟨⟨freeing, whole⟩, clean⟩ := finished_logs finished
      refine .retired ?_ (by rwa [advances.accepted]) whole clean
      intro b live own
      -- The cleared slot was the only one with this ticket.
      have distinct := (orderly_middle.mp (split ▸ accounted.orderly)).tickets
      rw [replaced, finished] at live
      refine (nodup_cons.mp distinct).1 (mem_map.mpr ⟨b, ?_, own⟩)
      simpa using live
  obtain ⟨quiet, unposted⟩ := aims_silent aims same
  rw [quiet, unposted, toList_none, toList_none, append_nil, append_nil]
  cases told with
  | unused outside silent => exact .unused (by rwa [advances.accepted]) silent
  | held live own logs =>
    exact .held ((others _ fun equal => same (equal.symm.trans own)).mpr live) own logs
  | retired gone used whole clean =>
    refine .retired ?_ (by rwa [advances.accepted]) whole clean
    intro b live own
    exact gone b ((others b fun equal => same (equal.symm.trans own)).mp live) own

theorem Told.step (step : Step t label t') (fine : t'.fault = 0) :
    Told t' ticket (handled ++ (label.handling ticket).toList)
      (posted ++ (label.posting ticket).toList) := by
  cases step_effect step with
  | spared slots counts silent =>
    obtain ⟨quiet, unposted⟩ := silent fine ticket
    rw [quiet, unposted, toList_none, toList_none, append_nil, append_nil]
    have live : t'.live = t.live := congrArg Storage.Slots.live slots
    cases told with
    | unused outside silent => exact .unused (by rwa [counts.accepted]) silent
    | held member own logs => exact .held (by rwa [live]) own logs
    | retired gone used whole clean =>
      exact .retired (by rwa [live]) (by rwa [counts.accepted]) whole clean
  | accepted named accepts =>
    subst named
    exact (append_nil posted).symm ▸ told.accepts accounted accepts
  | advanced aims advances _ logged => exact told.advances accounted aims advances (logged fine)

end

/-- Without a fault the two logs of every ticket can be read off the slots. -/
theorem told_of_run (run : Run trackerSystem .new labels t) (fine : t.fault = 0) (ticket : Ticket) :
    Told t ticket (history ticket labels) (posts ticket labels) := by
  induction run with
  | start =>
    refine .unused ?_ ⟨rfl, rfl⟩
    have zero : new.diagnostic.accepted.toNat = 0 := rfl
    omega
  | @next earlier before after label run step ih =>
    have unfaulted : before.fault = 0 := by
      by_contra faulted
      exact faulted ((step_faulted step faulted).symm.trans fine)
    unfold history posts
    rw [filterMap_concat, filterMap_concat]
    exact (ih unfaulted).step (Accounted.of_run run) step fine

theorem drained_eq_true (drained : t.drained = .ok true) :
    t.fault = 0 ∧ t.closed = true ∧ t.diagnostic.pending = 0 := by
  unfold Tracker.drained at drained
  split at drained
  · cases drained
  next fine => grind

theorem begun_of_mem (member : .begin pointer (.ok ticket) ∈ labels) :
    .begun pointer ∈ history ticket labels :=
  mem_filterMap.mpr ⟨_, member, by simp [Label.handling]⟩

/-- When nothing is left the logs of an accepted ticket are complete. -/
theorem complete_of_drained (run : Run trackerSystem .new labels t) (drained : t.drained = .ok true)
    (accepted : .begin pointer (.ok ticket) ∈ labels) :
    posts ticket labels = [0] ∧ ∃ freeing, history ticket labels =
      [.begun pointer, .taken freeing pointer, .completed freeing 0] := by
  obtain ⟨fine, _, empty⟩ := drained_eq_true drained
  have begun := begun_of_mem accepted
  cases told_of_run run fine ticket with
  | held live =>
    have counted := (Accounted.of_run run).pending
    rw [empty, UInt32.toNat_zero] at counted
    rw [length_eq_zero_iff.mp counted.symm] at live
    cases live
  | unused | retired => grind

/-- Only a call that names a slot changes it, and only one that can finish its ticket clears it. -/
theorem step_retires (step : Step t label t') (live : a ∈ t.live) : (a ∈ t'.live ∨ label.Aims a) ∧
      ((∃ b ∈ t'.live, b.ticket = a.ticket) ∨ label.Ends a.ticket) := by
  have stays (kept : a ∈ t'.live) : (a ∈ t'.live ∨ label.Aims a) ∧
      ((∃ b ∈ t'.live, b.ticket = a.ticket) ∨ label.Ends a.ticket) :=
    ⟨.inl kept, .inl ⟨a, kept, rfl⟩⟩
  cases step_effect step with
  | spared => grind
  | accepted _ accepts =>
    obtain ⟨before, after, split, inserted⟩ := accepts.inserted
    apply stays
    rw [split] at live
    rw [inserted]
    exact (Sublist.append_left (sublist_cons_self _ _) _).mem live
  | @advanced c c' aims advances =>
    obtain ⟨before, after, split, replaced⟩ := advances.replaced
    rw [split] at live
    by_cases same : a = c
    · subst same
      refine ⟨.inr aims, ?_⟩
      cases finished : c'.finished with
      | false => exact .inl ⟨c', by grind, advances.ticket⟩
      | true => grind
    · grind

theorem sealed_refuses {first rest : List Label}
    (run : Run trackerSystem .new (first ++ .sealAdmission :: rest) t) :
    .begin pointer (.ok ticket) ∉ rest := by
  intro member
  obtain ⟨earlier, last, rfl⟩ := append_of_mem member
  obtain ⟨before, sealed, reached, sealing, tail⟩ := run.step_at
  obtain ⟨late, _, between, accepts, _⟩ := tail.step_at
  have terminal : sealed.terminal = true := by
    cases sealing
    rfl
  have kept := between.invariant (fun _ _ _ kept step => step_terminal step kept) terminal
  have guarded := Guarded.of_run ((reached.next sealing).trans between)
  have shut := guarded.terminal kept
  rw [(begin_inv accepts).isOpen] at shut
  cases shut

/-- A drained tracker is closed, never had a fault, and each ticket it gave out had exactly one
return of its post and exactly one completed dispatch or free, all of them with status zero. A call
cannot clear the slot of a ticket it does not carry; a seal is final; only a resume reopens, and it
finds nothing pending, no fault and no seal. -/
theorem host_tx_drained_means_finished (run : Run trackerSystem .new labels t) :
    (t.drained = .ok true → t.closed = true ∧
      (∀ first rest u, labels = first ++ rest → Run trackerSystem .new first u →
        Run trackerSystem u rest t → u.fault = 0) ∧
      ∀ pointer ticket, .begin pointer (.ok ticket) ∈ labels → posts ticket labels = [0] ∧
        ∃ freeing, history ticket labels =
          [.begun pointer, .taken freeing pointer, .completed freeing 0]) ∧
      (∀ label t', Step t label t' → ∀ a ∈ t.live, (a ∈ t'.live ∨ label.Aims a) ∧
        ((∃ b ∈ t'.live, b.ticket = a.ticket) ∨ label.Ends a.ticket)) ∧
      (∀ first rest, labels = first ++ .sealAdmission :: rest →
        ∀ pointer ticket, .begin pointer (.ok ticket) ∉ rest) ∧
      ∀ label t', Step t label t' → t.closed = true → t'.closed = false →
        label = .resumeHandshake 0 (.ok ()) ∧ t.live = [] ∧ t.fault = 0 ∧ t.terminal = false := by
  refine ⟨?_, ?_, ?_, ?_⟩
  · intro drained
    obtain ⟨fine, closed, _⟩ := drained_eq_true drained
    refine ⟨closed, ?_, fun pointer ticket => complete_of_drained run drained⟩
    intro first rest u _ reached later
    by_contra faulted
    have kept := (faulted_run later (Guarded.of_run reached) faulted).1
    exact faulted (kept.symm.trans fine)
  · intro label t' step a live
    exact step_retires step live
  · rintro first rest rfl pointer ticket
    exact sealed_refuses run
  · intro label t' step closed opened
    have resumes := step_opens step closed opened
    refine ⟨resumes.named, ?_, resumes.unfaulted, resumes.unsealed⟩
    apply length_eq_zero_iff.mp
    rw [← (Accounted.of_run run).pending, resumes.drained, UInt32.toNat_zero]

/-- One buffer that is dispatched before its posting call has returned. -/
def oneBuffer : Tracker :=
  ((((new.begin 7).2.dispatch 7).2.complete ⟨1⟩ false 0).postReturned ⟨1⟩ 0).close

theorem oneBuffer_finished : oneBuffer.drained = .ok true ∧ posts ⟨1⟩
    [.begin 7 (Tracker.new.begin 7).1, .dispatch 7 ((Tracker.new.begin 7).2.dispatch 7).1,
      .complete ⟨1⟩ false 0, .postReturned ⟨1⟩ 0, .close] = [0] := by
  have fresh : Run trackerSystem .new [] .new := .start
  have run := ((((fresh.next (.begin 7)).next (.dispatch 7)).next (.complete ⟨1⟩ false 0)).next
    (.postReturned ⟨1⟩ 0)).next .close
  have drained : oneBuffer.drained = .ok true := by decide +kernel
  have finished := (host_tx_drained_means_finished run).1 drained
  refine ⟨drained, (finished.2.2 7 ⟨1⟩ ?_).1⟩
  exact mem_cons_self

end HisiRf.HostTx
