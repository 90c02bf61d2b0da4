import HisiRf.Supplicant.Custody

/-! The native disconnect calls of all threads together.

The custodian of a request enters the native call over a drained tracker and
stays the custodian until the result is reported, so that transmission is closed
for the whole of that time. There is one custodian at a time and requests are
taken in the order of their numbers, which orders the calls.
-/

namespace HisiRf.Teardown

open Interaction Function List Deauth PoolLabel
open Deauth (Ticket completions queueSystem Label ticketOf Request)

variable {labels middle : List (PoolLabel ops)} {label : PoolLabel ops}

variable {crew next : Crew World Custody}

variable {pool : Pool ops World}

theorem anyJob_obeys (i : Nat) (task : Task Unit) (phase : Custody) (given : anyJob i task)
    (idle : phase = .idle) : task.Obeys custody (fun _ phase => phase = .idle) phase := by
  obtain ⟨job, rfl⟩ := given
  subst idle
  exact job.returns

abbrev Custodians (pool : Pool ops World) (crew : Crew World Custody) : Prop :=
  Manned custody (fun _ phase => phase = .idle) pool crew

theorem Kept.step (kept : Kept crew.world crew.phases) (step : CrewStep Atom custody crew label next) :
    Kept next.world next.phases := by
  cases step with
  | start => exact kept
  | act allowed taken => exact kept.act allowed taken

theorem kept_of_run (run : Run (crewSystem Atom custody) ⟨.boot, fun _ => .idle⟩ labels crew) :
    Kept crew.world crew.phases := by
  induction run with
  | start => exact kept_boot
  | next _ step ih => exact ih.step step

theorem custodians_of_run (run : Run crowd (.new .boot) labels pool) :
    ∃ crew, Run (crewSystem Atom custody) ⟨.boot, fun _ => .idle⟩ labels crew ∧
      Custodians pool crew := by
  have fresh : Custodians (.new .boot) ⟨.boot, fun _ => .idle⟩ := manned_new fun _ => rfl
  exact fresh.run anyJob_obeys run

variable {i : Nat} {ticket : Ticket}

def Returned (i : Nat) (labels : List (PoolLabel ops)) : Prop :=
  ∃ status, .act i ⟨.leaveDisconnect, status⟩ ∈ labels

def Completed (ticket : Ticket) (labels : List (PoolLabel ops)) : Prop :=
  ∃ j status result, .act j ⟨.queue (.complete ticket status), result⟩ ∈ labels

def NoneAccepted (labels : List (PoolLabel ops)) : Prop :=
  ∀ j pointer accepted, .act j ⟨.hostTx (.begin pointer), .ok accepted⟩ ∉ labels

/-- Where the call of thread `i` stands after the labels since it was entered. -/
inductive Window (i : Nat) (ticket : Ticket) (labels : List (PoolLabel ops))
    (phase : Custody) : Prop where
  | inside (calling : phase = .calling ticket) (none : NoneAccepted labels)
  | behind (returned : phase = .returned ticket) (left : Returned i labels)
      (none : NoneAccepted labels)
  | ended (left : Returned i labels) (completed : Completed ticket labels)

theorem NoneAccepted.step (none : NoneAccepted labels) (closed : crew.world.hostTx.closed = true)
    (step : CrewStep Atom custody crew label next) : NoneAccepted (labels ++ [label]) := by
  intro j pointer accepted member
  rcases mem_append.mp member with old | new
  · exact none j pointer accepted old
  · rw [← mem_singleton.mp new] at step
    cases step with
    | act _ taken =>
      have isOpen := taken.begin_open
      rw [closed] at isOpen
      cases isOpen

theorem Returned.more (left : Returned i labels) : Returned i (labels ++ [label]) := by
  obtain ⟨status, member⟩ := left
  exact ⟨status, mem_append_left _ member⟩

theorem Completed.more (completed : Completed ticket labels) :
    Completed ticket (labels ++ [label]) := by
  obtain ⟨j, status, result, member⟩ := completed
  exact ⟨j, status, result, mem_append_left _ member⟩

/-- An action that leaves the phase alone leaves the call where it is. -/
theorem Window.more {phase : Custody} (window : Window i ticket labels phase)
    (none : phase.settled = true → NoneAccepted labels → NoneAccepted (labels ++ [label])) :
    Window i ticket (labels ++ [label]) phase := by
  cases window with
  | inside calling quiet => exact .inside calling (none (by rw [calling]; rfl) quiet)
  | behind returned left quiet => exact .behind returned left.more (none (by rw [returned]; rfl) quiet)
  | ended left completed => exact .ended left.more completed.more

theorem Window.turn {w w' : World} {phase phase' : Custody} {exchange : Exchange ops}
    (window : Window i ticket labels phase) (turn : Turn w w' phase phase' exchange)
    (none : phase.settled = true → NoneAccepted labels →
      NoneAccepted (labels ++ [.act i exchange])) :
    Window i ticket (labels ++ [.act i exchange]) phase' := by
  have last : act i exchange ∈ labels ++ [.act i exchange] := by simp
  cases window with
  | inside calling quiet =>
    have still := none (by rw [calling]; rfl) quiet
    cases turn with
    | takes _ idle | drains _ idle | enters _ idle =>
      rw [calling] at idle
      cases idle
    | leaves other status held next _ named =>
      rw [calling] at held
      cases held
      exact .behind next ⟨status, named ▸ last⟩ still
    | completes => grind
    | passes next => exact .inside (next.trans calling) still
  | behind returned left quiet =>
    have still := none (by rw [returned]; rfl) quiet
    cases turn with
    | takes _ idle | drains _ idle | enters _ idle | leaves _ _ idle =>
      rw [returned] at idle
      cases idle
    | completes other status result held _ named =>
      rw [returned] at held
      rcases held with held | held
      · cases held
      · cases held
        exact .ended left.more ⟨i, status, result, named ▸ last⟩
    | passes next => exact .behind (next.trans returned) left.more still
  | ended left completed => exact .ended left.more completed.more

section

variable (window : Window i ticket labels (crew.phases i)) (kept : Kept crew.world crew.phases)
include window kept

/-- The step lemma: until both have happened the thread is in its call or behind it. -/
theorem Window.step (step : CrewStep Atom custody crew label next) :
    Window i ticket (labels ++ [label]) (next.phases i) := by
  have none (settled : (crew.phases i).settled = true) (quiet : NoneAccepted labels) :
      NoneAccepted (labels ++ [label]) := quiet.step (kept.quiet i settled).closed step
  cases step with
  | start => exact window.more none
  | @act j o reply after allowed taken =>
    by_cases same : i = j
    · subst same
      obtain ⟨waiting, ring⟩ := kept.ring
      simp only [update_self]
      exact window.turn (turn_of_atom ring allowed taken) none
    · simp only [update_of_ne same]
      exact window.more none

theorem Window.run (run : Run (crewSystem Atom custody) crew middle next) :
    Window i ticket (labels ++ middle) (next.phases i) ∧ Kept next.world next.phases := by
  induction run with
  | start => grind
  | next _ step ih =>
    rw [← append_assoc]
    exact ⟨ih.1.step ih.2 step, ih.2.step step⟩

end

/-- Whatever the threads do, a native disconnect is entered over a closed and empty tracker, and
until it has returned and its ticket is completed no post is accepted and admission stays closed. -/
theorem host_tx_closed_during_disconnect {first : List (PoolLabel ops)}
    {before entered after : Pool ops World} {i : Nat} {request : Request}
    (reached : Run crowd (.new .boot) first before)
    (enters : crowd.step before (.act i ⟨.enterDisconnect request, ()⟩) entered)
    (goesOn : Run crowd entered middle after)
    (unfinished : ¬ (Returned i middle ∧ Completed request.ticket middle)) :
    before.world.hostTx.closed = true ∧ before.world.hostTx.live = [] ∧
      before.world.hostTx.diagnostic.pending = 0 ∧ after.world.hostTx.closed = true ∧
      NoneAccepted middle := by
  obtain ⟨crew, run, manned⟩ := custodians_of_run reached
  have kept := kept_of_run run
  obtain ⟨calling, step, entering⟩ := manned.step anyJob_obeys enters
  obtain ⟨last, goingOn, ending⟩ := entering.run anyJob_obeys goesOn
  obtain ⟨drained, called⟩ : crew.phases i = .drained request.ticket ∧
      calling.phases i = .calling request.ticket := by
    cases step with
    | act allowed =>
      have drained : crew.phases i = .drained request.ticket := allowed
      refine ⟨drained, ?_⟩
      simp only [update_self, drained]
      rfl
  have quiet : Quiet before.world.hostTx := by
    rw [← manned.world]
    exact kept.quiet i (by rw [drained]; rfl)
  have none : NoneAccepted [] := fun _ _ _ => not_mem_nil
  obtain ⟨window, later⟩ := Window.run (.inside called none) (kept.step step) goingOn
  have accounted := manned.world ▸ kept.accounted
  have empty : before.world.hostTx.diagnostic.pending = 0 := by
    rw [← UInt32.toNat_inj, accounted.pending, quiet.empty]
    rfl
  have closed (settled : (last.phases i).settled = true) : after.world.hostTx.closed = true := by
    rw [← ending.world]
    exact (later.quiet i settled).closed
  refine ⟨quiet.closed, quiet.empty, empty, ?_⟩
  cases window with
  | inside still accepted | behind still _ accepted =>
    exact ⟨closed (by rw [still]; rfl), accepted⟩
  | ended => grind

def Op.entersDisconnect : Op → Bool
  | .enterDisconnect _ => true
  | _ => false

/-- The worker is started and another thread disconnects inline, up to the native call. -/
theorem inline_disconnect_enters_quietly :
    let started := drive smooth 4 Job.startDeauthWorker.task .boot
    let drained := drive smooth 6 (Job.disconnectInline 1 2).task started.2.2
    drained.2.1.asks Op.entersDisconnect = true ∧ drained.2.2.hostTx.closed = true ∧
      drained.2.2.hostTx.live = [] := by
  intro started drained
  have starts : Run crowd (.new .boot) _ ⟨started.2.2, _⟩ :=
    run_job smooth_atom 4 (i := 0) ⟨.startDeauthWorker, rfl⟩ rfl
  have drains := starts.trans
    (run_job smooth_atom 6 (i := 1) ⟨.disconnectInline 1 2, rfl⟩ rfl)
  have asks : drained.2.1.asks Op.entersDisconnect = true := by decide +kernel
  obtain ⟨o, next, calls, wanted⟩ := Program.asks_eq asks
  refine ⟨asks, ?_⟩
  cases o with
  | enterDisconnect request =>
    have quiet := host_tx_closed_during_disconnect drains
      (step_asked (update_self 1 _ _) calls (.enterDisconnect request)) .start
      (by rintro ⟨⟨_, member⟩, _⟩; cases member)
    exact ⟨quiet.1, quiet.2.1⟩
  | _ => cases wanted

def onQueue : PoolLabel ops → Option Label
  | .start _ => none
  | .act _ exchange => queueLabel exchange.op exchange.reply

def entering : PoolLabel ops → Option Ticket
  | .start _ => none
  | .act _ exchange => entered exchange

def leaving : PoolLabel ops → Bool
  | .start _ => false
  | .act _ exchange => left exchange

def calls (labels : List (PoolLabel ops)) : List Ticket := labels.filterMap entering

def finished (labels : List (PoolLabel ops)) : Nat :=
  (completions (labels.filterMap onQueue)).length

theorem finished_concat (labels : List (PoolLabel ops)) (i : Nat) (exchange : Exchange ops) :
    finished (labels ++ [.act i exchange]) =
      finished labels + (reported exchange).toList.length := by
  unfold finished reported completions
  rw [filterMap_concat]
  change ((labels.filterMap onQueue ++ (queueLabel exchange.op exchange.reply).toList).filterMap
    Label.completion).length = _
  cases queueLabel exchange.op exchange.reply with
  | none => simp
  | some =>
    rw [Option.toList_some, filterMap_concat, length_append]
    rfl

section

variable (run : Run (crewSystem Atom custody) ⟨.boot, fun _ => .idle⟩ labels crew)
include run

theorem queue_run : Run queueSystem .new (labels.filterMap onQueue) crew.world.queue := by
  refine run.project (fun crew => crew.world.queue) onQueue ?_
  intro before label after step
  cases step with
  | start => exact .inl ⟨rfl, rfl⟩
  | act _ taken => exact taken.queue_step

theorem running_number (runs : crew.world.queue.running = some ticket) :
    ticket.raw.toNat = finished labels + 1 := by
  obtain ⟨waiting, ledger⟩ := ledger_of_run (queue_run run)
  exact ledger.running runs

end

structure Ordered (labels : List (PoolLabel ops)) (phases : Nat → Custody) : Prop where
  increasing : (calls labels).Pairwise fun first second => first.raw.toNat < second.raw.toNat
  past : ∀ ticket ∈ calls labels, ticket.raw.toNat ≤ finished labels ∨
    ∃ i, phases i = .calling ticket ∨ phases i = .returned ticket
  busy : ∀ i ticket, phases i = .calling ticket →
    (calls labels).length = labels.countP leaving + 1
  free : (∀ i ticket, phases i ≠ .calling ticket) → (calls labels).length = labels.countP leaving

/-- The thread has entered its native call and has not reported the result. -/
def Custody.InCall (phase : Custody) (ticket : Ticket) : Prop :=
  phase = .calling ticket ∨ phase = .returned ticket

theorem Custody.InCall.own {phase : Custody} (inCall : phase.InCall ticket) :
    phase.ticket = some ticket := by
  rcases inCall with rfl | rfl <;> rfl

variable {w w' : World} {phase phase' : Custody} {exchange : Exchange ops}

theorem Turn.in_call (turn : Turn w w' phase phase' exchange) (inCall : phase.InCall ticket)
    (runs : w.queue.running = some ticket) :
    phase'.InCall ticket ∨ ∃ status, reported exchange = some (ticket, status) := by
  cases turn with
  | takes _ before | drains _ before | enters _ before =>
    rcases inCall with now | now <;> rw [now] at before <;> cases before
  | leaves other _ before next =>
    rcases inCall with now | now <;> rw [now] at before <;> cases before
    exact .inl (.inr next)
  | completes other status result before _ named own =>
    obtain rfl : other = ticket := by
      rcases inCall with now | now <;> rw [now] at before <;> rcases before with before | before <;>
        cases before
      rfl
    obtain ⟨_, rfl⟩ := own runs
    subst named
    exact .inr ⟨status, rfl⟩
  | passes next => exact .inl (next ▸ inCall)

theorem Turn.calls (turn : Turn w w' phase phase' exchange) :
    (entered exchange = none ∧ left exchange = false ∧
        ∀ ticket, phase' = .calling ticket ↔ phase = .calling ticket) ∨
      (∃ ticket, entered exchange = some ticket ∧ left exchange = false ∧
        phase = .drained ticket ∧ phase' = .calling ticket) ∨
      ∃ ticket, entered exchange = none ∧ left exchange = true ∧ phase = .calling ticket ∧
        phase' = .returned ticket := by
  cases turn with
  | enters request before next _ named =>
    subst named
    exact .inr (.inl ⟨request.ticket, rfl, rfl, before, next⟩)
  | leaves ticket _ before next _ named =>
    subst named
    exact .inr (.inr ⟨ticket, rfl, rfl, before, next⟩)
  | completes _ _ _ before next named =>
    subst named next
    refine .inl ⟨rfl, rfl, fun _ => ?_⟩
    rcases before with rfl | rfl <;> simp
  | _ => grind

variable {phases : Nat → Custody}

theorem calls_concat : calls (labels ++ [.act i exchange]) =
    calls labels ++ (entered exchange).toList := filterMap_concat entering labels (.act i exchange)

theorem leaving_concat : (labels ++ [act i exchange]).countP leaving =
    labels.countP leaving + (left exchange).toNat := by
  rw [countP_append, countP_singleton]
  change _ + (if left exchange = true then 1 else 0) = _
  cases left exchange <;> rfl

section

variable (ordered : Ordered labels phases) (kept : Kept w phases)
  (number : ∀ ticket, w.queue.running = some ticket → ticket.raw.toNat = finished labels + 1)
  (turn : Turn w w' (phases i) phase exchange)
include ordered kept number turn

theorem Ordered.past_turn (member : ticket ∈ calls labels) :
    ticket.raw.toNat ≤ finished (labels ++ [.act i exchange]) ∨
      ∃ j, (update phases i phase j).InCall ticket := by
  have grown := finished_concat labels i exchange
  rcases ordered.past ticket member with before | ⟨j, inCall⟩
  · left
    omega
  · by_cases same : j = i
    · subst same
      have runs := kept.held j ticket (Custody.InCall.own inCall)
      rcases turn.in_call inCall runs with still | ⟨status, noted⟩
      · exact .inr ⟨j, by rw [update_self]; exact still⟩
      · grind
    · exact .inr ⟨j, by rw [update_of_ne same]; exact inCall⟩

theorem Ordered.increasing_turn : (calls labels ++ (entered exchange).toList).Pairwise
      fun first second => first.raw.toNat < second.raw.toNat := by
  rcases turn.calls with ⟨none, _⟩ | ⟨ticket, noted, _, drained, _⟩ | ⟨_, none, _⟩
  · rw [none, Option.toList_none, append_nil]
    exact ordered.increasing
  · rw [noted, Option.toList_some]
    refine pairwise_append.mpr ⟨ordered.increasing, pairwise_singleton _ _, ?_⟩
    intro first member second last
    have own : (phases i).ticket = some ticket := by rw [drained]; rfl
    rw [mem_singleton.mp last, number ticket (kept.held i ticket own)]
    rcases ordered.past first member with before | ⟨j, inCall⟩
    · omega
    · -- Another call would have another custodian.
      obtain rfl := kept.alone j i first ticket (Custody.InCall.own inCall) own
      rw [drained] at inCall
      rcases inCall with before | before <;> cases before
  · rw [none, Option.toList_none, append_nil]
    exact ordered.increasing

end

theorem not_calling {other : Ticket} {j : Nat} (kept : Kept w phases)
    (own : (phases i).ticket = some ticket) (elsewhere : i ≠ j) : phases j ≠ .calling other := by
  intro calling
  exact elsewhere (kept.alone i j ticket other own (by rw [calling]; rfl))

section

variable (ordered : Ordered labels phases)
include ordered

theorem Ordered.busy_turn (kept : Kept w phases) (turn : Turn w w' (phases i) phase exchange)
    {j : Nat} (calling : update phases i phase j = .calling ticket) :
    (calls (labels ++ [.act i exchange])).length =
      (labels ++ [act i exchange]).countP leaving + 1 := by
  rw [calls_concat, leaving_concat, length_append]
  rcases turn.calls with ⟨none, stays, same⟩ | ⟨own, noted, stays, drained, _⟩ |
    ⟨own, none, leaves, called, returned⟩
  · rw [none, stays]
    by_cases here : j = i
    · subst here
      rw [update_self] at calling
      exact ordered.busy j ticket ((same ticket).mp calling)
    · rw [update_of_ne here] at calling
      exact ordered.busy j ticket calling
  · rw [noted, stays]
    have nobody (k : Nat) (other : Ticket) : phases k ≠ .calling other := by
      by_cases here : i = k
      · grind
      · exact not_calling kept (by rw [drained]; rfl) here
    rw [ordered.free nobody]
    rfl
  · -- The call that has just been left was the only one.
    by_cases here : j = i
    · grind
    · rw [update_of_ne here] at calling
      have mine : (phases i).ticket = some own := by rw [called]; rfl
      exact absurd calling (not_calling kept mine (Ne.symm here))

theorem Ordered.free_turn (turn : Turn w w' (phases i) phase exchange)
    (nobody : ∀ j ticket, update phases i phase j ≠ .calling ticket) :
    (calls (labels ++ [.act i exchange])).length =
      (labels ++ [act i exchange]).countP leaving := by
  have here (ticket : Ticket) : phase ≠ .calling ticket := by
    have now := nobody i ticket
    rwa [update_self] at now
  rw [calls_concat, leaving_concat, length_append]
  rcases turn.calls with ⟨none, stays, same⟩ | ⟨own, _, _, _, calling⟩ |
    ⟨own, none, leaves, called, _⟩
  · rw [none, stays]
    refine ordered.free ?_
    intro j ticket calling
    by_cases there : j = i
    · grind
    · have now := nobody j ticket
      rw [update_of_ne there] at now
      exact now calling
  · exact absurd calling (here own)
  · rw [none, leaves, ordered.busy i own called]
    rfl

theorem Ordered.turn (kept : Kept w phases)
    (number : ∀ ticket, w.queue.running = some ticket → ticket.raw.toNat = finished labels + 1)
    (turn : Turn w w' (phases i) phase exchange) :
    Ordered (labels ++ [.act i exchange]) (update phases i phase) := by
  constructor
  · rw [calls_concat]
    exact ordered.increasing_turn kept number turn
  · intro ticket member
    rw [calls_concat] at member
    rcases mem_append.mp member with old | new
    · exact ordered.past_turn kept number turn old
    right
    rcases turn.calls with ⟨none, _⟩ | ⟨other, noted, _, _, calling⟩ | ⟨_, none, _⟩
    · rw [none] at new
      cases new
    · rw [noted] at new
      rw [mem_singleton.mp new]
      exact ⟨i, .inl (by rw [update_self]; exact calling)⟩
    · rw [none] at new
      cases new
  · intro j ticket calling
    exact ordered.busy_turn kept turn calling
  · intro nobody
    exact ordered.free_turn turn nobody

theorem Ordered.start : Ordered (labels ++ [.start i]) phases := by
  have entered : calls (labels ++ [.start i]) = calls labels := by simp [calls, entering]
  have completed : finished (labels ++ [.start i]) = finished labels := by
    unfold finished
    rw [filterMap_concat]
    exact congrArg _ (congrArg _ (append_nil _))
  have left : (labels ++ [PoolLabel.start i]).countP leaving = labels.countP leaving := by
    simp [leaving]
  constructor
  · rw [entered]
    exact ordered.increasing
  · rw [entered, completed]
    exact ordered.past
  · rw [entered, left]
    exact ordered.busy
  · rw [entered, left]
    exact ordered.free

end

theorem ordered_boot : Ordered [] fun _ => .idle where
  increasing := .nil
  past := nofun
  busy := nofun
  free := fun _ => rfl

theorem ordered_of_run (run : Run (crewSystem Atom custody) ⟨.boot, fun _ => .idle⟩ labels crew) :
    Ordered labels crew.phases := by
  induction run with
  | start => exact ordered_boot
  | next run step ih =>
    have kept := kept_of_run run
    cases step with
    | start => exact ih.start
    | act allowed taken =>
      obtain ⟨waiting, ring⟩ := kept.ring
      exact ih.turn kept (fun _ runs => running_number run runs)
        (turn_of_atom ring allowed taken)

/-- After any calls the ring, the running request, the completed ones and the history are the
numbers that they should be, a fault stays and stops everything, and no number is given out twice.
In any interleaving of the threads at most one native call is outstanding, and the calls are
entered in the order of their tickets. -/
theorem deauth_requests_run_in_order : (∀ past q, Run queueSystem .new past q →
      (∃ waiting : List Request, q.requests.Holds waiting ∧
        waiting.map Request.ticket =
          (List.range' (q.issued.toNat - q.requests.len + 1) q.requests.len).map ticketOf) ∧
      (∀ ticket, q.running = some ticket →
        ticket = ticketOf (q.issued.toNat - q.requests.len)) ∧
      (completions past).map Prod.fst = Deauth.firstTickets
        (q.issued.toNat - q.requests.len - q.running.toList.length) ∧
      q.history.Keeps (completions past) ∧
      (q.fault ≠ none → ∀ later q', Run queueSystem q later q' →
        q'.fault ≠ none ∧ ∀ label ∈ later, label.starts = none) ∧
      past.filterMap Label.issues = Deauth.firstTickets q.issued.toNat ∧
      (past.filterMap Label.issues).Nodup ∧
      (q.issued.toNat + 1 = 2 ^ 64 → ∀ label q', Deauth.Step q label q' → label.issues = none)) ∧
    ∀ labels pool, Run crowd (.new .boot) labels pool →
      Run queueSystem .new (labels.filterMap onQueue) pool.world.queue ∧
      labels.countP leaving ≤ (calls labels).length ∧
      (calls labels).length ≤ labels.countP leaving + 1 ∧
      (calls labels).Pairwise fun first second => first.raw.toNat < second.raw.toNat := by
  constructor
  · intro past q run
    obtain ⟨waiting, ledger⟩ := ledger_of_run run
    obtain ⟨completed, running, behind⟩ := ledger.parts
    have lengths := ledger.lengths
    have len := ledger.ring.len
    have done : q.issued.toNat - q.requests.len - q.running.toList.length =
        (completions past).length := by omega
    have behindRunning : (completions past).length + 1 + q.running.toList.length =
        q.issued.toNat - q.requests.len + 1 := by omega
    have issues := issues_of_run run
    refine ⟨⟨waiting, ledger.ring, ?_⟩, ?_, ?_, ledger.history, ?_, issues, ?_, ?_⟩
    · rw [behind, behindRunning, len]
    · grind
    · rw [done]
      exact completed
    · intro faulted later q' second
      exact faulted_run run second faulted
    · rw [issues, ← ledger.numbered]
      exact ledger.nodup
    · intro last label q' step
      exact exhausted_issues ledger last step
  intro labels pool run
  obtain ⟨crew, reached, manned⟩ := custodians_of_run run
  have ordered := ordered_of_run reached
  refine ⟨manned.world ▸ queue_run reached, ?_, ?_, ordered.increasing⟩
  · by_cases nobody : ∀ i ticket, crew.phases i ≠ .calling ticket
    · exact Nat.le_of_eq (ordered.free nobody).symm
    · simp only [not_forall, not_not] at nobody
      obtain ⟨i, ticket, calling⟩ := nobody
      rw [ordered.busy i ticket calling]
      omega
  · by_cases nobody : ∀ i ticket, crew.phases i ≠ .calling ticket
    · rw [ordered.free nobody]
      omega
    · simp only [not_forall, not_not] at nobody
      obtain ⟨i, ticket, calling⟩ := nobody
      exact Nat.le_of_eq (ordered.busy i ticket calling)

/-- Two requests of which the first was started, and a thread that makes one native call. -/
theorem first_of_two_requests_runs : let q := ((Queue.new.push 3).2.push 4).2.pop.2
    let started := drive smooth 4 Job.startDeauthWorker.task .boot
    let talk := (drive smooth 20 (Job.disconnectInline 1 2).task started.2.2).1
    let labels := (.start 0 :: started.1.map (.act 0)) ++ (.start 1 :: talk.map (.act 1))
    (q.running = some ⟨1⟩ ∧ (⟨1⟩ : Ticket) = ticketOf (q.issued.toNat - q.requests.len)) ∧
      calls labels = [⟨1⟩] ∧ (calls labels).length ≤ labels.countP leaving + 1 := by
  intro q started talk labels
  have fresh : Run queueSystem .new [] .new := .start
  have popped := ((fresh.next (.push 3)).next (.push 4)).next .pop
  have runs : q.running = some ⟨1⟩ := by decide +kernel
  have starts : Run crowd (.new .boot) _ ⟨started.2.2, _⟩ :=
    run_job smooth_atom 4 (i := 0) ⟨.startDeauthWorker, rfl⟩ rfl
  have disconnects := starts.trans
    (run_job smooth_atom 20 (i := 1) ⟨.disconnectInline 1 2, rfl⟩ rfl)
  exact ⟨⟨runs, (deauth_requests_run_in_order.1 _ _ popped).2.1 ⟨1⟩ runs⟩, by decide +kernel,
    (deauth_requests_run_in_order.2 _ _ disconnects).2.2.1⟩

end HisiRf.Teardown
