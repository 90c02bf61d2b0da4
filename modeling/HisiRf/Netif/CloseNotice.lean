import HisiRf.Netif.LinkRules
import HisiRf.Netif.Revision

/-! No native close is missed by the link.

The link compares the revision that it last acted on with the current one. While
its port is up, the recorded revision belongs to an epoch that is still open, or
the route has moved on from it. Native closes keep this true wherever they fall,
and every method of the link establishes it again before it returns.
-/

namespace HisiRf

open Interaction Machine NativeLink LinkWorld Program SharedStep RouteLabel

variable {Port E : Type} {core : L2Core Port}

/-- Sessions begin and end as the link asks for, and nothing else brings the port up or down. -/
structure L2Core.Dependable (core : L2Core Port) : Prop where
  begins : ∀ port, ∃ generation, (core.beginSession port).1 = .ok generation
  beginsUp : ∀ port, core.isUp (core.beginSession port).2 = true
  ends : ∀ port, (core.linkDown port).1 = .ok ()
  endsDown : ∀ port, core.isUp (core.linkDown port).2 = false
  transmits : ∀ port waker, core.isUp (core.transmit port waker).2 = core.isUp port
  completes : ∀ port packet, core.isUp (core.complete port packet).2 = core.isUp port
  discards : ∀ port packet, core.isUp (core.discard port packet) = core.isUp port
  works : ∀ port next, core.device port next → core.isUp next = core.isUp port

variable {w next : RouteWorld} {label : RouteLabel}

/-- The epoch of this revision is open, or the revision has moved on. -/
def RouteWorld.Witnesses (w : RouteWorld) (revision : UInt64) : Prop :=
  (w.route.generation.isSome = true ∧ w.route.closeRevision = some revision) ∨
    revision.toNat < w.revision

variable {revision : UInt64}

theorem RouteWorld.Witnesses.step (held : w.Witnesses revision) (step : RouteStep w label next)
    (plain : label.plain = true) : next.Witnesses revision := by
  have forward := closeClock.forward step
  rcases held with ⟨opened, current⟩ | passed
  · cases closing : label.closes with
    | false =>
      left
      rw [plain_generation step plain, step_closeRevision step, closing]
      exact ⟨opened, current⟩
    | true =>
      -- The close ends the epoch and moves the revision on.
      right
      have reads : w.revision = revision.toNat := by rw [RouteWorld.revision, current]; rfl
      have moved := closeClock.moves step closing (revision_lt current)
      exact reads ▸ moved
  · right
    exact Nat.lt_of_lt_of_le passed forward

def LinkWorld.Down (core : L2Core Port) (w : LinkWorld Port) : Prop :=
  ∀ link, w.link = some link → core.isUp link.port = false

/-- A link whose port is up will notice that its epoch has ended. -/
def LinkWorld.Attentive (core : L2Core Port) (w : LinkWorld Port) : Prop :=
  ∀ link, w.link = some link → core.isUp link.port = true →
    ∃ revision, link.observedClose = some revision ∧ w.world.Witnesses revision

variable {w after : LinkWorld Port}

theorem LinkWorld.Down.attentive (down : w.Down core) : w.Attentive core := by
  intro link bound up
  rw [down link bound] at up
  cases up

theorem stable_witnesses (revision : UInt64) :
    Stable (linkWorld (E := E) core) fun w => w.world.Witnesses revision := by
  intro w after act held taken
  cases taken with
  | native foreign step => exact held.step step (plain_of_foreign foreign)
  | device => exact held

/-- The link has not yet acted on the end of the epoch that it noted last. -/
def LinkWorld.Lagging (revision : UInt64) (w : LinkWorld Port) : Prop :=
  ∃ link, w.link = some link ∧ link.observedClose = some revision ∧
    revision.toNat < w.world.revision

theorem stable_lagging (revision : UInt64) :
    Stable (linkWorld (E := E) core) (Lagging revision) := by
  rintro w after act ⟨link, bound, observed, behind⟩ taken
  cases taken with
  | native _ step => exact ⟨link, bound, observed, Nat.lt_of_lt_of_le behind (closeClock.forward step)⟩
  | device same =>
    cases bound.symm.trans same
    exact ⟨_, rfl, observed, behind⟩

variable {link : NativeLink Port}

/-- With the port up and admission closed, the noted revision is not the current one. -/
theorem LinkWorld.Attentive.lagging (attentive : w.Attentive core) (bound : w.link = some link)
    (up : core.isUp link.port = true) (closed : w.world.route.generation = none) :
    ∃ revision, w.Lagging revision := by
  obtain ⟨revision, observed, ⟨opened, _⟩ | passed⟩ := attentive link bound up
  · rw [closed] at opened
    cases opened
  · exact ⟨revision, link, bound, observed, passed⟩

theorem LinkWorld.Lagging.ne (lagging : w.Lagging revision) :
    w.world.route.closeRevision ≠ some revision := by
  obtain ⟨_, _, _, behind⟩ := lagging
  intro same
  rw [RouteWorld.revision, same] at behind
  exact Nat.lt_irrefl _ behind

theorem commit_witnesses {before after : RouteWorld} {intent : OpenIntent} {generation : Generation}
    (step : RouteStep before (.commitOpen intent generation (.ok ())) after) :
    after.Witnesses intent.closeRevision := by
  obtain ⟨permits, _, _, rfl⟩ := commitOpen_inv step
  exact .inl ⟨rfl, permits.revision⟩

variable {before : LinkWorld Port}

theorem attentive_onRoute (held : before.Attentive core) (action : before.onRoute label after)
    (plain : label.plain = true) : after.Attentive core := by
  obtain ⟨next, step, rfl⟩ := action
  intro link bound up
  obtain ⟨revision, observed, witnessed⟩ := held link bound up
  exact ⟨revision, observed, witnessed.step step plain⟩

theorem attentive_onPort {R : Type} {call : Port → R × Port} {reply : R}
    (held : before.Attentive core) (action : before.onPort call reply after)
    (keeps : ∀ port, core.isUp (call port).2 = core.isUp port) : after.Attentive core := by
  obtain ⟨link, bound, _, rfl⟩ := action
  intro other same up
  cases same
  have earlier := held link bound ((keeps link.port).symm.trans up)
  exact earlier

theorem subscribeClose_reply {before after : RouteWorld} {waker : Waker} {reply : Option UInt64}
    (step : RouteStep before (.subscribeClose waker reply) after) :
    reply = before.route.closeRevision ∧ after.route.closeRevision = before.route.closeRevision := by
  generalize named : subscribeClose waker reply = label at step
  cases step with
  | subscribeClose =>
    obtain ⟨_, rfl⟩ := subscribeClose.inj named
    exact ⟨rfl, rfl⟩
  | _ => cases named

variable {A : Type} {post : A → LinkWorld Port → Prop}

section

variable (dependable : core.Dependable)
include dependable

theorem stable_down :
    Stable (linkWorld (E := E) core) (Down core) := by
  intro w after act held taken
  cases taken with
  | native => exact held
  | device bound moved =>
    intro link same
    cases same
    exact (dependable.works _ _ moved).trans (held _ bound)

theorem stable_attentive :
    Stable (linkWorld (E := E) core) (Attentive core) := by
  intro w after act held taken
  cases taken with
  | native foreign step =>
    intro link bound up
    obtain ⟨revision, observed, witnessed⟩ := held link bound up
    exact ⟨revision, observed, witnessed.step step (plain_of_foreign foreign)⟩
  | device bound moved =>
    intro link same up
    cases same
    have before := held _ bound ((dependable.works _ _ moved).symm.trans up)
    exact before

theorem withstands_linkDown {k : Except QueueError Unit → LinkProgram Port E A}
    (goesOn : ∀ after, after.Down core → Endures core (k (.ok ())) post after) :
    Endures core (atom .linkDown >>= k) post w := by
  apply withstands_atom stable_true trivial (fun _ _ => trivial)
  rintro before reply after - ⟨link, bound, rfl, rfl⟩
  rw [dependable.ends link.port]
  apply goesOn
  intro other same
  cases same
  exact dependable.endsDown link.port

theorem withstands_down {a : A} (down : w.Down core)
    (fine : ∀ after, after.Down core → post a after) :
    Endures core (pure a : LinkProgram Port E A) post w :=
  withstands_done (stable_down dependable) down fun after still => ⟨trivial, fine after still⟩

theorem close_spec :
    Endures core (close (E := E)) (fun _ after => after.Down core) w := by
  apply withstands_skip
  intro _ closed
  apply withstands_skip
  intro revision read
  apply withstands_skip
  intro _ stored
  exact withstands_linkDown dependable fun after down =>
    withstands_down dependable down fun _ still => still

/-- An opening that fails takes the port down; one that goes through records its own revision. -/
theorem begin_spec (intent : OpenIntent) :
    Endures core (begin (E := E) intent) (fun reply after => after.Attentive core ∧
        ∀ error, reply = .error error → after.Down core) w := by
  apply withstands_atom stable_true trivial (fun _ _ => trivial)
  rintro before reply begun - ⟨link, bound, rfl, rfl⟩
  obtain ⟨generation, began⟩ := dependable.begins link.port
  rw [began]
  apply withstands_atom stable_true trivial (fun _ _ => trivial)
  rintro before reply after - ⟨next, step, rfl⟩
  cases reply with
  | error =>
    apply withstands_linkDown dependable
    intro after down
    exact withstands_down dependable down fun _ still => ⟨still.attentive, fun _ _ => still⟩
  | ok =>
    -- A close may fall between the commit and the note of its revision.
    apply withstands_atom (stable_witnesses intent.closeRevision) (commit_witnesses step)
      (fun _ _ => trivial)
    rintro before reply after witnessed ⟨link, bound, rfl⟩
    refine withstands_done (stable_attentive dependable) ?_ ?_
    · intro other same _
      cases same
      exact ⟨intent.closeRevision, rfl, witnessed⟩
    · grind

/-- A poll of a link that lags behind takes the port down and says so. -/
theorem pollNativeClose_lagging (waker : Waker) (lagging : w.Lagging revision) :
    Endures core (pollNativeClose (E := E) waker)
      (fun reply after => reply = .ok true ∧ after.Down core) w := by
  apply withstands_atom (stable_lagging revision) lagging (fun _ _ => trivial)
  rintro before current subscribed behind ⟨next, step, rfl⟩
  obtain ⟨rfl, kept⟩ := subscribeClose_reply step
  have still : Lagging revision { before with world := next } := by
    obtain ⟨link, bound, observed, passed⟩ := behind
    exact ⟨link, bound, observed, Nat.lt_of_lt_of_le passed (closeClock.forward step)⟩
  apply withstands_atom (stable_lagging revision) still (fun _ _ => trivial)
  rintro loaded observed after ⟨link, bound, noted, _⟩ ⟨rfl, other, same, rfl⟩
  cases bound.symm.trans same
  rw [noted, if_neg behind.ne]
  apply withstands_skip
  intro _ stored
  apply withstands_linkDown dependable
  intro after down
  exact withstands_down dependable down fun _ still => ⟨rfl, still⟩

theorem pollNativeClose_keeps (waker : Waker) (attentive : w.Attentive core) :
    Endures core (pollNativeClose (E := E) waker)
      (fun _ after => after.Attentive core) w := by
  apply withstands_atom (stable_attentive dependable) attentive (fun _ _ => trivial)
  intro before current subscribed held action
  have still := attentive_onRoute held action rfl
  apply withstands_atom (stable_attentive dependable) still (fun _ _ => trivial)
  rintro loaded observed after held ⟨rfl, _⟩
  split
  · exact withstands_done (stable_attentive dependable) held fun _ kept => ⟨trivial, kept⟩
  · apply withstands_skip
    intro _ stored
    apply withstands_linkDown dependable
    intro after down
    exact withstands_down dependable down fun _ kept => kept.attentive

theorem bind_keeps (port : Port) (attentive : w.Attentive core) :
    Endures core (bind (E := E) core port) (fun _ after => after.Attentive core) w := by
  apply withstands_atom (stable_attentive dependable) attentive (fun _ _ => trivial)
  intro before reply claimed held action
  cases reply with
  | error =>
    have still := attentive_onRoute held action rfl
    exact withstands_done (stable_attentive dependable) still fun _ kept => ⟨trivial, kept⟩
  | ok =>
    apply withstands_skip
    intro _ owned
    apply withstands_linkDown dependable
    intro ended down
    apply withstands_atom (stable_down dependable) down (fun _ _ => trivial)
    rintro before revision after still ⟨next, _, rfl⟩
    have kept : Down core { before with world := next } := still
    apply withstands_atom (stable_down dependable) kept (fun _ _ => trivial)
    rintro before _ after still ⟨link, bound, rfl⟩
    have noted : Down core
        { before with link := some { link with observedClose := revision } } := by
      intro other same
      cases same
      have before := still link bound
      exact before
    exact withstands_down dependable noted fun _ kept => kept.attentive

theorem beginAfterNativeQuiescence_keeps (attentive : w.Attentive core) :
    Endures core (beginAfterNativeQuiescence (E := E))
      (fun _ after => after.Attentive core) w := by
  apply withstands_atom (stable_attentive dependable) attentive (fun _ _ => trivial)
  intro before reply after held action
  cases reply with
  | error =>
    have still := attentive_onRoute held action rfl
    exact withstands_done (stable_attentive dependable) still fun _ kept => ⟨trivial, kept⟩
  | ok intent => exact (begin_spec dependable intent).mono fun _ _ began => began.1

/-- Only a success says something about the link: a failure is closed by the caller. -/
theorem openInitialSession_spec (id : OperationId) :
    Endures core (openInitialSession (E := E) id)
      (fun reply after => reply = .ok () → after.Attentive core) w := by
  have proceed (intent : OpenIntent) (before : LinkWorld Port) :
      Endures core (begin (E := E) intent)
        (fun reply after => reply = .ok () → after.Attentive core) before :=
    (begin_spec dependable intent).mono fun _ _ began _ => began.1
  apply Withstands.bind
  apply withstands_skip
  intro prepared after
  cases prepared with
  | error =>
    refine withstands_done stable_true trivial fun after _ => ⟨trivial, ?_⟩
    exact withstands_done stable_true trivial fun _ _ => ⟨trivial, nofun⟩
  | ok =>
    apply withstands_call stable_true trivial (fun _ _ => trivial)
    intro _ reply after _ _
    refine withstands_done stable_true trivial fun after _ => ⟨trivial, ?_⟩
    cases reply with
    | error => exact withstands_done stable_true trivial fun _ _ => ⟨trivial, nofun⟩
    | ok bound => exact proceed bound after

/-- Whatever went wrong in the experiment, the link closes before it reports the failure. -/
theorem beginInitialSessionExperiment_spec (id : OperationId) :
    Endures core (beginInitialSessionExperiment (E := E) id)
      (fun reply after => after.Attentive core ∧
        ∀ error, reply = .error error → after.Down core) w := by
  apply Withstands.bind
  refine (openInitialSession_spec dependable id).mono ?_
  intro result after succeeded
  cases result with
  | error =>
    apply Withstands.bind
    refine (close_spec dependable).mono ?_
    intro _ closed down
    exact withstands_down dependable down fun _ still => ⟨still.attentive, fun _ _ => still⟩
  | ok =>
    exact withstands_done (stable_attentive dependable) (succeeded rfl)
      fun _ kept => ⟨trivial, kept, nofun⟩

theorem attentive_quiet (o : LinkAtom Port) (before : LinkWorld Port) (reply : o.Reply E)
    (after : LinkWorld Port) (quiet : o.quiet) (held : before.Attentive core)
    (action : o.acts core before reply after) : after.Attentive core := by
  cases o with
  | enterTransmit => exact attentive_onRoute held action rfl
  | dropTransmit =>
    obtain ⟨transmit, _, taken⟩ := action
    exact attentive_onRoute held taken rfl
  | transmit waker =>
    have taken : before.onPort (core.transmit · waker) reply after := action
    exact attentive_onPort held taken (dependable.transmits · waker)
  | isCurrent packet =>
    have taken : before.onPort (fun port => (core.isCurrent port packet, port)) reply after := action
    exact attentive_onPort held taken fun _ => rfl
  | complete packet =>
    have taken : before.onPort (core.complete · packet) reply after := action
    exact attentive_onPort held taken (dependable.completes · packet)
  | discard packet =>
    have taken : before.onPort (fun port => ((), core.discard port packet)) reply after := action
    exact attentive_onPort held taken (dependable.discards · packet)
  | startSubmit _ | finishSubmit _ =>
    obtain rfl := action
    exact held
  | _ => cases quiet

theorem drop_spec : Endures core (drop (E := E)) (fun _ after => after.Down core) w := by
  apply Withstands.bind
  refine (close_spec dependable).mono ?_
  intro _ closed _
  apply withstands_skip
  intro _ unregistered
  apply withstands_call stable_true trivial (fun _ _ => trivial)
  rintro before _ after - rfl
  exact withstands_down dependable (fun _ gone => nomatch gone) fun _ still => still

theorem linkProgram_keeps (call : LinkCall Port) (w : LinkWorld Port) (attentive : w.Attentive core) :
    Endures core (linkProgram (E := E) core call) (fun _ after => after.Attentive core) w := by
  cases call with
  | bind port => exact bind_keeps dependable port attentive
  | beginAfterNativeQuiescence => exact beginAfterNativeQuiescence_keeps dependable attentive
  | beginInitialSessionExperiment id =>
    exact (beginInitialSessionExperiment_spec dependable id).mono fun _ _ kept => kept.1
  | pollNativeClose waker => exact pollNativeClose_keeps dependable waker attentive
  | close => exact (close_spec dependable).mono fun _ _ down => down.attentive
  | pollTransmit waker =>
    exact withstands_only (stable_attentive dependable) attentive (fun _ _ => trivial)
      (attentive_quiet dependable) (pollTransmit_quiet waker)
  | drop => exact (drop_spec dependable).mono fun _ _ down => down.attentive

/-- A poll of a link that lags behind can always run, and it returns that the port was closed. -/
theorem pollNativeClose_returns (waker : Waker) (bound : w.link = some link)
    (owned : w.world.registered = true)
    (different : w.world.route.closeRevision ≠ link.observedClose) :
    ∃ labels after, LinkRealizes (E := E) core w [⟨.pollNativeClose waker, .ok true⟩] labels after := by
  let current := w.world.route.closeRevision
  let subscribed : LinkWorld Port :=
    { w with world :=
      { w.world with route := (Registration.subscribeClose w.world.route waker).2 } }
  let noted : LinkWorld Port :=
    { subscribed with link := some { link with observedClose := current } }
  let ended : LinkWorld Port :=
    { noted with link := some ⟨(core.linkDown link.port).2, current⟩ }
  have subscribe : (linkWorld (E := E) core).system.step w
      (.mine ⟨.subscribeClose waker, current⟩) subscribed :=
    mine ⟨_, RouteStep.subscribeClose waker owned, rfl⟩
  have load : (linkWorld (E := E) core).system.step subscribed
      (.mine ⟨.loadObserved, link.observedClose⟩) subscribed :=
    mine ⟨rfl, link, bound, rfl⟩
  have store : (linkWorld (E := E) core).system.step subscribed
      (.mine ⟨.storeObserved current, ()⟩) noted :=
    mine ⟨link, bound, rfl⟩
  have down : (linkWorld (E := E) core).system.step noted (.mine ⟨.linkDown, .ok ()⟩) ended :=
    mine ⟨_, rfl, (dependable.ends link.port).symm, rfl⟩
  have run := (((Run.start.next subscribe).next load).next store).next down
  have runs : Runs (pollNativeClose waker : LinkProgram Port E _)
      [⟨.subscribeClose waker, current⟩, ⟨.loadObserved, link.observedClose⟩,
        ⟨.storeObserved current, ()⟩, ⟨.linkDown, .ok ()⟩] (.ok true) := by
    refine runs_atom (o := .subscribeClose waker) current ?_
    refine runs_atom (o := .loadObserved) link.observedClose ?_
    rw [if_neg different]
    refine runs_atom (o := .storeObserved current) () ?_
    exact runs_atom (o := .linkDown) (.ok ()) (.done _)
  exact ⟨_, ended, .call run runs (.idle .start rfl)⟩

/-- If an opening fails, it was refused before it began, or it has left the port down. -/
theorem beginAfterNativeQuiescence_error
    {labels : List (LinkLabel Port E)} {error : LinkError}
    (run : Run (linkWorld core).system w labels after)
    (runs : Runs beginAfterNativeQuiescence (mine labels) (.error error)) :
    (∃ refusal, mine labels = [⟨.prepareOpen, .error refusal⟩]) ∨ after.Down core := by
  generalize own : mine labels = talk at runs
  cases runs with
  | @call _ _ rest _ reply begun =>
    cases reply with
    | error refusal =>
      cases begun with
      | done => exact .inl ⟨refusal, rfl⟩
    | ok intent =>
      -- The rest of the conversation is that of `begin`.
      obtain ⟨first, second, rfl, _, rfl⟩ := mine_eq_cons own
      obtain ⟨_, prepared, _, _, later⟩ := run.step_at
      exact .inr (((begin_spec dependable intent).sound later begun).2 error rfl)

end

/-- Over every history of the links on one route, with native closes at any moment: whenever no
call is under way, the port is up and admission is closed, the link has not noted the current
revision, and its next poll returns that it took the port down. An opening that fails once it has
begun leaves the port down, and so does a failed initial session; an opening that was refused before
it began did nothing else. -/
theorem native_close_is_never_missed (dependable : core.Dependable)
    {talk : List (Exchange (linkCalls Port E))} {labels : List (LinkLabel Port E)}
    {w : LinkWorld Port} (realized : LinkRealizes core .new talk labels w) :
    (∀ link, w.link = some link → core.isUp link.port = true → w.world.route.generation = none →
      link.observedClose ≠ w.world.route.closeRevision ∧ ∀ waker,
        (∃ more after, LinkRealizes (E := E) core w
          [⟨.pollNativeClose waker, .ok true⟩] more after) ∧
        ∀ reply more after, LinkRealizes (E := E) core w
          [⟨.pollNativeClose waker, reply⟩] more after → reply = .ok true ∧ after.Down core) ∧
      (∀ before intent error more after, Run (linkWorld core).system before more after →
        Runs (begin (E := E) intent) (mine more) (.error error) →
        after.Down core) ∧
      (∀ before id error more after, Run (linkWorld core).system before more after →
        Runs (beginInitialSessionExperiment (E := E) id) (mine more)
          (.error error) → after.Down core) ∧
      (∀ before error more after, Run (linkWorld core).system before more after →
        Runs (beginAfterNativeQuiescence (E := E)) (mine more) (.error error) →
        (∃ refusal, mine more = [⟨.prepareOpen, .error refusal⟩]) ∨ after.Down core) := by
  have attentive : w.Attentive core :=
    realized.between (stable_attentive dependable) (linkProgram_keeps dependable)
      (by intro _ unbound; cases unbound)
  have registered : w.Registered :=
    realized.between stable_registered linkProgram_registered
      (by intro _ unbound; cases unbound)
  refine ⟨?_, ?_, ?_, ?_⟩
  · intro link bound up closed
    obtain ⟨revision, lagging⟩ := attentive.lagging bound up closed
    have noted : link.observedClose = some revision := by
      obtain ⟨other, same, observed, _⟩ := lagging
      cases bound.symm.trans same
      exact observed
    have different : w.world.route.closeRevision ≠ link.observedClose := noted ▸ lagging.ne
    refine ⟨different.symm, ?_⟩
    intro waker
    refine ⟨pollNativeClose_returns dependable waker bound (registered link bound) different, ?_⟩
    intro reply more after polled
    cases polled with
    | call run served rest =>
      cases rest with
      | idle later silent =>
        obtain ⟨returned, down⟩ :=
          (pollNativeClose_lagging dependable waker lagging).sound run served
        exact ⟨returned, (stable_down dependable).run down later silent⟩
  · intro before intent error more after run failed
    exact ((begin_spec dependable intent).sound run failed).2 error rfl
  · intro before id error more after run failed
    exact ((beginInitialSessionExperiment_spec dependable id).sound run failed).2 error rfl
  · intro before error more after run failed
    exact beginAfterNativeQuiescence_error dependable run failed

theorem numberedCore_dependable : numberedCore.Dependable where
  begins := fun port => ⟨⟨port.sessions⟩, rfl⟩
  beginsUp := fun _ => rfl
  ends := fun _ => rfl
  endsDown := fun _ => rfl
  transmits := fun _ _ => rfl
  completes := fun _ _ => rfl
  discards := fun _ _ => rfl
  works := fun _ _ same => congrArg NumberedPort.up same

/-- A native close of an open link: the port is still up, and the next poll takes it down. -/
theorem closed_link_is_noticed : ∃ labels w link, LinkRealizes (E := Unit) numberedCore .new
        [⟨.bind freshPort, .ok ()⟩, ⟨.beginAfterNativeQuiescence, .ok ()⟩] labels w ∧
      w.link = some link ∧ numberedCore.isUp link.port = true ∧
      w.world.route.generation = none ∧ link.observedClose ≠ w.world.route.closeRevision ∧
      ∃ more after, LinkRealizes (E := Unit) numberedCore w
        [⟨.pollNativeClose ⟨0⟩, .ok true⟩] more after := by
  let closed : LinkWorld NumberedPort :=
    { openedLink with world :=
      { openedWorld with route := (CallbackRoute.closeAdmission openedWorld.route).2 } }
  have close : (linkWorld (E := Unit) numberedCore).system.step openedLink
      (.other (.native (.closeAdmission none))) closed :=
    other (.native rfl RouteStep.closeAdmission)
  have realized := openedLink_realized (Run.start.next close) rfl
  obtain ⟨different, polls⟩ :=
    (native_close_is_never_missed numberedCore_dependable realized).1 _ rfl rfl rfl
  exact ⟨_, closed, _, realized, rfl, rfl, rfl, different, (polls ⟨0⟩).1⟩

end HisiRf
