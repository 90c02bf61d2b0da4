import HisiRf.Interaction.Record
import HisiRf.Netif.Opening

/-! The one-shot opening of the initial-session experiment.

The policy keeps one state and moves it with every event of the session, so that
the state after a run is a function of the whole history. Only one history leads
to the state that an opening asks for. An attempt that fails closes admission and
one that succeeds is an event of its own, and both leave that history for good.
-/

namespace HisiRf

open Interaction List InitialSession Registration CallbackRoute RouteWorld SessionEvent

namespace InitialSession

def after (initial : InitialSession) : SessionEvent → InitialSession
  | .initial .bootstrap => initial.bootstrap
  | .initial (.connect id) => initial.connect id
  | .initial .associate => initial.associate
  | .initial (.result success) => initial.result success
  | .closed | .dropped => .rejected
  | .opened => .opened

def ofHistory (history : List SessionEvent) : InitialSession := history.foldl after .uninitialized

/-- The one history after which the session of `id` may be opened. -/
def expected (id : OperationId) : List SessionEvent :=
  [.initial .bootstrap, .initial (.connect id), .initial .associate, .initial (.result true)]

/-- The history that leads to a state; a session that was opened or rejected may have any. -/
def path : InitialSession → Option (List SessionEvent)
  | .uninitialized => some []
  | .bootstrapped => some [.initial .bootstrap]
  | .armed id => some [.initial .bootstrap, .initial (.connect id)]
  | .associating id => some [.initial .bootstrap, .initial (.connect id), .initial .associate]
  | .associated id => some (expected id)
  | .opened | .rejected => none

variable {whole history : List SessionEvent}

/-- Each state on the way has one predecessor and one event that leads to it. -/
theorem path_after {initial : InitialSession} {event : SessionEvent}
    (leads : (initial.after event).path = some whole) :
    ∃ earlier, initial.path = some earlier ∧ whole = earlier ++ [event] := by
  rcases event with ⟨_ | id | _ | success⟩ | _ | _ | _
  case initial.result =>
    cases initial with
    | associating =>
      cases success with
      | false => cases leads
      | true => exact ⟨_, rfl, (Option.some.inj leads).symm⟩
    | _ => cases leads
  all_goals cases initial <;> simp_all [after, bootstrap, connect, associate, path]

theorem history_of_path (leads : (ofHistory history).path = some whole) : history = whole := by
  induction history using reverseRecOn generalizing whole with
  | nil => exact Option.some.inj leads
  | append_singleton earlier event ih =>
    have concat : ofHistory (earlier ++ [event]) = (ofHistory earlier).after event :=
      foldl_concat ..
    rw [concat] at leads
    obtain ⟨before, known, rfl⟩ := path_after leads
    rw [ih known]

theorem expected_of_associated {id : OperationId} (associated : ofHistory history = .associated id) :
    history = expected id := by
  apply history_of_path
  rw [associated]
  rfl

end InitialSession

theorem step_initial {w next : RouteWorld} {label : RouteLabel} (step : RouteStep w label next) :
    next.route.initial = label.session.elim w.route.initial w.route.initial.after := by
  cases step with
  | claim ingress =>
    obtain ⟨_, _, same⟩ := claim_frame w.route ingress
    simp only [claimed, same]
    rfl
  | enter allocation =>
    obtain ⟨_, same⟩ := enterWithAllocation_frame w.route allocation
    simp only [entered, same]
    rfl
  | enterTransmit generation =>
    obtain ⟨_, same⟩ := enterTransmit_frame w.route generation
    simp only [enteredTransmit, same]
    rfl
  | @commitOpen _ _ intent generation =>
    rcases commitOpen_cases w.route intent generation with ⟨_, refused⟩ | ⟨_, went⟩
    · simp only [committed, refused]
      rfl
    · simp only [committed, went, Registration.opened, RouteLabel.session]
      cases intent.initialOperation <;> rfl
  | initial event => cases event <;> rfl
  | _ => rfl

def SessionEvent.closes : SessionEvent → Bool
  | .closed | .dropped | .initial (.result _) => true
  | _ => false

theorem any_closes_session (label : RouteLabel) :
    label.session.any closes = label.closes := by
  cases label with
  | commitOpen intent _ result =>
    cases result with
    | error => rfl
    | ok => cases operation : intent.initialOperation <;> simp [RouteLabel.session, operation] <;> rfl
  | initial event => cases event <;> rfl
  | _ => rfl

variable {Port E : Type} {core : L2Core Port} {w after : LinkWorld Port}
  {labels : List (LinkLabel Port E)}

def sessionHistory (labels : List (LinkLabel Port E)) : List SessionEvent :=
  labels.filterMap linkSession

theorem sessionHistory_append (first second : List (LinkLabel Port E)) :
    sessionHistory (first ++ second) = sessionHistory first ++ sessionHistory second :=
  filterMap_append

theorem session_of_run (run : Run (linkWorld (E := E) core).system .new labels w) :
    w.world.route.initial = ofHistory (sessionHistory labels) := by
  induction run with
  | start => rfl
  | @next earlier before after label _ step ih =>
    have grown := filterMap_concat linkSession earlier label
    unfold sessionHistory ofHistory at ih ⊢
    rw [grown, foldl_append, ← ih]
    rcases linkStep_route step with ⟨silent, same⟩ | ⟨taken, route, told⟩
    · rw [silent, same]
      rfl
    · rw [told, step_initial route]
      cases taken.session <;> rfl

/-- The close revision as a clock of everything that happens around the link. -/
def linkClock (core : L2Core Port) : Clock (linkWorld (E := E) core).system where
  reading w := w.world.revision
  limit := 2 ^ 64
  advances label := (linkSession label).any closes
  forward := by
    intro w next label step
    rcases linkStep_route step with ⟨_, same⟩ | ⟨taken, route, _⟩
    · rw [same]
    · exact closeClock.forward route
  moves := by
    intro w next label step advances below
    rcases linkStep_route step with ⟨silent, _⟩ | ⟨taken, route, told⟩
    · rw [silent] at advances
      cases advances
    · rw [told, any_closes_session] at advances
      exact closeClock.moves route advances below

variable {middle : LinkWorld Port} {early head : List (LinkLabel Port E)} {id : OperationId}
  {intent bound : OpenIntent}

def openingActions (id : OperationId) (intent bound : OpenIntent) (generation : Generation) :
    List (Exchange (linkAtoms Port E)) :=
  [⟨.prepareOpen, .ok intent⟩, ⟨.bindInitial id intent, .ok bound⟩, ⟨.beginSession, .ok generation⟩,
    ⟨.commitOpen bound generation, .ok ()⟩, ⟨.storeObserved (some bound.closeRevision), ()⟩]

def AttemptLeaves (id : OperationId) (talk : List (Exchange (linkAtoms Port E))) :
    Except LinkError Unit → Prop
  | .ok () => ∃ intent bound generation, talk = openingActions id intent bound generation
  | .error _ => ⟨.closeAdmission, ()⟩ ∈ talk

theorem attempt_leaves (id : OperationId) :
    (NativeLink.beginInitialSessionExperiment id : LinkProgram Port E _).Ensures
      (fun result talk => AttemptLeaves id talk result) [] := by
  have closes (error : LinkError) (past : List (Exchange (linkAtoms Port E))) :
      ((NativeLink.close : LinkProgram Port E _).bind fun _ => Program.done (.error error)).Ensures
        (fun result talk => AttemptLeaves id talk result) past := by
    intro _ revision _ ended
    simp [Program.Ensures, AttemptLeaves]
  -- One reply after the other; every error goes on to the close.
  refine (Program.ensures_bind _ _ _ _).mpr ?_
  intro prepared
  cases prepared with
  | error => exact closes _ _
  | ok intent =>
    intro checked
    cases checked with
    | error => exact closes _ _
    | ok bound =>
      intro begun
      cases begun with
      | error =>
        intro _
        exact closes _ _
      | ok generation =>
        intro committed
        cases committed with
        | error =>
          intro ended
          cases ended <;> exact closes _ _
        | ok =>
          intro _
          exact ⟨intent, bound, generation, rfl⟩

theorem bindInitial_inv {w next : RouteWorld}
    (step : RouteStep w (.bindInitial id intent (.ok bound)) next) :
    bound = { intent with initialOperation := some id } := by
  generalize named : RouteLabel.bindInitial id intent (.ok bound) = label at step
  cases step with
  | bindInitial =>
    obtain ⟨rfl, rfl, succeeded⟩ := RouteLabel.bindInitial.inj named
    unfold bindInitial at succeeded
    split at succeeded
    · cases succeeded
    · exact Except.ok.inj succeeded
  | _ => cases named

theorem bound_operation (run : Run (linkWorld core).system w labels after)
    (checked : .mine ⟨.bindInitial id intent, .ok bound⟩ ∈ labels) :
    bound = { intent with initialOperation := some id } := by
  obtain ⟨first, second, rfl⟩ := append_of_mem checked
  obtain ⟨before, next, _, step, _⟩ := run.step_at
  cases step with
  | mine action =>
    obtain ⟨_, route, _⟩ := action
    exact bindInitial_inv route

theorem attempt_marks {talk : List (Exchange (linkCalls Port E))} {result : Except LinkError Unit}
    (realized : LinkRealizes core w talk labels after)
    (made : ⟨.beginInitialSessionExperiment id, result⟩ ∈ talk) :
    .opened ∈ sessionHistory labels ∨ .closed ∈ sessionHistory labels := by
  induction realized with
  | idle => cases made
  | @call _ _ _ call rest head tail run runs _ ih =>
    rw [sessionHistory_append, mem_append, mem_append]
    rcases mem_cons.mp made with rfl | later
    · have left := (attempt_leaves id).sound runs
      cases result with
      | error =>
        have closed : (.mine ⟨.closeAdmission, ()⟩ : LinkLabel Port E) ∈ head := mem_mine.mp left
        exact .inr (.inl (mem_filterMap.mpr ⟨_, closed, rfl⟩))
      | ok =>
        obtain ⟨intent, bound, generation, own⟩ := left
        rw [nil_append] at own
        have checked : (.mine ⟨.bindInitial id intent, .ok bound⟩ : LinkLabel Port E) ∈ head :=
          mem_mine.mp (by rw [own]; simp [openingActions])
        have committed : (.mine ⟨.commitOpen bound generation, .ok ()⟩ : LinkLabel Port E) ∈ head :=
          mem_mine.mp (by rw [own]; simp [openingActions])
        refine .inl (.inl (mem_filterMap.mpr ⟨_, committed, ?_⟩))
        rw [bound_operation run checked]
        rfl
    · rcases ih later with opened | closed
      · exact .inl (.inr opened)
      · exact .inr (.inr closed)

/-- When an attempt succeeds, the history before its preparation is the expected one and nothing is
told until its commit. -/
theorem opening_history (reached : Run (linkWorld core).system .new early middle)
    (run : Run (linkWorld core).system middle head after) {generation : Generation}
    (own : mine head = openingActions id intent bound generation) :
    ∃ lead between rest, head = lead ++ .mine ⟨.prepareOpen, .ok intent⟩ ::
        (between ++ .mine ⟨.commitOpen bound generation, .ok ()⟩ :: rest) ∧
      sessionHistory (early ++ lead) = expected id ∧ sessionHistory between = [] := by
  have checked : (.mine ⟨.bindInitial id intent, .ok bound⟩ : LinkLabel Port E) ∈ head :=
    mem_mine.mp (by rw [own]; simp [openingActions])
  have operation := bound_operation run checked
  obtain ⟨lead, second, rfl, _, own⟩ := mine_eq_cons own
  have later : mine second = [⟨.bindInitial id intent, .ok bound⟩, ⟨.beginSession, .ok generation⟩] ++
    ⟨.commitOpen bound generation, .ok ()⟩ :: [⟨.storeObserved (some bound.closeRevision), ()⟩] := own
  obtain ⟨between, rest, rfl, _, _⟩ := mine_eq_append later
  obtain ⟨preparing, prepared, leading, prepare, run⟩ := run.step_at
  obtain ⟨committing, committed, waiting, commit, _⟩ := run.step_at
  refine ⟨lead, between, rest, rfl, ?_⟩
  obtain ⟨revision, unchanged⟩ : preparing.world.route.closeRevision = some intent.closeRevision ∧
      prepared.world.route = preparing.world.route := by
    cases prepare with
    | mine action =>
      obtain ⟨next, route, rfl⟩ := action
      obtain ⟨succeeded, unchanged⟩ := prepareOpen_inv route
      exact ⟨(prepareOpen_ok _ succeeded).1, unchanged⟩
  have permits : Permits committing.world.route bound := by
    cases commit with
    | mine action =>
      obtain ⟨_, route, _⟩ := action
      exact (commitOpen_inv route).1
  -- The whole history up to the commit is the expected one.
  have whole : sessionHistory (early ++ lead) ++ sessionHistory between =
      expected id := by
    have upto := ((reached.trans leading).next prepare).trans waiting
    have associated := permits.session id (by rw [operation])
    rw [session_of_run upto] at associated
    have known := expected_of_associated associated
    have untold : sessionHistory [(.mine ⟨.prepareOpen, .ok intent⟩ : LinkLabel Port E)] = [] := rfl
    rwa [sessionHistory_append, sessionHistory_append, untold, append_nil] at known
  -- Its last event closes, and no close came after the preparation.
  have quiet : ∀ label ∈ between, (linkSession label).any closes = false := by
    have same : committing.world.route.closeRevision = prepared.world.route.closeRevision := by
      rw [unchanged, revision, permits.revision, operation]
    refine (linkClock core).still waiting ?_ (revision_lt permits.revision)
    exact congrArg (Option.elim · (2 ^ 64) UInt64.toNat) same
  have silent : sessionHistory between = [] := by
    rcases eq_nil_or_concat (sessionHistory between) with none_told | ⟨front, last, told⟩
    · exact none_told
    have final : last = .initial (.result true) := by
      rw [told, concat_eq_append, ← append_assoc] at whole
      simpa [expected] using congrArg getLast? whole
    have member : last ∈ sessionHistory between := by
      rw [told]
      simp
    obtain ⟨label, inside, heard⟩ := mem_filterMap.mp member
    have still := quiet label inside
    rw [heard, final] at still
    cases still
  rw [silent, append_nil] at whole
  exact ⟨whole, silent⟩

theorem no_earlier_attempt {first : List (Exchange (linkCalls Port E))} {lead : List (LinkLabel Port E)}
    (realized : LinkRealizes core .new first early middle)
    (history : sessionHistory (early ++ lead) = expected id) (other : OperationId)
    (result : Except LinkError Unit) : ⟨.beginInitialSessionExperiment other, result⟩ ∉ first := by
  intro made
  have marked : .opened ∈ expected id ∨ .closed ∈ expected id := by
    rw [← history, sessionHistory_append, mem_append, mem_append]
    rcases attempt_marks realized made with opened | closed
    · exact .inl (.inl opened)
    · exact .inr (.inl closed)
  simp [expected] at marked

variable {talk : List (Exchange (linkCalls Port E))}

def opensInitial : Exchange (linkCalls Port E) → Bool
  | ⟨.beginInitialSessionExperiment _, .ok ()⟩ => true
  | _ => false

theorem opensInitial_inv {call : Exchange (linkCalls Port E)} (opens : opensInitial call = true) :
    ∃ id, call = ⟨.beginInitialSessionExperiment id, .ok ()⟩ := by
  obtain ⟨o, reply⟩ := call
  cases o with
  | beginInitialSessionExperiment id =>
    cases reply with
    | error => cases opens
    | ok => exact ⟨id, rfl⟩
  | _ => cases opens

/-- The calls before a success, its preparation and commit, and the history up to them. -/
theorem success_located {first second : List (Exchange (linkCalls Port E))}
    (realized : LinkRealizes core .new
      (first ++ ⟨.beginInitialSessionExperiment id, .ok ()⟩ :: second) labels w) :
    ∃ early lead between rest middle intent bound generation,
      LinkRealizes core .new first early middle ∧
      labels = early ++ (lead ++ .mine ⟨.prepareOpen, .ok intent⟩ ::
        (between ++ .mine ⟨.commitOpen bound generation, .ok ()⟩ :: rest)) ∧
      sessionHistory (early ++ lead) = expected id ∧ sessionHistory between = [] := by
  obtain ⟨early, late, middle, rfl, before, behind⟩ := realized.split
  cases behind with
  | @call _ next _ _ _ head tail run runs =>
    obtain ⟨intent, bound, generation, own⟩ := (attempt_leaves id).sound runs
    obtain ⟨lead, between, rest, rfl, history, silent⟩ := opening_history before.run run own
    exact ⟨early, lead, between, rest ++ tail, middle, intent, bound, generation, before, by simp,
      history, silent⟩

/-- From boot on the initial session is opened at most once. When it is, all that was told before the
preparation is one bootstrap, the connect of the same operation, one association and its success, and
nothing is told until the commit. After an attempt that failed none succeeds. -/
theorem initial_session_opens_once (realized : LinkRealizes core .new talk labels w) :
    talk.countP opensInitial ≤ 1 ∧ (∀ first id second,
      talk = first ++ ⟨.beginInitialSessionExperiment id, .ok ()⟩ :: second →
      ∃ early lead between rest middle intent bound generation,
        LinkRealizes core .new first early middle ∧
        labels = early ++ (lead ++ .mine ⟨.prepareOpen, .ok intent⟩ ::
          (between ++ .mine ⟨.commitOpen bound generation, .ok ()⟩ :: rest)) ∧
        sessionHistory (early ++ lead) = [.initial .bootstrap, .initial (.connect id),
          .initial .associate, .initial (.result true)] ∧ sessionHistory between = []) ∧
    (∀ first id error second,
      talk = first ++ ⟨.beginInitialSessionExperiment id, .error error⟩ :: second →
      ∀ other, ⟨.beginInitialSessionExperiment other, .ok ()⟩ ∉ second) := by
  refine ⟨?_, ?_, ?_⟩
  · refine countP_le_of_splits opensInitial fun first call second split opens => ?_
    obtain ⟨id, rfl⟩ := opensInitial_inv opens
    obtain ⟨early, lead, _, _, middle, _, _, _, before, _, history, _⟩ :=
      success_located (split ▸ realized)
    rw [Nat.lt_one_iff, countP_eq_zero]
    intro call made earlier
    obtain ⟨other, rfl⟩ := opensInitial_inv earlier
    exact no_earlier_attempt before history other (.ok ()) made
  · rintro first id second rfl
    exact success_located realized
  · rintro first id error second rfl other later
    obtain ⟨front, back, rfl⟩ := append_of_mem later
    rw [← cons_append, ← append_assoc] at realized
    obtain ⟨early, lead, _, _, middle, _, _, _, before, _, history, _⟩ := success_located realized
    exact no_earlier_attempt before history id (.error error) (by simp)

/-! A link that is bound, and opened once its first association has succeeded. -/

theorem events_run (events : List InitialEvent) (w : LinkWorld Port) :
    Run (linkWorld (E := E) core).system w (events.map fun event => .other (.native (.initial event)))
      { w with
        world := { w.world with route := events.foldl initialEvent w.world.route } } := by
  induction events generalizing w with
  | nil => exact .start
  | cons event rest ih =>
    have step : (linkWorld (E := E) core).system.step w (.other (.native (.initial event)))
        { w with world := { w.world with route := initialEvent w.world.route event } } :=
      .other (.native rfl (.initial event))
    exact (Run.start.next step).trans (ih _)

def firstOperation : OperationId := ⟨1⟩

def firstEvents : List InitialEvent := [.bootstrap, .connect firstOperation, .associate, .result true]

def associatedWorld : RouteWorld :=
  { boundWorld with route := firstEvents.foldl initialEvent boundWorld.route }

def sessionActions : List (Exchange (linkAtoms NumberedPort Unit)) :=
  openingActions firstOperation ⟨1, 0, none⟩ ⟨1, 0, some firstOperation⟩ firstGeneration

theorem session_opened : ∃ after, Run (linkWorld (E := Unit) numberedCore).system
    { boundLink with world := associatedWorld } (alone sessionActions) after := by
  have prepare := Run.start.next (numbered_step (w := { boundLink with world := associatedWorld })
    .prepareOpen (.ok ⟨1, 0, none⟩) ⟨_, RouteStep.prepareOpen rfl, rfl⟩)
  have binds := prepare.next (numbered_step (.bindInitial firstOperation ⟨1, 0, none⟩)
    (.ok ⟨1, 0, some firstOperation⟩)
    ⟨_, @RouteStep.bindInitial _ [] [] ⟨1, 0, none⟩ firstOperation rfl rfl, rfl⟩)
  have begins := binds.next (numbered_step .beginSession (.ok firstGeneration) ⟨_, rfl, rfl, rfl⟩)
  have commit := begins.next (numbered_step (.commitOpen ⟨1, 0, some firstOperation⟩ firstGeneration)
    (.ok ()) ⟨_, @RouteStep.commitOpen _ [] [] ⟨1, 0, some firstOperation⟩ firstGeneration rfl rfl, rfl⟩)
  exact ⟨_, commit.next (numbered_step (.storeObserved (some 1)) () ⟨_, rfl, rfl⟩)⟩

theorem session_runs :
    Program.Runs (NativeLink.beginInitialSessionExperiment firstOperation) sessionActions (.ok ()) := by
  refine runs_atom (o := .prepareOpen) (.ok ⟨1, 0, none⟩) ?_
  refine runs_atom (o := .bindInitial firstOperation ⟨1, 0, none⟩) (.ok ⟨1, 0, some firstOperation⟩) ?_
  refine runs_atom (o := .beginSession) (.ok firstGeneration) ?_
  refine runs_atom (o := .commitOpen ⟨1, 0, some firstOperation⟩ firstGeneration) (.ok ()) ?_
  exact runs_atom (o := .storeObserved (some 1)) () (.done _)

def firstSession : List (Exchange (linkCalls NumberedPort Unit)) :=
  [⟨.bind freshPort, .ok ()⟩, ⟨.beginInitialSessionExperiment firstOperation, .ok ()⟩]

theorem first_session_opens_once : ∃ labels w, LinkRealizes numberedCore .new firstSession labels w ∧
    firstSession.countP opensInitial ≤ 1 := by
  obtain ⟨after, opens⟩ := session_opened
  let told : List (LinkLabel NumberedPort Unit) :=
    firstEvents.map fun event => .other (.native (.initial event))
  have attempt : Run (linkWorld numberedCore).system boundLink (told ++ alone sessionActions) after :=
    (events_run firstEvents boundLink).trans opens
  have realized : LinkRealizes numberedCore .new firstSession
      (alone bindActions ++ (told ++ alone sessionActions ++ [])) after := by
    refine .call boundLink_reached ?_ (.call attempt ?_ (.idle .start rfl))
    · rw [mine_alone]
      exact bind_runs
    · rw [mine_append, mine_alone]
      exact session_runs
  exact ⟨_, _, realized, (initial_session_opens_once realized).1⟩

end HisiRf
