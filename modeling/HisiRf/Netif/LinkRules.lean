import HisiRf.Netif.NativeLink

/-! Rules for the methods of the native link, and who owns the registration.

The rules take one action at a time: before it the others may have acted, so
that only a stable condition is known when the action is taken.
-/

namespace HisiRf

open Interaction LinkAtom NativeLink

variable {Port E : Type} {core : L2Core Port}

variable {A : Type} {post : A → LinkWorld Port → Prop} {w : LinkWorld Port}

theorem stable_true : Stable (linkWorld (E := E) core) fun _ => True := by
  intro _ _ _ _ _
  trivial

variable {o : LinkAtom Port} {k : o.Reply E → LinkProgram Port E A}

theorem withstands_atom {condition always : LinkWorld Port → Prop}
    (stable : Stable (linkWorld (E := E) core) condition) (holds : condition w)
    (safe : ∀ w, condition w → always w)
    (acts : ∀ before reply after, condition before → o.acts core before reply after →
      (k reply).Withstands (linkWorld core) always post after) :
    (atom o >>= k).Withstands (linkWorld core) always post w :=
  withstands_call stable holds safe acts

/-- Whatever the others do meanwhile, the program ends as `post` says. -/
abbrev Endures (core : L2Core Port) (p : LinkProgram Port E A) (post : A → LinkWorld Port → Prop)
    (w : LinkWorld Port) : Prop := p.Withstands (linkWorld core) (fun _ => True) post w

theorem withstands_skip
    (goesOn : ∀ reply after, Endures core (k reply) post after) :
    Endures core (atom o >>= k) post w :=
  withstands_atom stable_true trivial (fun _ _ => trivial) fun _ reply after _ _ =>
    goesOn reply after

theorem withstands_anything (p : LinkProgram Port E A) : Endures core p (fun _ _ => True) w := by
  induction p generalizing w with
  | done => exact withstands_done stable_true trivial fun _ _ => ⟨trivial, trivial⟩
  | call o next ih =>
    exact withstands_call stable_true trivial (fun _ _ => trivial) fun _ reply _ _ _ => ih reply

section Requests

/-- Actions that neither end nor begin a session and that leave the noted revision alone. -/
def LinkAtom.quiet : LinkAtom Port → Prop
  | .enterTransmit _ | .dropTransmit _ | .transmit _ | .isCurrent _ | .complete _ | .discard _
  | .startSubmit _ | .finishSubmit _ => True
  | _ => False

theorem pollTransmit_quiet (waker : Waker) :
    (pollTransmit waker : LinkProgram Port E (Transmission E)).Only quiet := by
  refine ⟨trivial, ?_⟩
  intro polled
  cases polled with
  | none => trivial
  | some =>
    refine ⟨trivial, ?_⟩
    intro current
    cases current with
    | false => exact ⟨trivial, fun _ => trivial⟩
    | true =>
      refine ⟨trivial, ?_⟩
      intro granted
      cases granted with
      | false => exact ⟨trivial, fun _ => trivial⟩
      | true =>
        refine ⟨trivial, fun _ => ⟨trivial, ?_⟩⟩
        intro result
        rcases result with _ | _ | _ <;> exact ⟨trivial, fun _ => ⟨trivial, fun _ => trivial⟩⟩

/-- Actions of the methods that open, close or watch a link, once it is bound. -/
def LinkAtom.session : LinkAtom Port → Prop
  | .closeRevision | .subscribeClose _ | .closeAdmission | .prepareOpen | .bindInitial _ _
  | .commitOpen _ _ | .dropIntent _ | .linkDown | .beginSession | .loadObserved
  | .storeObserved _ => True
  | _ => False

/-- The same together with those that make a link and give it up. -/
def LinkAtom.lifecycle : LinkAtom Port → Prop
  | .claim _ | .own _ | .release | .dropRegistration => True
  | o => o.session

theorem LinkAtom.lifecycle_of_session (o : LinkAtom Port) (session : o.session) : o.lifecycle := by
  cases o <;> first | exact trivial | exact session

variable (E) in
theorem close_session : (close : LinkProgram Port E _).Only session :=
  ⟨trivial, fun _ => ⟨trivial, fun _ => ⟨trivial, fun _ => ⟨trivial, fun _ => trivial⟩⟩⟩⟩

theorem begin_session (intent : OpenIntent) :
    (begin intent : LinkProgram Port E _).Only session := by
  refine ⟨trivial, ?_⟩
  intro begun
  cases begun with
  | error => exact ⟨trivial, fun _ => trivial⟩
  | ok =>
    refine ⟨trivial, ?_⟩
    intro committed
    cases committed with
    | error =>
      refine ⟨trivial, ?_⟩
      intro ended
      cases ended <;> trivial
    | ok => exact ⟨trivial, fun _ => trivial⟩

theorem beginAfterNativeQuiescence_session :
    (beginAfterNativeQuiescence : LinkProgram Port E _).Only session := by
  refine ⟨trivial, ?_⟩
  intro prepared
  cases prepared with
  | error => trivial
  | ok intent => exact begin_session intent

theorem openInitialSession_session (id : OperationId) :
    (openInitialSession id : LinkProgram Port E _).Only session := by
  refine ⟨trivial, ?_⟩
  intro prepared
  cases prepared with
  | error => trivial
  | ok =>
    refine ⟨trivial, ?_⟩
    intro bound
    cases bound with
    | error => trivial
    | ok named => exact begin_session named

theorem beginInitialSessionExperiment_session (id : OperationId) :
    (beginInitialSessionExperiment id : LinkProgram Port E _).Only session := by
  apply (openInitialSession_session id).bind
  intro opened
  cases opened with
  | error => exact (close_session E).bind fun _ => trivial
  | ok => trivial

theorem pollNativeClose_session (waker : Waker) :
    (pollNativeClose waker : LinkProgram Port E _).Only session := by
  refine ⟨trivial, fun current => ⟨trivial, ?_⟩⟩
  intro observed
  simp only [Program.done_bind]
  split
  · trivial
  · refine ⟨trivial, fun _ => ⟨trivial, ?_⟩⟩
    intro ended
    cases ended <;> trivial

theorem bind_lifecycle (port : Port) :
    (bind core port : LinkProgram Port E _).Only lifecycle := by
  refine ⟨trivial, ?_⟩
  intro claimed
  cases claimed with
  | error => trivial
  | ok =>
    refine ⟨trivial, fun _ => ⟨trivial, ?_⟩⟩
    intro ended
    cases ended with
    | error | ok => exact ⟨trivial, fun _ => ⟨trivial, fun _ => trivial⟩⟩

variable (E) in
theorem drop_lifecycle : (drop : LinkProgram Port E _).Only lifecycle :=
  ((close_session E).mono lifecycle_of_session).bind
    fun _ => ⟨trivial, fun _ => ⟨trivial, fun _ => trivial⟩⟩

end Requests

def LinkWorld.Registered (w : LinkWorld Port) : Prop :=
  ∀ link, w.link = some link → w.world.registered = true

theorem step_registered {w next : RouteWorld} {label : RouteLabel} (step : RouteStep w label next)
    (kept : ∀ woken, label ≠ .dropRegistration woken) (held : w.registered = true) :
    next.registered = true := by
  cases step with
  | claim => simp [RouteWorld.claimed, held]
  | dropRegistration => exact absurd rfl (kept _)
  | _ => exact held

theorem stable_owned : Stable (linkWorld (E := E) core) fun w => w.world.registered = true := by
  intro w after act held taken
  cases taken with
  | native foreign step =>
    refine step_registered step ?_ held
    rintro woken rfl
    cases foreign
  | device => exact held

theorem stable_registered : Stable (linkWorld (E := E) core) LinkWorld.Registered := by
  intro w after act held taken
  cases taken with
  | native foreign step =>
    intro link bound
    refine step_registered step ?_ (held link bound)
    rintro woken rfl
    cases foreign
  | device bound => exact fun _ _ => held _ bound

/-- Actions that neither make a link nor give its registration back. -/
def LinkAtom.keepsOwner : LinkAtom Port → Prop
  | .own _ | .dropRegistration => False
  | _ => True

theorem registered_atom (o : LinkAtom Port) (before : LinkWorld Port) (reply : o.Reply E)
    (after : LinkWorld Port) (keeps : o.keepsOwner) (held : before.Registered)
    (action : o.acts core before reply after) : after.Registered := by
  intro link bound
  rcases acts_cases action with ⟨label, ⟨next, step, rfl⟩, _, dropped⟩ | ⟨_, same, _, free⟩
  · refine step_registered step (fun woken drops => ?_) (held link bound)
    cases dropped woken drops
    cases keeps
  · rw [same]
    cases owned : before.link with
    | none =>
      rw [free (by rintro port rfl; cases keeps) owned] at bound
      cases bound
    | some link => exact held link owned

theorem LinkAtom.keepsOwner_of_session (o : LinkAtom Port) (session : o.session) :
    o.keepsOwner := by
  cases o <;> first | exact trivial | exact session

theorem LinkAtom.keepsOwner_of_quiet (o : LinkAtom Port) (quiet : o.quiet) : o.keepsOwner := by
  cases o <;> first | exact trivial | exact quiet

theorem bind_registered (port : Port) (w : LinkWorld Port) (held : w.Registered) :
    Endures core (bind (E := E) core port) (fun _ after => after.Registered) w := by
  apply withstands_atom stable_registered held (fun _ _ => trivial)
  intro before reply claimed still action
  cases reply with
  | error =>
    have kept := registered_atom (.claim _) before (.error _) claimed trivial still action
    exact withstands_done stable_registered kept fun _ kept => ⟨trivial, kept⟩
  | ok =>
    have owned : claimed.world.registered = true := by
      obtain ⟨next, step, rfl⟩ := action
      generalize named : RouteLabel.claim (core.ingress port) (.ok _) = label at step
      cases step with
      | claim =>
        obtain ⟨_, granted⟩ := RouteLabel.claim.inj named
        simp [RouteWorld.claimed, ← granted, Except.toBool]
      | _ => cases named
    -- From here on the registration is owned until it is dropped again.
    apply withstands_atom stable_owned owned (fun _ _ => trivial)
    rintro before _ after owned rfl
    have kept : LinkWorld.Registered { before with link := some ⟨port, none⟩ } := fun _ _ => owned
    apply withstands_atom stable_registered kept (fun _ _ => trivial)
    intro before ended after kept action
    have still := registered_atom .linkDown before ended after trivial kept action
    cases ended with
    | error =>
      apply withstands_skip
      intro _ unregistered
      apply withstands_atom stable_true trivial (fun _ _ => trivial)
      rintro before _ after - rfl
      exact withstands_done stable_registered (by rintro _ ⟨⟩) fun _ kept => ⟨trivial, kept⟩
    | ok =>
      apply withstands_only stable_registered still (fun _ _ => trivial) registered_atom
      exact ⟨trivial, fun _ => ⟨trivial, fun _ => trivial⟩⟩

theorem drop_registered (w : LinkWorld Port) :
    Endures core (drop (E := E)) (fun _ after => after.Registered) w := by
  apply Program.Withstands.bind
  refine (withstands_anything _).mono ?_
  intro _ closed _
  apply withstands_skip
  intro _ unregistered
  apply withstands_call stable_true trivial (fun _ _ => trivial)
  rintro before _ after - rfl
  exact withstands_done stable_registered (by rintro _ ⟨⟩) fun _ kept => ⟨trivial, kept⟩

theorem linkProgram_registered (call : LinkCall Port) (w : LinkWorld Port) (held : w.Registered) :
    Endures core (linkProgram (E := E) core call) (fun _ after => after.Registered) w := by
  have only {A : Type} {p : LinkProgram Port E A} (keeps : p.Only keepsOwner) :
      Endures core p (fun _ after => after.Registered) w :=
    withstands_only stable_registered held (fun _ _ => trivial) registered_atom keeps
  have session {A : Type} {p : LinkProgram Port E A} (requests : p.Only session) :
      Endures core p (fun _ after => after.Registered) w :=
    only (requests.mono keepsOwner_of_session)
  cases call with
  | bind port => exact bind_registered port w held
  | beginAfterNativeQuiescence => exact session beginAfterNativeQuiescence_session
  | beginInitialSessionExperiment id => exact session (beginInitialSessionExperiment_session id)
  | pollNativeClose waker => exact session (pollNativeClose_session waker)
  | close => exact session (close_session E)
  | pollTransmit waker => exact only ((pollTransmit_quiet waker).mono keepsOwner_of_quiet)
  | drop => exact drop_registered w

end HisiRf
