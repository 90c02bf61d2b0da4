import HisiRf.Timer.Placement

/-! What the calls of LiteOS and the sweeps do to the control blocks.

They are carried out without interruption here. Before and after, each control block
says whether its timer has a slot and whether it is armed. A sweep disarms all timers
that are due before it comes to the control block of the first one.
-/

namespace HisiRf.Swtmr

open Interaction Function List Program Establishes
open EventGroup (osalOk osalNok)
open Timer (Owns SlotIndex OsalTimer)

/-- The handlers that a sweep calls make no calls of their own. -/
def Plain : (o : ops.Op) → ops.Reply o → Prop
  | .inr .plan, calls => calls = 0
  | _, _ => True

def Calm (w : World) (o : ops.Op) (reply : ops.Reply o) (after : World) : Prop :=
  Atom w o reply after ∧ Plain o reply

def stateOf : Option Bool → UInt8
  | none => 0
  | some false => 2
  | some true => 3

def Agrees (w : World) (index : Index) : Prop :=
  ∃ armed, Placed w.osal index armed ∧ (w.cbs index).state = stateOf armed

def Foreign (o : Timer.World) : Prop :=
  ∀ timer, (∀ index, timer ≠ runtime index) → (o.objects timer).handler ≠ some swtmrFireEntry

variable {w w' w'' : World} {index : Index} {armed : Option Bool} {active : Bool} {call : Timer.Call}
  {thread : Nat}

structure Confined (index : Index) (w w' : World) : Prop where
  cbs : ∀ other, other ≠ index → w'.cbs other = w.cbs other
  spares : Spares (runtime index) w.osal w'.osal

theorem Confined.trans (first : Confined index w w') (second : Confined index w' w'') :
    Confined index w w'' where
  cbs other differ := (second.cbs other differ).trans (first.cbs other differ)
  spares := first.spares.trans second.spares

section

variable (confined : Confined index w w') {other : Index} (differ : other ≠ index)
include confined differ

theorem Confined.placed (placed : Placed w.osal other armed) : Placed w'.osal other armed :=
  placed.untouched (confined.spares _ fun same => differ (runtime_inj same))

theorem Confined.agrees (agrees : Agrees w other) : Agrees w' other := by
  obtain ⟨armed, placed, state⟩ := agrees
  exact ⟨armed, confined.placed differ placed, by rw [confined.cbs other differ, state]⟩

end

theorem Confined.foreign (confined : Confined index w w') (foreign : Foreign w.osal) :
    Foreign w'.osal := by
  intro timer outside
  rw [(confined.spares timer (outside index)).handler]
  exact foreign timer outside

theorem confined_setCb (cb : Cb) : Confined index w (w.setCb index cb) where
  cbs _ differ := update_of_ne differ _ _
  spares _ _ := .refl _ _

theorem osal_establishes {result : Int32 → Option Bool → Prop}
    (body : ∀ notes, call.body.Establishes Timer.Atom
      (fun status after => ∃ armed, result status armed ∧
        Serves index { w.osal with calls := notes } armed after) { w.osal with calls := notes }) :
    (osal thread call).Establishes Calm
      (fun status after => (∃ armed, result status armed ∧ Placed after.osal index armed) ∧
        after.cbs = w.cbs ∧ Confined index w after) w := by
  have inside (w : World) (o : Timer.Op) (reply : o.Reply) (after : World)
      (calm : Calm w (.inl o) reply after) :
      Timer.Atom w.osal o reply after.osal ∧ after.cbs = w.cbs := by
    obtain ⟨taken, _⟩ := calm
    cases taken with
    | osal step => exact ⟨step, rfl⟩
  refine ((task_establishes body thread).left World.osal World.cbs inside).mono ?_
  rintro status after ⟨⟨armed, fits, placed, spares⟩, cbs⟩
  exact ⟨⟨armed, fits, placed⟩, cbs, fun other _ => congrFun cbs other, spares⟩

theorem Confined.refl (index : Index) (w : World) : Confined index w w :=
  ⟨fun _ _ => rfl, fun _ _ => .refl _ _⟩

theorem max_one_ne_zero (ticks : UInt32) : max ticks 1 ≠ 0 := by
  change (if ticks ≤ 1 then 1 else ticks) ≠ 0
  split
  next => decide
  next large => grind

theorem stateOf_inj {other : Option Bool} (same : stateOf armed = stateOf other) :
    armed = other := by
  rcases armed with _ | _ | _ <;> rcases other with _ | _ | _ <;>
    first | rfl | exact absurd same (by decide)

theorem mod_in_call (placed : Placed w.osal index (some active)) {interval : UInt32}
    (positive : interval ≠ 0) : (osal thread (.mod (runtime index) interval)).Establishes Calm
      (fun status after => status = osalOk ∧ Placed after.osal index (some true) ∧
        after.cbs = w.cbs ∧ Confined index w after) w := by
  refine (osal_establishes fun notes =>
    mod_establishes (placed.untouched (untouched_notes _ notes _ _)) positive).mono ?_
  rintro status after ⟨⟨armed, ⟨rfl, rfl⟩, placed⟩, kept⟩
  exact ⟨rfl, placed, kept⟩

theorem startIndex_establishes (agrees : Agrees w index) :
    (startIndex thread index).Establishes Calm
      (fun _ after => Agrees after index ∧ Confined index w after) w := by
  obtain ⟨armed, placed, state⟩ := agrees
  rintro interval started ⟨taken, _⟩
  cases taken with
  | startCb =>
    cases armed with
    | none =>
      have refused : w.startCb index = (none, w) := if_pos state
      rw [refused]
      exact ⟨⟨none, placed, state⟩, .refl index w⟩
    | some active =>
      have allocated : (w.cbs index).state ≠ 0 := by
        rw [state]
        cases active <;> decide
      have started : w.startCb index =
          (some (max (w.cbs index).expiry 1), w.setCb index { w.cbs index with state := 3 }) :=
        if_neg allocated
      rw [started]
      have still : Placed (w.setCb index { w.cbs index with state := 3 }).osal index (some active) :=
        placed
      change ((osal thread _).bind _).Establishes _ _ (w.setCb index { w.cbs index with state := 3 })
      refine bind ((mod_in_call still (max_one_ne_zero _)).mono ?_)
      rintro status after ⟨rfl, placed, cbs, confined⟩
      refine ⟨⟨some true, placed, ?_⟩, (confined_setCb _).trans confined⟩
      rw [cbs, setCb_self]
      rfl

theorem stopIndex_establishes (agrees : Agrees w index) (stopped : (w.cbs index).state ≠ 3) :
    (stopIndex thread index).Establishes Calm
      (fun status after => Agrees after index ∧ Confined index w after ∧
        ((w.cbs index).state ≠ 0 → status = ok ∧ (after.cbs index).state = 2)) w := by
  obtain ⟨armed, placed, state⟩ := agrees
  rintro allocated checked ⟨taken, _⟩
  cases taken with
  | isAllocated =>
    cases armed with
    | none =>
      rw [state]
      exact ⟨⟨none, placed, state⟩, .refl index w, fun allocated => absurd rfl allocated⟩
    | some active =>
      cases active with
      | true => exact absurd state stopped
      | false =>
        rw [state]
        change ((osal thread _).bind _).Establishes _ _ _
        refine bind ((osal_establishes fun notes =>
          stop_establishes (placed.untouched (untouched_notes _ notes _ _))).mono ?_)
        rintro status after ⟨⟨armed, ⟨rfl, rfl⟩, placed⟩, _, confined⟩
        rintro _ last ⟨taken, _⟩
        cases taken with
        | stopCb =>
          have here : ((after.setCb index { after.cbs index with state := 2 }).cbs index).state = 2 := by
            rw [setCb_self]
          exact ⟨⟨some false, placed, here⟩, confined.trans (confined_setCb _), fun _ => ⟨rfl, here⟩⟩

/-- The service answers one for a timer that was running, and LiteOS takes this for a failure. -/
theorem stopIndex_of_running (agrees : Agrees w index) (running : (w.cbs index).state = 3) :
    (stopIndex thread index).Establishes Calm
      (fun status after => status = error ∧ (after.cbs index).state = 3 ∧
        Placed after.osal index (some false)) w := by
  obtain ⟨armed, placed, state⟩ := agrees
  obtain rfl : armed = some true := stateOf_inj (state.symm.trans running)
  rintro allocated checked ⟨taken, _⟩
  cases taken with
  | isAllocated =>
    rw [state]
    change ((osal thread _).bind _).Establishes _ _ _
    refine bind ((osal_establishes fun notes =>
      stop_establishes (placed.untouched (untouched_notes _ notes _ _))).mono ?_)
    rintro status after ⟨⟨armed, ⟨rfl, rfl⟩, placed⟩, cbs, _⟩
    exact ⟨rfl, cbs ▸ running, placed⟩

theorem deleteIndex_establishes (agrees : Agrees w index) :
    (deleteIndex thread index).Establishes Calm
      (fun _ after => Agrees after index ∧ Confined index w after) w := by
  obtain ⟨armed, placed, _⟩ := agrees
  refine bind ((osal_establishes fun notes =>
    destroy_establishes (placed.untouched (untouched_notes _ notes _ _))).mono ?_)
  rintro status after ⟨⟨_, rfl, placed⟩, _, confined⟩
  rintro _ last ⟨taken, _⟩
  cases taken with
  | clearCb =>
    refine ⟨⟨none, placed, ?_⟩, confined.trans (confined_setCb _)⟩
    rw [setCb_self]
    rfl

/-- Between two calls, all control blocks agree with their timers. -/
structure Agree (w : World) : Prop where
  foreign : Foreign w.osal
  agrees : ∀ index, Agrees w index

theorem callHandler_establishes (index : Index) (handler arg : UInt32) :
    (callHandler thread index handler arg).Establishes Calm (fun _ after => after = w) w := by
  unfold callHandler
  split
  next => rfl
  next =>
    rintro _ called ⟨taken, _⟩
    cases taken with
    | callHandler =>
      rintro calls planned ⟨taken, plain⟩
      cases taken with
      | plan =>
        obtain rfl : calls = 0 := plain
        rfl

theorem armAgain_establishes (placed : Placed w.osal index (some false)) {periodic : Bool}
    (state : (w.cbs index).state = if periodic then 3 else 2) :
    (armAgain thread index periodic).Establishes Calm
      (fun _ after => Agrees after index ∧ Confined index w after) w := by
  cases periodic with
  | false => exact ⟨⟨some false, placed, state⟩, .refl index w⟩
  | true =>
    rintro interval read ⟨taken, _⟩
    cases taken with
    | readInterval =>
      change ((osal thread _).bind _).Establishes _ _ _
      refine bind ((mod_in_call placed (max_one_ne_zero _)).mono ?_)
      rintro status after ⟨_, placed, cbs, confined⟩
      refine ⟨⟨some true, placed, ?_⟩, confined⟩
      rw [cbs, state]
      rfl

theorem fireIndex_establishes (placed : Placed w.osal index (some false)) :
    (fireIndex thread index).Establishes Calm
      (fun _ after => Agrees after index ∧ Confined index w after) w := by
  rintro found begun ⟨taken, _⟩
  cases taken with
  | beginFire =>
    change ((callHandler thread index _ _).bind _).Establishes _ _ _
    refine bind ((callHandler_establishes index _ _).mono ?_)
    intro _ called same
    rw [same]
    rintro _ ended ⟨taken, _⟩
    cases taken with
    | endFire =>
      refine (armAgain_establishes ?_ ?_).mono ?_
      · exact placed
      · unfold World.endFire World.beginFire
        rw [setCb_self, setCb_self]
      · rintro _ after ⟨here, confined⟩
        exact ⟨here, ((confined_setCb _).trans (confined_setCb _)).trans confined⟩

/-- The timers of a batch that a sweep has still to come to. -/
structure Pending (rest : List Nat) (w : World) : Prop where
  foreign : Foreign w.osal
  distinct : rest.Pairwise fun timer later => ∀ index, timer = runtime index → later ≠ runtime index
  waiting : ∀ index, runtime index ∈ rest → Placed w.osal index (some false)
  others : ∀ index, runtime index ∉ rest → Agrees w index

variable {rest : List Nat} {timer : Nat}

theorem Agrees.untouched (agrees : Agrees w index) (kept : Untouched w.osal w'.osal (runtime index))
    (cbs : w'.cbs = w.cbs) : Agrees w' index := by
  obtain ⟨armed, placed, state⟩ := agrees
  exact ⟨armed, placed.untouched kept, by rw [cbs, state]⟩

theorem Pending.untouched (pending : Pending rest w) (kept : ∀ timer, Untouched w.osal w'.osal timer)
    (cbs : w'.cbs = w.cbs) : Pending rest w' where
  foreign timer outside := by
    rw [(kept timer).handler]
    exact pending.foreign timer outside
  distinct := pending.distinct
  waiting index member := (pending.waiting index member).untouched (kept _)
  others index absent := (pending.others index absent).untouched (kept _) cbs

theorem Pending.skip (pending : Pending (timer :: rest) w) (outside : ∀ index, timer ≠ runtime index) :
    Pending rest w where
  foreign := pending.foreign
  distinct := (pairwise_cons.mp pending.distinct).2
  waiting index member := pending.waiting index (mem_cons_of_mem _ member)
  others index absent := by
    refine pending.others index fun member => ?_
    rcases mem_cons.mp member with same | later
    · exact outside index same.symm
    · exact absent later

theorem Pending.fired (pending : Pending (runtime index :: rest) w) (here : Agrees w' index)
    (confined : Confined index w w') : Pending rest w' where
  foreign := confined.foreign pending.foreign
  distinct := (pairwise_cons.mp pending.distinct).2
  waiting other member := by
    have differ : other ≠ index := by
      rintro rfl
      exact (pairwise_cons.mp pending.distinct).1 _ member other rfl rfl
    exact confined.placed differ (pending.waiting other (mem_cons_of_mem _ member))
  others other absent := by
    by_cases same : other = index
    · rw [same]
      exact here
    · refine confined.agrees same (pending.others other fun member => ?_)
      rcases mem_cons.mp member with head | later
      · exact same (runtime_inj head)
      · exact absent later

theorem dispatch_establishes (pending : Pending rest w) (called : Bool) {after : Task Unit}
    {post : Unit → World → Prop} (goesOn : ∀ w', Pending rest w' → after.Establishes Calm post w') :
    ((left (Timer.atom (.dispatch thread timer called))).bind fun _ => after).Establishes Calm
      post w := by
  rintro _ noted ⟨taken, _⟩
  cases taken with
  | osal step =>
    cases step with
    | dispatch => exact goesOn _ (pending.untouched (fun _ => untouched_notes _ _ _ _) rfl)

theorem returned_establishes (pending : Pending rest w) :
    (own (.returned thread)).Establishes Calm (fun _ after => Pending rest after) w := by
  rintro _ after ⟨taken, _⟩
  cases taken with
  | returned => exact pending.untouched (fun _ => .refl _ _) rfl

theorem fire_establishes (pending : Pending (runtime index :: rest) w) :
    (Timer.fire left (callback thread) thread (runtime index)
      (w.osal.callbackOf (runtime index))).Establishes Calm (fun _ after => Pending rest after) w := by
  have placed := pending.waiting index mem_cons_self
  obtain ⟨slot, holds⟩ := placed.below
  have found : w.osal.callbackOf (runtime index) = some (swtmrFireEntry, index.val.toUInt32) := by
    unfold Timer.World.callbackOf
    rw [placed.handler, holds.data]
    rfl
  rw [found]
  refine dispatch_establishes pending true fun noted pending => ?_
  unfold callback
  unfold swtmrFire
  rw [indexOf_data]
  have placed := pending.waiting index mem_cons_self
  refine bind ((fireIndex_establishes placed).mono ?_)
  rintro _ after ⟨here, confined⟩
  exact returned_establishes (pending.fired here confined)

theorem fire_other (pending : Pending (timer :: rest) w) (outside : ∀ index, timer ≠ runtime index) :
    (Timer.fire left (callback thread) thread timer (w.osal.callbackOf timer)).Establishes Calm
      (fun _ after => Pending rest after) w := by
  have foreign := pending.foreign timer outside
  unfold Timer.World.callbackOf
  cases found : (w.osal.objects timer).handler with
  | none =>
    have over_with (w' : World) (pending : Pending rest w') :
        (pure () : Task Unit).Establishes Calm (fun _ after => Pending rest after) w' := pending
    exact dispatch_establishes (pending.skip outside) false over_with
  | some handler =>
    have differs : handler ≠ swtmrFireEntry := fun same => foreign (found.trans (congrArg some same))
    refine dispatch_establishes (pending.skip outside) true fun noted pending => ?_
    unfold callback
    rw [if_neg differs]
    exact returned_establishes pending

theorem fireEach_establishes (pending : Pending rest w) :
    (Timer.fireEach left (callback thread) thread rest).Establishes Calm
      (fun _ after => Agree after) w := by
  induction rest generalizing w with
  | nil => exact ⟨pending.foreign, fun index => pending.others index not_mem_nil⟩
  | cons timer rest ih =>
    unfold Timer.fireEach
    split
    next null => exact ih (pending.skip fun index same => runtime_ne_zero index (same.symm.trans null))
    next real =>
      rintro found read ⟨taken, _⟩
      cases taken with
      | osal step =>
        cases step with
        | readCallback =>
          change ((Timer.fire left (callback thread) thread timer
            (w.osal.callbackOf timer)).bind _).Establishes _ _ w
          refine bind ?_
          by_cases mine : ∃ index, timer = runtime index
          · obtain ⟨index, rfl⟩ := mine
            exact (fire_establishes pending).mono fun _ _ => ih
          · have outside (index : Index) : timer ≠ runtime index := fun same => mine ⟨index, same⟩
            exact (fire_other pending outside).mono fun _ _ => ih

variable {now : UInt64} {slot : SlotIndex}

theorem armed_of_due (due : w.osal.isDue now slot = true) :
    (w.osal.slots slot).used = true ∧ (w.osal.slots slot).active = true := by
  unfold Timer.World.isDue at due
  simp only [Bool.and_eq_true] at due
  exact due.1

theorem Holds.collect (holds : Holds w.osal index slot true) (due : w.osal.isDue now slot = true) :
    Holds (w.osal.collect thread now).2 index slot false := by
  have expired : (w.osal.collect thread now).2.slots slot =
      { w.osal.slots slot with active := false } := by
    change (if w.osal.isDue now slot then Timer.World.expire now (w.osal.slots slot)
      else w.osal.slots slot) = _
    rw [if_pos due]
    exact if_neg (by rw [holds.single]; exact Bool.false_ne_true)
  have same := Timer.sameTable_collect w.osal thread now
  refine ⟨holds.handle, same.owns.mpr holds.owns, ?_, ?_, ?_, holds.data⟩
  · intro other owns
    exact holds.only other (same.owns.mp owns)
  · rw [expired]
  · rw [expired]
    exact holds.single

def Stops (w : World) (request : Request) (status : Int32) (after : World) : Prop :=
  ∀ id index, request = .stop id → indexOf id.toNat = some index → (w.cbs index).state ≠ 0 →
    status = ok ∧ (after.cbs index).state = 2

/-- The notes at both ends of a call change nothing else. -/
theorem call_establishes {request : Request} {post : Int32 → World → Prop}
    (body : ∀ calls, (request.body thread).Establishes Calm post { w with calls })
    (noted : ∀ status after calls, post status after → post status { after with calls }) :
    (request.task thread).Establishes Calm post w := by
  rintro _ entered ⟨taken, _⟩
  cases taken with
  | enter =>
    change ((request.body thread).bind _).Establishes _ _ _
    refine bind ((body _).mono ?_)
    rintro status middle ends _ after ⟨taken, _⟩
    cases taken with
    | leave => exact noted status middle _ ends

variable (agree : Agree w)
include agree

theorem Agree.confined (here : Agrees w' index) (confined : Confined index w w') : Agree w' where
  foreign := confined.foreign agree.foreign
  agrees other := by
    by_cases same : other = index
    · rw [same]
      exact here
    · exact confined.agrees same (agree.agrees other)

variable {claimed : World} {interval : UInt32}

theorem finishCreate_establishes {status : Int32} (confined : Confined index w claimed)
    (state : (claimed.cbs index).state = 2)
    (fits : status = osalOk ∧ armed = some false ∨ status = osalNok ∧ armed = none)
    (placed : Placed claimed.osal index armed) :
    (finishCreate index status).Establishes Calm (fun _ after => Agree after) claimed := by
  rcases fits with ⟨rfl, rfl⟩ | ⟨rfl, rfl⟩
  · rintro _ after ⟨taken, _⟩
    cases taken with
    | setOutput => exact agree.confined ⟨some false, placed, state⟩ confined
  · rintro _ after ⟨taken, _⟩
    cases taken with
    | clearCb =>
      refine agree.confined ⟨none, placed, ?_⟩ (confined.trans (confined_setCb _))
      rw [setCb_self]
      rfl

theorem createFor_establishes (confined : Confined index w claimed)
    (state : (claimed.cbs index).state = 2) (placed : Placed claimed.osal index none) :
    (createFor thread interval (some index)).Establishes Calm (fun _ after => Agree after) claimed := by
  have object : (claimed.prepare index interval).osal.objects (runtime index) =
      { claimed.osal.objects (runtime index) with
        timer := 0
        data := index.val.toUInt32
        interval := interval } := update_self _ _ _
  have ready : Placed (claimed.prepare index interval).osal index none := by
    refine ⟨(congrArg OsalTimer.handler object).trans placed.handler, congrArg OsalTimer.timer object, ?_⟩
    intro slot owns
    exact placed.below.2 slot ⟨owns.real, owns.used, owns.timer⟩
  have prepared : Confined index claimed (claimed.prepare index interval) :=
    ⟨fun _ _ => rfl, spares_setObject _ _⟩
  rintro _ after ⟨taken, _⟩
  cases taken with
  | prepare =>
    change ((osal thread _).bind _).Establishes _ _ (claimed.prepare index interval)
    refine bind ((osal_establishes fun notes =>
      init_establishes (ready.untouched (untouched_notes _ notes _ _))
        (congrArg OsalTimer.data object)).mono ?_)
    rintro status last ⟨⟨armed, fits, placed⟩, cbs, kept⟩
    refine finishCreate_establishes agree (confined.trans (prepared.trans kept)) ?_ fits placed
    rw [cbs]
    exact state

theorem create_establishes {mode : UInt8} {handler : UInt32} {output : Bool} {arg : UInt32} :
    (losSwtmrCreate thread interval mode handler output arg).Establishes Calm
      (fun _ after => Agree after) w := by
  unfold losSwtmrCreate
  split
  next => exact agree
  next =>
    rintro found claimed ⟨taken, _⟩
    cases taken with
    | claimCb =>
      unfold World.claimCb
      cases free : w.freeIndex with
      | none => exact agree
      | some index =>
        obtain ⟨armed, placed, state⟩ := agree.agrees index
        have none_yet : armed = none := stateOf_inj (state.symm.trans (state_of_freeIndex free))
        rw [none_yet] at placed
        refine createFor_establishes agree ⟨fun other differ => ?_, fun other differ => ?_⟩ ?_ ?_
        · exact update_of_ne differ _ _
        · exact .refl w.osal other
        · change ((w.setCb index _).cbs index).state = 2
          rw [setCb_self]
        · exact placed

theorem osTimerStart_establishes (id : Option Index) (ticks : UInt32) :
    (osTimerStart thread id ticks).Establishes Calm (fun _ after => Agree after) w := by
  unfold osTimerStart
  cases id with
  | none => exact agree
  | some index =>
    dsimp only
    split
    next => exact agree
    next =>
      rintro _ changed ⟨taken, _⟩
      cases taken with
      | setPeriod =>
        have agrees : Agrees (w.setPeriod index ticks) index := by
          obtain ⟨armed, placed, state⟩ := agree.agrees index
          refine ⟨armed, placed, ?_⟩
          unfold World.setPeriod
          rw [setCb_self]
          exact state
        change ((startIndex thread index).bind _).Establishes _ _ _
        refine bind ((startIndex_establishes agrees).mono ?_)
        rintro status after ⟨here, confined⟩
        exact agree.confined here ((confined_setCb _).trans confined)

theorem withIndex_establishes {body : Index → Task Int32} {id : UInt16}
    {result : Int32 → World → Prop} (refused : indexOf id.toNat = none → result error w)
    (bodies : ∀ index, indexOf id.toNat = some index →
      (body index).Establishes Calm (fun status after => Agrees after index ∧
        Confined index w after ∧ result status after) w) :
    (withIndex id body).Establishes Calm (fun status after => Agree after ∧ result status after) w := by
  unfold withIndex
  cases found : indexOf id.toNat with
  | none => exact ⟨agree, refused found⟩
  | some index =>
    refine (bodies index found).mono ?_
    rintro status after ⟨here, confined, fits⟩
    exact ⟨agree.confined here confined, fits⟩

theorem stop_of_running {id : UInt16} (found : indexOf id.toNat = some index)
    (running : (w.cbs index).state = 3) : ((Request.stop id).task thread).Establishes Calm
      (fun status after => status = error ∧ (after.cbs index).state = 3 ∧
        Placed after.osal index (some false)) w := by
  refine call_establishes (fun calls => ?_) fun _ _ _ ends => ends
  change (withIndex id (stopIndex thread)).Establishes _ _ _
  unfold withIndex
  rw [found]
  exact stopIndex_of_running (w := { w with calls }) (agree.agrees index) running

theorem Agree.due (due : w.osal.isDue now slot = true)
    (named : (w.osal.slots slot).timer = runtime index) :
    (w.osal.objects (runtime index)).handler = some swtmrFireEntry ∧ Holds w.osal index slot true := by
  obtain ⟨used, active⟩ := armed_of_due due
  have owns : Owns w.osal (runtime index) slot := ⟨runtime_ne_zero index, used, named⟩
  obtain ⟨armed, placed, _⟩ := agree.agrees index
  refine ⟨placed.handler, ?_⟩
  cases armed with
  | none => exact absurd owns (placed.below.2 slot)
  | some state =>
    obtain ⟨only, holds⟩ := placed.below
    obtain rfl := holds.only slot owns
    obtain rfl : state = true := holds.active.symm.trans active
    exact holds

theorem collect_pending (thread : Nat) (now : UInt64) :
    Pending (w.osal.collect thread now).1 { w with osal := (w.osal.collect thread now).2 } where
  foreign := agree.foreign
  distinct := by
    refine pairwise_map.mpr ((nodup_finRange _).filter _ |>.imp_of_mem ?_)
    intro slot other first second differ index mine also
    have one := (agree.due (mem_filter.mp first).2 mine).2
    have two := (agree.due (mem_filter.mp second).2 also).2
    exact differ (two.only slot one.owns)
  waiting index member := by
    obtain ⟨slot, found, named⟩ := mem_map.mp member
    obtain ⟨_, due⟩ := mem_filter.mp found
    obtain ⟨handler, holds⟩ := agree.due due named
    exact ⟨handler, slot, holds.collect due⟩
  others index absent := by
    refine (agree.agrees index).untouched ⟨?_, rfl⟩ rfl
    intro slot owned
    have owns : Owns w.osal (runtime index) slot :=
      owned.elim id (Timer.sameTable_collect w.osal thread now).owns.mp
    have early : ¬w.osal.isDue now slot = true := fun due =>
      absent (mem_map.mpr ⟨slot, mem_filter.mpr ⟨mem_finRange slot, due⟩, owns.timer⟩)
    change (if w.osal.isDue now slot then _ else w.osal.slots slot) = _
    rw [if_neg early]

theorem sweep_establishes : (sweep thread).Establishes Calm (fun _ after => Agree after) w := by
  rintro now timed ⟨taken, _⟩
  cases taken with
  | osal step =>
    cases step with
    | nowMs =>
      rintro due collected ⟨taken, _⟩
      cases taken with
      | osal step =>
        cases step with
        | collect => exact fireEach_establishes (collect_pending agree thread now)

variable (request : Request)
  (tame : ∀ id index, request = .stop id → indexOf id.toNat = some index → (w.cbs index).state ≠ 3)
include request tame

theorem body_establishes : (request.body thread).Establishes Calm
      (fun status after => Agree after ∧ Stops w request status after) w := by
  have other (differs : ∀ id, request ≠ .stop id) (status : Int32) (after : World) :
      Stops w request status after := fun id _ same => absurd same (differs id)
  cases request with
  | create =>
    exact (create_establishes agree).mono fun status after agree => ⟨agree, other (by nofun) _ _⟩
  | start =>
    refine withIndex_establishes agree (fun _ => other (by nofun) _ _) fun index _ => ?_
    refine (startIndex_establishes (agree.agrees index)).mono ?_
    rintro status after ⟨here, confined⟩
    exact ⟨here, confined, other (by nofun) _ _⟩
  | delete =>
    refine withIndex_establishes agree (fun _ => other (by nofun) _ _) fun index _ => ?_
    refine (deleteIndex_establishes (agree.agrees index)).mono ?_
    rintro status after ⟨here, confined⟩
    exact ⟨here, confined, other (by nofun) _ _⟩
  | osTimerStart id ticks =>
    exact (osTimerStart_establishes agree id ticks).mono fun status after agree =>
      ⟨agree, other (by nofun) _ _⟩
  | stop id =>
    refine withIndex_establishes agree ?_ fun index found => ?_
    · intro missing _ index same found
      obtain rfl := Request.stop.inj same
      rw [missing] at found
      cases found
    · refine (stopIndex_establishes (agree.agrees index) (tame id index rfl found)).mono ?_
      rintro status after ⟨here, confined, stops⟩
      refine ⟨here, confined, ?_⟩
      intro _ other same named allocated
      obtain rfl := Request.stop.inj same
      obtain rfl : index = other := Option.some.inj (found.symm.trans named)
      exact stops allocated

theorem request_establishes : (request.task thread).Establishes Calm
      (fun status after => Agree after ∧ Stops w request status after) w := by
  refine call_establishes (fun calls => ?_) fun status after calls ends => ?_
  · exact body_establishes (w := { w with calls }) ⟨agree.foreign, agree.agrees⟩ request tame
  · exact ⟨⟨ends.1.foreign, ends.1.agrees⟩, ends.2⟩

end HisiRf.Swtmr
