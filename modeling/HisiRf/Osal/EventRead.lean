import HisiRf.Osal.EventGroup

/-! What a read of an event group returns.

A read looks at the bits once or twice in every round. Its record tells which
look, if any, has matched; the result is read off the record, and the step of
that look says what the bits were and which of them were cleared.
-/

namespace HisiRf.EventGroup

open Interaction Storage List PoolLabel

variable {bits mask mode : UInt32} {group : Group}

section Bits

variable {waiter : Waiter} {matched : UInt32}

theorem eventMatches_eq_some : eventMatches bits mask mode = some matched ↔
      matched = bits &&& mask ∧ modeSatisfied matched mask mode = true := by
  unfold eventMatches
  dsimp only
  split
  next satisfied =>
    constructor
    · rintro ⟨⟩
      exact ⟨rfl, satisfied⟩
    · rintro ⟨rfl, _⟩
      rfl
  next unsatisfied =>
    constructor
    · nofun
    · rintro ⟨rfl, satisfied⟩
      exact absurd satisfied unsatisfied

theorem satisfied_iff :
    waiter.satisfied bits = true ↔ modeSatisfied (bits &&& waiter.mask) waiter.mask waiter.mode = true := by
  unfold Waiter.satisfied eventMatches
  dsimp only
  split
  next satisfied => simp [satisfied]
  next unsatisfied => simp [unsatisfied]

/-- All bits of the mask with `waitmodeAnd`, some bit without it. -/
theorem modeSatisfied_iff : modeSatisfied matched mask mode = true ↔
    if mode &&& waitmodeAnd ≠ 0 then matched = mask ∧ mask ≠ 0 else matched ≠ 0 := by
  unfold modeSatisfied
  split
  · simp
  · simp

theorem satisfied_of_and (kept : UInt32) (satisfied : waiter.satisfied (bits &&& kept) = true) :
    waiter.satisfied bits = true := by
  have swap : (bits &&& kept) &&& waiter.mask = (bits &&& waiter.mask) &&& kept := by
    rw [UInt32.and_assoc, UInt32.and_comm kept, ← UInt32.and_assoc]
  rw [satisfied_iff, modeSatisfied] at satisfied ⊢
  split at satisfied
  next all =>
    simp only [Bool.and_eq_true, beq_iff_eq, bne_iff_ne] at satisfied
    -- The mask is part of what was kept, so it is part of the bits.
    have inside : bits &&& waiter.mask = waiter.mask := by
      rw [← satisfied.1, UInt32.and_assoc bits kept, ← UInt32.and_assoc bits, UInt32.and_self]
    simp [all, inside, satisfied.2]
  next any =>
    have present : bits &&& waiter.mask ≠ 0 := by
      intro zero
      rw [swap, zero, UInt32.zero_and] at satisfied
      simp at satisfied
    simp [any, present]

theorem pollEvent_spec (group : Group) (mask mode : UInt32) :
    (pollEvent group mask mode).2.waiters = group.waiters ∧
      ∃ kept, (pollEvent group mask mode).2.bits = group.bits &&& kept := by
  have all : group.bits = group.bits &&& ~~~0 := by simp
  unfold pollEvent
  cases eventMatches group.bits mask mode with
  | none => exact ⟨rfl, _, all⟩
  | some => grind

theorem look_spec (group : Group) (mask mode : UInt32) :
    (group.look mask mode).2.waiters = group.waiters ∧
      ∃ kept, (group.look mask mode).2.bits = group.bits &&& kept := pollEvent_spec _ mask mode

/-- A registration that has to wait found the bits wanting and a cell vacant. -/
theorem register_cases (group : Group) (semaphore : Nat) (mask mode : UInt32) :
    ((group.register semaphore mask mode).1 = .waiting ∧
        Waiter.satisfied group.bits ⟨semaphore, mask, mode⟩ = false ∧
        (group.register semaphore mask mode).2.bits = group.bits ∧
        (group.register semaphore mask mode).2.waiters.live.Perm
          (⟨semaphore, mask, mode⟩ :: group.waiters.live)) ∨
      ((group.register semaphore mask mode).1 ≠ .waiting ∧
        (group.register semaphore mask mode).2.waiters = group.waiters ∧
        ∃ kept, (group.register semaphore mask mode).2.bits = group.bits &&& kept) := by
  have spec := pollEvent_spec group mask mode
  unfold Group.register
  cases wanted : eventMatches group.bits mask mode with
  | some =>
    right
    simp only [pollEvent, wanted] at spec ⊢
    exact ⟨nofun, spec⟩
  | none =>
    simp only [pollEvent, wanted]
    cases room : group.waiters.vacant with
    | none => exact .inr ⟨nofun, rfl, ~~~0, by simp⟩
    | some =>
      refine .inl ⟨rfl, ?_, rfl, Slots.perm_put room _⟩
      simp [Waiter.satisfied, wanted]

end Bits

variable {timeoutMs : UInt32}

variable {A : Type} {past : List (Exchange ops)}

def matchedIn : Exchange ops → Option UInt32
  | ⟨.look _ _, matched⟩ => matched
  | ⟨.register _ _ _, .matched bits⟩ => some bits
  | _ => none

def fails : Exchange ops → Bool
  | ⟨.initSemaphore, none⟩ => true
  | ⟨.register _ _ _, .full⟩ => true
  | ⟨.downTimeout _ _, .timedOut⟩ | ⟨.downTimeout _ _, .failed⟩ => true
  | _ => false

inductive Result (talk : List (Exchange ops)) : Int32 → Prop where
  | late : talk.filterMap matchedIn = [] → talk.any fails = false → Result talk 0
  | matched (bits : UInt32) : talk.filterMap matchedIn = [bits] → talk.any fails = false →
    Result talk bits.toInt32
  | failed : talk.filterMap matchedIn = [] → talk.any fails = true → Result talk osalNok

def begun (mask timeoutMs mode : UInt32) : Exchange ops := ⟨.enterRead mask timeoutMs mode, ()⟩

/-- A look uses the mask and the mode of its call, a wait comes right after its registration, and the
result is that of the record. -/
def told (past : List (Exchange ops)) : Op → Prop
  | .look mask mode | .register _ mask mode => ∃ timeoutMs rest, past = begun mask timeoutMs mode :: rest
  | .downTimeout semaphore _ => ∃ mask timeoutMs mode rest,
      past = begun mask timeoutMs mode :: rest ++ [⟨.register semaphore mask mode, .waiting⟩]
  | .leaveRead value => ∃ mask timeoutMs mode rest,
      past = begun mask timeoutMs mode :: rest ∧ Result rest value
  | .write _ | .up _ | .clear _ => ∀ mask timeoutMs mode, begun mask timeoutMs mode ∉ past
  | _ => True

/-- A call that has matched this much, and may have failed. -/
def Reading (mask timeoutMs mode : UInt32) (found : List UInt32) (failed : Bool)
    (past : List (Exchange ops)) : Prop :=
  ∃ rest, past = begun mask timeoutMs mode :: rest ∧ rest.filterMap matchedIn = found ∧
    rest.any fails = failed

theorem Reading.snoc {found : List UInt32} {failed : Bool}
    (reading : Reading mask timeoutMs mode found failed past) (exchange : Exchange ops) :
    Reading mask timeoutMs mode (found ++ (matchedIn exchange).toList) (failed || fails exchange)
      (past ++ [exchange]) := by
  obtain ⟨rest, rfl, rfl, rfl⟩ := reading
  exact ⟨rest ++ [exchange], rfl, filterMap_concat matchedIn rest exchange, by simp⟩

/-- A round has a result that fits its record, or another round follows. -/
def Ends (mask timeoutMs mode : UInt32) (result : Option Int32) (past : List (Exchange ops)) : Prop :=
  match result with
  | none => Reading mask timeoutMs mode [] false past
  | some value => ∃ rest, past = begun mask timeoutMs mode :: rest ∧ Result rest value

theorem Reading.matched (reading : Reading mask timeoutMs mode [bits] false past) :
    Ends mask timeoutMs mode (some bits.toInt32) past := by
  obtain ⟨rest, rfl, found, fine⟩ := reading
  exact ⟨rest, rfl, .matched bits found fine⟩

theorem Reading.failed (reading : Reading mask timeoutMs mode [] true past) :
    Ends mask timeoutMs mode (some osalNok) past := by
  obtain ⟨rest, rfl, found, failed⟩ := reading
  exact ⟨rest, rfl, .failed found failed⟩

theorem afterRegistration_told (semaphore : Nat) (remaining : UInt32) (registration : Registration)
    (reading : Reading mask timeoutMs mode [] false past) :
    (afterRegistration semaphore remaining registration).Obeys (recorded told)
      (Ends mask timeoutMs mode) (past ++ [⟨.register semaphore mask mode, registration⟩]) := by
  have registered := reading.snoc ⟨.register semaphore mask mode, registration⟩
  cases registration with
  | matched =>
    refine obeys_atom.mpr ⟨trivial, fun _ => ?_⟩
    exact (registered.snoc ⟨.destroy semaphore, ()⟩).matched
  | full =>
    refine obeys_atom.mpr ⟨trivial, fun _ => ?_⟩
    exact (registered.snoc ⟨.destroy semaphore, ()⟩).failed
  | waiting =>
    obtain ⟨rest, rfl, _⟩ := reading
    refine obeys_atom.mpr ⟨⟨mask, timeoutMs, mode, rest, rfl⟩, fun wait => ?_⟩
    refine obeys_atom.mpr ⟨trivial, fun _ => obeys_atom.mpr ⟨trivial, fun _ => ?_⟩⟩
    have left := ((registered.snoc ⟨.downTimeout semaphore remaining, wait⟩).snoc
      ⟨.unregister semaphore, ()⟩).snoc ⟨.destroy semaphore, ()⟩
    cases wait with
    | acquired => exact left
    | timedOut | failed => exact left.failed

theorem afterTime_told (remaining : Option UInt32)
    (reading : Reading mask timeoutMs mode [] false past) :
    (afterTime mask mode remaining).Obeys (recorded told) (Ends mask timeoutMs mode) past := by
  cases remaining with
  | none =>
    obtain ⟨rest, rfl, found, fine⟩ := reading
    exact ⟨rest, rfl, .late found fine⟩
  | some remaining =>
    refine obeys_atom.mpr ⟨trivial, fun semaphore => ?_⟩
    have initialised := reading.snoc ⟨.initSemaphore, semaphore⟩
    cases semaphore with
    | none => exact initialised.failed
    | some semaphore =>
      have ready : Reading mask timeoutMs mode [] false (past ++ [⟨.initSemaphore, some semaphore⟩]) :=
        initialised
      obtain ⟨rest, known, _⟩ := ready
      refine obeys_atom.mpr ⟨⟨timeoutMs, rest, known⟩, fun registration => ?_⟩
      exact afterRegistration_told semaphore remaining registration initialised

section

variable (forever : Bool) (deadline : UInt64) (reading : Reading mask timeoutMs mode [] false past)
include forever deadline reading

theorem timeLeft_told : (timeLeft forever deadline).Obeys (recorded told)
      (fun _ => Reading mask timeoutMs mode [] false) past := by
  unfold timeLeft
  split
  · exact reading
  · exact ⟨trivial, fun now => reading.snoc ⟨.jiffies, now⟩⟩

theorem readRound_told :
    (readRound mask mode forever deadline).Obeys (recorded told) (Ends mask timeoutMs mode) past := by
  have ⟨rest, known, _⟩ := reading
  refine obeys_atom.mpr ⟨⟨timeoutMs, rest, known⟩, fun matched => ?_⟩
  have looked := reading.snoc ⟨.look mask mode, matched⟩
  cases matched with
  | some => exact looked.matched
  | none =>
    refine (timeLeft_told forever deadline looked).next ?_
    exact fun remaining later still => afterTime_told remaining still

end

theorem readLoop_told (forever : Bool) (deadline : UInt64) (rounds : Nat)
    (reading : Reading mask timeoutMs mode [] false past) :
    (readLoop mask mode forever deadline rounds).Obeys (recorded told) (Ends mask timeoutMs mode)
      past := by
  induction rounds generalizing past with
  | zero => exact reading
  | succ rounds ih =>
    refine (readRound_told forever deadline reading).next ?_
    intro result later ends
    cases result with
    | some => exact ends
    | none => exact ih ends

theorem raise_told (semaphores : List Nat)
    (writes : ∀ mask timeoutMs mode, begun mask timeoutMs mode ∉ past) :
    (raise semaphores).Obeys (recorded told) (fun _ _ => True) past := by
  induction semaphores generalizing past with
  | nil => trivial
  | cons semaphore rest ih =>
    refine obeys_atom.mpr ⟨writes, fun raised => ?_⟩
    cases raised with
    | true =>
      refine ih fun mask timeoutMs mode member => ?_
      rcases mem_append.mp member with earlier | last
      · exact writes mask timeoutMs mode earlier
      · cases mem_singleton.mp last
    | false => trivial

theorem job_told (job : Job) : job.task.Obeys (recorded told) (fun _ _ => True) [] := by
  cases job with
  | read present mask timeoutMs mode rounds =>
    refine obeys_atom.mpr ⟨trivial, fun _ => ?_⟩
    have opened : Reading mask timeoutMs mode [] false [begun mask timeoutMs mode] :=
      ⟨[], rfl, rfl, rfl⟩
    have reads : (osalEventRead present mask timeoutMs mode rounds).Obeys (recorded told)
        (Ends mask timeoutMs mode) [begun mask timeoutMs mode] := by
      unfold osalEventRead
      split
      · exact ⟨trivial, fun now => readLoop_told _ _ rounds (opened.snoc ⟨.jiffies, now⟩)⟩
      · exact ⟨[], rfl, .late rfl rfl⟩
    refine reads.next ?_
    intro result later ends
    cases result with
    | none => trivial
    | some =>
      obtain ⟨rest, known, returned⟩ := ends
      exact ⟨⟨mask, timeoutMs, mode, rest, known, returned⟩, fun _ => trivial⟩
  | write present mask =>
    cases present with
    | false => trivial
    | true =>
      refine obeys_atom.mpr ⟨nofun, fun pointers => ?_⟩
      refine (raise_told pointers ?_).next fun _ _ _ => trivial
      intro mask timeoutMs mode member
      cases mem_singleton.mp member
  | clear present =>
    cases present with
    | false => trivial
    | true => exact ⟨nofun, fun _ => trivial⟩

theorem jobs_told (i : Nat) (task : Task Unit) (given : jobs i task) :
    task.Obeys (recorded told) (fun _ _ => True) [] := by
  obtain ⟨job, rfl⟩ := given
  exact job_told job

variable {w w' : World} {o : Op} {reply : o.Reply}

def clearedBy (mode bits : UInt32) (group : Group) : UInt32 :=
  if mode &&& waitmodeClr ≠ 0 then group.bits &&& ~~~bits else group.bits

theorem pollEvent_some (found : (pollEvent group mask mode).1 = some bits) :
    bits = group.bits &&& mask ∧ modeSatisfied bits mask mode = true ∧
      (pollEvent group mask mode).2.bits = clearedBy mode bits group := by
  unfold pollEvent at found ⊢
  cases matched : eventMatches group.bits mask mode with
  | none =>
    rw [matched] at found
    cases found
  | some =>
    rw [matched] at found
    cases found
    obtain ⟨whole, satisfied⟩ := eventMatches_eq_some.mp matched
    exact ⟨whole, satisfied, rfl⟩

theorem pollEvent_none (nothing : (pollEvent group mask mode).1 = none) :
    (pollEvent group mask mode).2 = group := by
  unfold pollEvent at nothing ⊢
  cases matched : eventMatches group.bits mask mode with
  | none => rfl
  | some =>
    rw [matched] at nothing
    cases nothing

variable {semaphore : Nat}

theorem register_matched (found : (group.register semaphore mask mode).1 = .matched bits) :
    (pollEvent group mask mode).1 = some bits ∧
      (group.register semaphore mask mode).2 = (pollEvent group mask mode).2 := by
  unfold Group.register at found ⊢
  cases polled : pollEvent group mask mode with
  | mk matched next =>
    cases matched with
    | some =>
      simp only [polled, Registration.matched.injEq] at found
      exact ⟨congrArg some found, rfl⟩
    | none =>
      simp only [polled] at found
      cases room : next.waiters.vacant <;> simp [room] at found

theorem register_unmatched
    (nothing : ∀ bits, (group.register semaphore mask mode).1 ≠ .matched bits) :
    (group.register semaphore mask mode).2.bits = group.bits := by
  unfold Group.register at nothing ⊢
  cases polled : pollEvent group mask mode with
  | mk matched next =>
    cases matched with
    | some other =>
      simp only [polled] at nothing
      exact absurd rfl (nothing other)
    | none =>
      have kept := pollEvent_none (congrArg Prod.fst polled)
      have same : next = group := by rwa [polled] at kept
      have bits : next.bits = group.bits := congrArg Group.bits same
      dsimp only
      cases room : next.waiters.vacant <;> exact bits

def Op.looksFor (mask mode : UInt32) : Op → Prop
  | .look mask' mode' => mask' = mask ∧ mode' = mode
  | .register _ mask' mode' => mask' = mask ∧ mode' = mode
  | _ => False

/-- A match gives the bits of the mask as they are, and clears these if it is to clear. -/
theorem Atom.matched (taken : Atom w o reply w') (found : matchedIn ⟨o, reply⟩ = some bits) :
    ∃ mask mode, o.looksFor mask mode ∧ bits = w.group.bits &&& mask ∧
      modeSatisfied bits mask mode = true ∧ w'.group.bits = clearedBy mode bits w.group := by
  cases taken with
  | look mask mode => exact ⟨mask, mode, ⟨rfl, rfl⟩, pollEvent_some found⟩
  | register semaphore mask mode =>
    have registered : (w.group.register semaphore mask mode).1 = .matched bits := by
      cases result : (w.group.register semaphore mask mode).1 with
      | matched =>
        rw [result] at found
        exact congrArg Registration.matched (Option.some.inj found)
      | full | waiting =>
        rw [result] at found
        cases found
    obtain ⟨polled, same⟩ := register_matched registered
    exact ⟨mask, mode, ⟨rfl, rfl⟩, same ▸ pollEvent_some polled⟩
  | _ => cases found

def Op.reads : Op → Prop
  | .write _ | .up _ | .clear _ => False
  | _ => True

theorem Atom.unmatched (taken : Atom w o reply w') (reads : o.reads)
    (nothing : matchedIn ⟨o, reply⟩ = none) : w'.group.bits = w.group.bits := by
  cases taken with
  | look mask mode =>
    have same : (w.group.look mask mode).2 = _ := pollEvent_none nothing
    rw [same]
  | register =>
    refine register_unmatched fun bits matched => ?_
    rw [matched] at nothing
    cases nothing
  | write | clear => exact reads.elim
  | _ => rfl

variable {labels early late : List (PoolLabel ops)} {pool before after next : Pool ops World}
  {i : Nat} {exchange : Exchange ops} {value : Int32} {rest : List (Exchange ops)}

section

variable (known : acts i labels = begun mask timeoutMs mode :: rest)
  (split : labels = early ++ .act i exchange :: late) (same : .start i ∉ late)
  (reached : Run eventSystem (.new .new) early before)
  (step : eventSystem.step before (.act i exchange) next)
include known split same reached step

theorem reads_of_acts : Op.reads exchange.op := by
  have unstarted : .start i ∉ (.act i exchange :: late : List (PoolLabel ops)) := by simp [same]
  have parts : acts i early ++ exchange :: late.filterMap (own i) =
      begun mask timeoutMs mode :: rest := by
    rw [← known, split, acts_append unstarted]
    simp [own]
  have guarded := guard_of_step jobs_told reached step
  cases acted : acts i early with
  | nil =>
    rw [acted, nil_append] at parts
    obtain ⟨rfl, _⟩ := cons.inj parts
    trivial
  | cons =>
    rw [acted, cons_append] at parts
    obtain ⟨rfl, _⟩ := cons.inj parts
    rw [acted] at guarded
    cases op : exchange.op with
    | write | up | clear =>
      rw [op] at guarded
      exact absurd mem_cons_self (guarded mask timeoutMs mode)
    | _ => trivial

theorem bits_kept_of_acts (nothing : matchedIn exchange = none) :
    next.world.group.bits = before.world.group.bits := by
  have reads := reads_of_acts known split same reached step
  cases step with
  | act _ taken => exact taken.unmatched reads nothing

end

/-- A moment of the present call at which the bits of the mask satisfied the mode; those were matched,
and those were cleared if the mode says so. -/
structure MatchInstant (mask mode bits : UInt32) (i : Nat) (labels : List (PoolLabel ops))
    (before next : Pool ops World) : Prop where
  taken : ∃ early exchange late, labels = early ++ .act i exchange :: late ∧ .start i ∉ late ∧
    Run eventSystem (.new .new) early before ∧ eventSystem.step before (.act i exchange) next
  whole : bits = before.world.group.bits &&& mask
  satisfied : if mode &&& waitmodeAnd ≠ 0 then bits = mask ∧ mask ≠ 0 else bits ≠ 0
  cleared : next.world.group.bits = clearedBy mode bits before.world.group

theorem matchInstant_of_acts (run : Run eventSystem (.new .new) labels pool)
    (known : acts i labels = begun mask timeoutMs mode :: rest)
    (found : bits ∈ rest.filterMap matchedIn) :
    ∃ before next, MatchInstant mask mode bits i labels before next := by
  obtain ⟨⟨o, reply⟩, member, matched⟩ := mem_filterMap.mp found
  obtain ⟨first, second, divided⟩ := append_of_mem member
  have parts : acts i labels = (begun mask timeoutMs mode :: first) ++ ⟨o, reply⟩ :: second := by
    rw [known, divided]
    rfl
  obtain ⟨early, late, rfl, begins, _, sameCall⟩ := last_acts parts
  obtain ⟨before, next, reached, step, _⟩ := run.step_at
  have guarded := guard_of_step jobs_told reached step
  rw [begins] at guarded
  have taken : ∃ first exchange second, early ++ .act i ⟨o, reply⟩ :: late =
      first ++ .act i exchange :: second ∧ .start i ∉ second ∧
      Run eventSystem (.new .new) first before ∧ eventSystem.step before (.act i exchange) next :=
    ⟨early, _, late, rfl, sameCall, reached, step⟩
  cases step with
  | act _ effect =>
    obtain ⟨mask', mode', looks, whole, satisfied, cleared⟩ := effect.matched matched
    -- The look was made with the mask and the mode that the call began with.
    have same : mask' = mask ∧ mode' = mode := by
      cases o with
      | look | register =>
        obtain ⟨rfl, rfl⟩ := looks
        obtain ⟨_, _, opened⟩ := guarded
        simp only [cons.injEq, begun, Exchange.mk.injEq, Op.enterRead.injEq] at opened
        exact ⟨opened.1.1.1.symm, opened.1.1.2.2.symm⟩
      | _ => exact looks.elim
    obtain ⟨rfl, rfl⟩ := same
    exact ⟨before, _, taken, whole, modeSatisfied_iff.mp satisfied, cleared⟩

theorem toInt32_ne_zero (some : bits ≠ 0) : bits.toInt32 ≠ 0 := by
  intro zero
  have same : bits.toInt32.toUInt32 = bits := by simp
  rw [zero] at same
  exact some same.symm

/-- A read in which something fails returns one and has matched nothing. Otherwise it returns zero if
it has not matched, and the bits that satisfied its mode at a moment of the call if it has; it clears
those if it is to clear, and no others. -/
theorem event_read_returns_matched_bits (run : Run eventSystem (.new .new) labels pool)
    (step : eventSystem.step pool (.act i ⟨.leaveRead value, ()⟩) after) :
    ∃ mask timeoutMs mode rest, acts i labels = begun mask timeoutMs mode :: rest ∧
      (∀ early exchange late before next, labels = early ++ .act i exchange :: late → .start i ∉ late →
        Run eventSystem (.new .new) early before → eventSystem.step before (.act i exchange) next →
        matchedIn exchange = none → next.world.group.bits = before.world.group.bits) ∧
      if rest.any fails then rest.filterMap matchedIn = [] ∧ value = 1 else
        rest.filterMap matchedIn = [] ∧ value = 0 ∨
        ∃ bits before next, rest.filterMap matchedIn = [bits] ∧ value = bits.toInt32 ∧ value ≠ 0 ∧
          MatchInstant mask mode bits i labels before next := by
  obtain ⟨mask, timeoutMs, mode, rest, known, result⟩ := guard_of_step jobs_told run step
  refine ⟨mask, timeoutMs, mode, rest, known, ?_, ?_⟩
  · intro early exchange late before next split same reached taken nothing
    exact bits_kept_of_acts known split same reached taken nothing
  cases result with
  | late nothing fine =>
    rw [if_neg (by simp [fine])]
    exact .inl ⟨nothing, rfl⟩
  | matched bits found fine =>
    obtain ⟨before, next, instant⟩ := matchInstant_of_acts run known
      (show bits ∈ rest.filterMap matchedIn from found ▸ mem_singleton_self bits)
    have some : bits ≠ 0 := by
      have satisfied := instant.satisfied
      grind
    rw [if_neg (by simp [fine])]
    exact .inr ⟨bits, before, next, found, rfl, toInt32_ne_zero some, instant⟩
  | failed nothing failed =>
    rw [if_pos failed]
    exact ⟨nothing, rfl⟩

/-! ## A read that times out -/

/-- A kernel that never fails, at a standstill of time: a wait that is not satisfied times out. -/
def plainAnswer (w : World) : (o : Op) → {x : o.Reply × World // Atom w o x.1 x.2}
  | .jiffies => ⟨(_, _), .jiffies 0⟩
  | .look mask mode => ⟨(_, _), .look mask mode⟩
  | .initSemaphore =>
    match absent : w.semaphores 4 with
    | none => ⟨(_, _), .initSemaphore 4 (by decide) absent⟩
    | some _ => ⟨(_, _), .initFailed⟩
  | .register semaphore mask mode => ⟨(_, _), .register semaphore mask mode⟩
  | .downTimeout semaphore remaining =>
    match present : w.semaphores semaphore with
    | some (raised + 1) => ⟨(_, _), .acquired semaphore raised remaining present⟩
    | some 0 | none => ⟨(_, _), .unacquired semaphore remaining .timedOut nofun⟩
  | .unregister semaphore => ⟨(_, _), .unregister semaphore⟩
  | .destroy semaphore => ⟨(_, _), .destroy semaphore⟩
  | .write mask => ⟨(_, _), .write mask⟩
  | .up semaphore =>
    match present : w.semaphores semaphore with
    | some raised => ⟨(_, _), .up semaphore raised present⟩
    | none => ⟨(_, _), .upDangling semaphore true present⟩
  | .clear mask => ⟨(_, _), .clear mask⟩
  | .enterRead mask timeoutMs mode => ⟨(_, _), .enterRead mask timeoutMs mode⟩
  | .leaveRead value => ⟨(_, _), .leaveRead value⟩

theorem plainAnswer_fits (w : World) (o : Op) :
    Atom w o (plainAnswer w o).1.1 (plainAnswer w o).1.2 := (plainAnswer w o).2

def writes : PoolLabel ops → Bool
  | .act _ ⟨.write _, _⟩ => true
  | _ => false

theorem bits_eq_zero (run : Run eventSystem (.new .new) labels pool)
    (unwritten : ∀ label ∈ labels, writes label = false) : pool.world.group.bits = 0 := by
  induction run with
  | start => rfl
  | @next earlier before after label _ step ih =>
    have zero := ih fun label member => unwritten label (mem_append_left _ member)
    have quiet := unwritten _ (mem_append_right _ mem_cons_self)
    cases step with
    | start => exact zero
    | act _ taken =>
      cases taken with
      | look mask mode =>
        obtain ⟨_, kept, bits⟩ := look_spec before.world.group mask mode
        simp only [bits, zero, UInt32.zero_and]
      | register semaphore mask mode =>
        rcases register_cases before.world.group semaphore mask mode with
          ⟨_, _, bits, _⟩ | ⟨_, _, kept, bits⟩
        · exact bits.trans zero
        · simp only [bits, zero, UInt32.zero_and]
      | clear => simp [Group.clear, zero]
      | write => cases quiet
      | _ => exact zero

/-- A read for bit zero waits for ten milliseconds and times out. It returns one, as if it had found
that bit, while no bit was ever set. -/
theorem timed_out_read_returns_a_bit :
    ∃ labels pool after, Run eventSystem (.new .new) labels pool ∧
      eventSystem.step pool (.act 0 ⟨.leaveRead 1, ()⟩) after ∧
      (∃ rest, acts 0 labels = begun 1 10 0 :: rest) ∧
      ∀ early late before, labels = early ++ late → Run eventSystem (.new .new) early before →
        before.world.group.bits = 0 := by
  have reads : Run eventSystem (.new .new) _ _ :=
    run_job plainAnswer_fits 9 (i := 0) ⟨.read true 1 10 0 1, rfl⟩ rfl
  refine ⟨_, _, _, reads, .act rfl (.leaveRead 1), ⟨_, rfl⟩, ?_⟩
  intro early late before split reached
  refine bits_eq_zero reached fun label member => ?_
  have calm : ∀ label ∈ (start 0 :: (drive (plainAnswer · ·) 9
      (Job.read true 1 10 0 1).task .new).1.map (act 0)), writes label = false := by decide
  exact calm label (split ▸ mem_append_left late member)

/-- Two bits are set, and a read takes the one it asks for. -/
theorem read_takes_its_bit : ∃ labels pool after, Run eventSystem (.new .new) labels pool ∧
      eventSystem.step pool (.act 0 ⟨.leaveRead 1, ()⟩) after ∧ after.world.group.bits = 2 ∧
      ∃ mask mode bits before next, 1 = bits.toInt32 ∧
        MatchInstant mask mode bits 0 labels before next := by
  have written : Run eventSystem (.new .new) _ _ :=
    run_job plainAnswer_fits 1 (i := 1) ⟨.write true 3, rfl⟩ rfl
  have reads := written.trans (run_job plainAnswer_fits 3 (i := 0) ⟨.read true 1 10 1 1, rfl⟩ rfl)
  refine ⟨_, _, _, reads, .act rfl (.leaveRead 1), rfl, ?_⟩
  obtain ⟨mask, _, mode, rest, known, _, result⟩ :=
    event_read_returns_matched_bits (i := 0) reads (.act rfl (.leaveRead 1))
  have calm : rest.any fails = false := (congrArg (any · fails) known).symm
  rw [if_neg (by simp [calm])] at result
  obtain late | ⟨bits, before, next, _, value, _, instant⟩ := result
  · cases late.2
  · exact ⟨mask, mode, bits, before, next, value, instant⟩

end HisiRf.EventGroup
