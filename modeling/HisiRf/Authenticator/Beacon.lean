import HisiRf.Interaction.Record
import HisiRf.Machine.Word

/-! The beacon of the access point, as the driver and as the firmware know it.

The driver remembers in a flag whether the firmware has a beacon, and chooses its
commands by that flag. A command that fails changes nothing in the firmware. The
flag is cleared before the beacon is deleted, so it tells the truth only as long
as deletions succeed.
-/

namespace HisiRf.Beacon

open Interaction

structure FrequencyParameters where
  mode : Int32
  frequencyMhz : Int32
  channel : Int32
  htEnabled : Int32
  secondaryChannelOffset : Int32
  vhtEnabled : Int32
  centerFrequency1Mhz : Int32
  centerFrequency2Mhz : Int32
  bandwidth : Int32

/-- A null pointer is `none`. -/
structure BeaconData where
  headLen : UInt32
  tailLen : UInt32
  head : Option Nat
  tail : Option Nat

structure ApSettings where
  frequency : FrequencyParameters
  beacon : BeaconData
  ssidLen : UInt32
  beaconInterval : Int32
  dtimPeriod : Int32
  ssid : List UInt8
  hiddenSsid : UInt8
  authType : UInt8
  meshSsidLen : UInt32
  saePwe : Int32

/-- What hostapd asks for. The array of the name has a fixed length. -/
structure Request where
  abiVersion : UInt32
  frequencyMhz : UInt32
  channel : UInt8
  beaconInterval : UInt16
  dtimPeriod : UInt8
  ssid : List UInt8
  ssidLen : UInt8
  hiddenSsid : UInt8
  saePwe : UInt8
  headLen : Nat
  tailLen : Nat
  head : Option Nat
  tail : Option Nat

def Request.acceptable (abiVersion : UInt32) (beacon : Request) : Bool :=
  !(beacon.abiVersion != abiVersion
    || beacon.ssidLen == 0
    || decide (beacon.ssid.length < beacon.ssidLen.toNat)
    || decide (2 ^ 32 - 1 < beacon.headLen)
    || decide (2 ^ 32 - 1 < beacon.tailLen)
    || (beacon.headLen != 0 && beacon.head.isNone)
    || (beacon.tailLen != 0 && beacon.tail.isNone))

def Request.settings (beacon : Request) : ApSettings where
  frequency := {
    mode := 0
    frequencyMhz := beacon.frequencyMhz.toInt32
    channel := beacon.channel.toUInt32.toInt32
    htEnabled := 1
    secondaryChannelOffset := 0
    vhtEnabled := 0
    centerFrequency1Mhz := beacon.frequencyMhz.toInt32
    centerFrequency2Mhz := 0
    bandwidth := 0 }
  beacon := ⟨UInt32.ofNat beacon.headLen, UInt32.ofNat beacon.tailLen, beacon.head, beacon.tail⟩
  ssidLen := beacon.ssidLen.toUInt32
  beaconInterval := beacon.beaconInterval.toUInt32.toInt32
  dtimPeriod := beacon.dtimPeriod.toUInt32.toInt32
  ssid := beacon.ssid
  hiddenSsid := beacon.hiddenSsid
  authType := 0
  meshSsidLen := 0
  saePwe := beacon.saePwe.toUInt32.toInt32

inductive Command where
  | setAp (settings : ApSettings)
  | changeBeacon (settings : ApSettings)
  | delBeacon
  | setNetdev (enabled : Bool)

/-- The flag of the driver and the state of the firmware. -/
structure World where
  configured : UInt8
  beacon : Bool
  enabled : Bool

def World.new : World := ⟨0, false, false⟩

def World.apply (w : World) : Command → World
  | .setAp _ => { w with beacon := true }
  | .changeBeacon _ => w
  | .delBeacon => { w with beacon := false }
  | .setNetdev enabled => { w with enabled := enabled }

inductive Op where
  | loadConfigured
  | swapConfigured
  | storeConfigured
  | ioctl (command : Command)

@[reducible] def Op.Reply : Op → Type
  | .loadConfigured | .swapConfigured => UInt8
  | .storeConfigured => Unit
  | .ioctl _ => Int32

abbrev ops : Signature := ⟨Op, Op.Reply⟩

abbrev Task (A : Type) := Program ops A

/-- A command may fail at any time, and then leaves the firmware as it is. -/
def Atom (w : World) : (o : Op) → o.Reply → World → Prop
  | .loadConfigured, configured, after => configured = w.configured ∧ after = w
  | .swapConfigured, configured, after => configured = w.configured ∧ after = { w with configured := 0 }
  | .storeConfigured, _, after => after = { w with configured := 1 }
  | .ioctl command, status, after => after = if status = 0 then w.apply command else w

def perform (o : Op) : Task o.Reply := Program.call (I := ops) o .done

def disableNetdev : Task Int32 := do
  let configured ← perform .swapConfigured
  if configured ≠ 0 then
    let status ← perform (.ioctl .delBeacon)
    if status ≠ 0 then pure status else perform (.ioctl (.setNetdev false))
  else perform (.ioctl (.setNetdev false))

/-- `known` tells whether the pointer of the caller is that of the one driver. -/
def setNetdevEnabled (known : Bool) (enabled : UInt8) : Task Int32 := do
  if known = false then pure (-1)
  else if 1 < enabled then pure (-1)
  else if enabled = 0 then disableNetdev
  else perform (.ioctl (.setNetdev true))

def submitBeacon (settings : ApSettings) : Task Int32 := do
  let configured ← perform .loadConfigured
  let status ← perform (.ioctl (if configured = 0 then .setAp settings else .changeBeacon settings))
  if status = 0 then do
    perform .storeConfigured
    pure status
  else pure status

def configureBeacon (abiVersion : UInt32) (known : Bool) (beacon : Option Request) : Task Int32 := do
  if known = false then pure (-1)
  else
    match beacon with
    | none => pure (-1)
    | some beacon =>
      if beacon.acceptable abiVersion = false then pure (-1) else submitBeacon beacon.settings

inductive Call where
  | setNetdevEnabled (known : Bool) (enabled : UInt8)
  | configureBeacon (known : Bool) (beacon : Option Request)

def Call.task (abiVersion : UInt32) : Call → Task Unit
  | .setNetdevEnabled known enabled => do
    let _ ← Beacon.setNetdevEnabled known enabled
  | .configureBeacon known beacon => do
    let _ ← Beacon.configureBeacon abiVersion known beacon

def beaconTasks (abiVersion : UInt32) (i : Nat) (task : Task Unit) : Prop :=
  i = 0 ∧ ∃ call : Call, task = call.task abiVersion

def beaconSystem (abiVersion : UInt32) : System (Pool ops World) (PoolLabel ops) :=
  poolSystem Atom (beaconTasks abiVersion)

inductive Phase where
  | idle
  | loaded (configured : UInt8)
  | accepted
  | cleared (configured : UInt8)
  | deleted

open Phase

def Phase.allows : Phase → Op → Prop
  | .idle, .loadConfigured | .idle, .swapConfigured => True
  | .idle, .ioctl command => command = .setNetdev true
  | .loaded configured, .ioctl (.setAp _) => configured = 0
  | .loaded configured, .ioctl (.changeBeacon _) => configured ≠ 0
  | .accepted, .storeConfigured => True
  | .cleared configured, .ioctl .delBeacon => configured ≠ 0
  | .cleared configured, .ioctl command => command = .setNetdev false ∧ configured = 0
  | .deleted, .ioctl command => command = .setNetdev false
  | _, _ => False

def Phase.after : Phase → Exchange ops → Phase
  | .idle, ⟨.loadConfigured, configured⟩ => .loaded configured
  | .idle, ⟨.swapConfigured, configured⟩ => .cleared configured
  | .loaded _, ⟨.ioctl _, status⟩ => if status = 0 then .accepted else .idle
  | .cleared _, ⟨.ioctl .delBeacon, status⟩ => if status = 0 then .deleted else .idle
  | _, _ => .idle

def phases : Protocol ops Phase := ⟨allows, after⟩

def Returns {A : Type} (phase : Phase) (task : Task A) : Prop :=
  task.Obeys phases (fun _ later => later = .idle) phase

theorem returns_disable : Returns .idle disableNetdev := by
  constructor
  · trivial
  intro configured
  change Returns (.cleared configured) (if configured ≠ 0 then _ else _)
  split
  next set =>
    constructor
    · exact set
    intro status
    change Returns (if status = 0 then .deleted else .idle)
      (if status ≠ 0 then pure status else perform (.ioctl (.setNetdev false)))
    by_cases done : status = 0
    · simp only [done, ne_eq, not_true_eq_false, if_true, if_false]
      exact ⟨rfl, fun _ => rfl⟩
    · simp only [done, ne_eq, not_false_eq_true, if_true, if_false]
      rfl
  next unset =>
    have zero : configured = 0 := by simpa using unset
    exact ⟨⟨rfl, zero⟩, fun _ => rfl⟩

theorem returns_submit (settings : ApSettings) : Returns .idle (submitBeacon settings) := by
  constructor
  · trivial
  intro configured
  have ends (status : Int32) : Returns (if status = 0 then .accepted else .idle)
      (if status = 0 then (perform .storeConfigured).bind fun _ => pure status else pure status) := by
    by_cases done : status = 0
    · simp only [done, if_true]
      exact ⟨trivial, fun _ => rfl⟩
    · simp only [done, if_false]
      rfl
  have allowed : (loaded configured).allows
      (.ioctl (if configured = 0 then .setAp settings else .changeBeacon settings)) := by
    by_cases zero : configured = 0
    · rw [if_pos zero]
      exact zero
    · rw [if_neg zero]
      exact zero
  exact ⟨allowed, ends⟩

theorem returns_call (abiVersion : UInt32) (call : Call) : Returns .idle (call.task abiVersion) := by
  have ignored {task : Task Int32} (returns : Returns .idle task) :
      Returns .idle (task.bind fun _ => pure ()) :=
    returns.next fun _ _ same => same
  cases call with
  | setNetdevEnabled =>
    apply ignored
    unfold setNetdevEnabled
    split
    · rfl
    · split
      · rfl
      · split
        · exact returns_disable
        · exact ⟨rfl, fun _ => rfl⟩
  | configureBeacon known beacon =>
    apply ignored
    unfold configureBeacon
    split
    · rfl
    · cases beacon with
      | none => rfl
      | some beacon =>
        dsimp only
        split
        · rfl
        · exact returns_submit beacon.settings

def Phase.mirrors (w : World) : Phase → Prop
  | .idle => w.configured ≠ 0 ↔ w.beacon = true
  | .loaded configured => configured = w.configured ∧ (w.configured ≠ 0 ↔ w.beacon = true)
  | .accepted => w.beacon = true
  | .cleared configured => w.configured = 0 ∧ (configured ≠ 0 ↔ w.beacon = true)
  | .deleted => w.configured = 0 ∧ w.beacon = false

def Deletes : PoolLabel ops → Prop
  | .act _ ⟨.ioctl .delBeacon, status⟩ => status = 0
  | _ => True

variable {w after : World} {i : Nat} {o : Op} {reply : o.Reply} {next : Pool ops World}

theorem mirrors_step {phase : Phase} (mirrors : phase.mirrors w) (allowed : phase.allows o)
    (done : Atom w o reply after) (deletes : Deletes (.act i ⟨o, reply⟩)) :
    (phase.after ⟨o, reply⟩).mirrors after := by
  cases phase with
  | idle =>
    cases o with
    | loadConfigured | swapConfigured =>
      obtain ⟨rfl, rfl⟩ := done
      exact ⟨rfl, mirrors⟩
    | storeConfigured => exact allowed.elim
    | ioctl command =>
      obtain rfl : command = .setNetdev true := allowed
      obtain rfl := done
      -- The interface is not the beacon.
      have kept : (if reply = 0 then w.apply (.setNetdev true) else w).configured = w.configured ∧
          (if reply = 0 then w.apply (.setNetdev true) else w).beacon = w.beacon := by
        split <;> exact ⟨rfl, rfl⟩
      simpa only [Phase.after, Phase.mirrors, kept.1, kept.2] using mirrors
  | loaded =>
    obtain ⟨rfl, tells⟩ := mirrors
    cases o with
    | ioctl command =>
      obtain rfl := done
      have now : (if reply = 0 then Phase.accepted else .idle).mirrors
          (if reply = 0 then w.apply command else w) := by
        split
        · cases command with
          | setAp => rfl
          | changeBeacon => exact tells.mp allowed
          | delBeacon | setNetdev => exact allowed.elim
        · exact tells
      exact now
    | _ => exact allowed.elim
  | accepted =>
    cases o with
    | storeConfigured =>
      obtain rfl := done
      have set : w.beacon = true := mirrors
      simp [Phase.after, Phase.mirrors, set]
    | _ => exact allowed.elim
  | cleared =>
    obtain ⟨zero, tells⟩ := mirrors
    cases o with
    | ioctl command =>
      obtain rfl := done
      cases command with
      | delBeacon =>
        have succeeded : reply = 0 := deletes
        subst succeeded
        exact ⟨zero, rfl⟩
      | setNetdev =>
        have unset : w.beacon = false := by simpa [allowed.2] using tells
        simp only [after, mirrors]
        split <;> simp [World.apply, zero, unset]
      | setAp | changeBeacon => exact absurd allowed.1 nofun
    | _ => exact allowed.elim
  | deleted =>
    obtain ⟨zero, unset⟩ := mirrors
    cases o with
    | ioctl command =>
      obtain rfl : command = .setNetdev false := allowed
      obtain rfl := done
      simp only [after, mirrors]
      split <;> simp [World.apply, zero, unset]
    | _ => exact allowed.elim

/-- Only one thread makes calls, and where it stands the flag is right. -/
structure Follows (pool : Pool ops World) : Prop where
  others : ∀ j, j ≠ 0 → pool.threads j = .done ()
  call : ∃ phase : Phase, Returns phase (pool.threads 0) ∧ phase.mirrors pool.world

theorem follows_new : Follows (.new .new) :=
  ⟨fun _ _ => rfl, .idle, rfl, by simp [mirrors, Pool.new, World.new]⟩

theorem follows_step {abiVersion : UInt32} {pool : Pool ops World} {label : PoolLabel ops}
    (follows : Follows pool) (step : (beaconSystem abiVersion).step pool label next)
    (deletes : Deletes label) : Follows next := by
  obtain ⟨others, phase, returns, mirrors⟩ := follows
  cases step with
  | start rests given =>
    obtain ⟨rfl, call, rfl⟩ := given
    rw [rests] at returns
    obtain rfl : phase = .idle := returns
    constructor
    · intro j other
      simp [other, others j other]
    · refine ⟨.idle, ?_, mirrors⟩
      exact returns_call abiVersion call
  | @act i o rest reply w waiting taken =>
    have runner : i = 0 := by
      by_contra other
      simp [others i other] at waiting
    subst runner
    rw [waiting] at returns
    constructor
    · intro j other
      simp [other, others j other]
    · refine ⟨phase.after ⟨o, reply⟩, ?_, mirrors_step mirrors returns.1 taken deletes⟩
      exact returns.2 reply

variable {abiVersion : UInt32} {labels : List (PoolLabel ops)} {pool : Pool ops World}

theorem follows_of_run (run : Run (beaconSystem abiVersion) (.new .new) labels pool)
    (deletes : ∀ label ∈ labels, Deletes label) : Follows pool := by
  have keeps (s : Pool ops World) (label : PoolLabel ops) (t : Pool ops World) (held : Follows s)
      (step : (beaconSystem abiVersion).step s label t) (assumed : Deletes label) :
      Follows t ∧ True := ⟨follows_step held step assumed, trivial⟩
  exact (run.assuming keeps follows_new deletes).1

/-- The command that comes next is one for the phase that the call is in. -/
theorem Follows.allowed (follows : Follows pool)
    (step : (beaconSystem abiVersion).step pool (.act i ⟨o, reply⟩) next) :
    ∃ phase : Phase, phase.allows o ∧ phase.mirrors pool.world := by
  obtain ⟨others, phase, returns, mirrors⟩ := follows
  cases step with
  | act waiting =>
    have runner : i = 0 := by
      by_contra other
      simp [others i other] at waiting
    subst runner
    rw [waiting] at returns
    exact ⟨phase, returns.1, mirrors⟩

/-- Whatever the firmware answers, as long as it deletes a beacon when it is told to: the beacon is
set only if there is none, changed only if there is one, and gone when the interface is disabled. -/
theorem commands_fit_firmware (run : Run (beaconSystem abiVersion) (.new .new) labels pool)
    (deletes : ∀ label ∈ labels, Deletes label) :
    (∀ i settings status next, (beaconSystem abiVersion).step pool
      (.act i ⟨.ioctl (.setAp settings), status⟩) next → pool.world.beacon = false) ∧
    (∀ i settings status next, (beaconSystem abiVersion).step pool
      (.act i ⟨.ioctl (.changeBeacon settings), status⟩) next → pool.world.beacon = true) ∧
    ∀ i status next, (beaconSystem abiVersion).step pool
      (.act i ⟨.ioctl (.setNetdev false), status⟩) next → pool.world.beacon = false := by
  have follows := follows_of_run run deletes
  constructor
  · intro i settings status next step
    obtain ⟨phase, allowed, mirrors⟩ := follows.allowed step
    cases phase with
    | loaded =>
      obtain ⟨rfl, tells⟩ := mirrors
      simpa [show pool.world.configured = 0 from allowed] using tells
    | cleared => exact absurd allowed.1 nofun
    | idle | deleted => exact absurd allowed nofun
    | accepted => exact allowed.elim
  constructor
  · intro i settings status next step
    obtain ⟨phase, allowed, mirrors⟩ := follows.allowed step
    cases phase with
    | loaded =>
      obtain ⟨rfl, tells⟩ := mirrors
      exact tells.mp allowed
    | cleared => exact absurd allowed.1 nofun
    | idle | deleted => exact absurd allowed nofun
    | accepted => exact allowed.elim
  intro i status next step
  obtain ⟨phase, allowed, mirrors⟩ := follows.allowed step
  cases phase with
  | cleared =>
    obtain ⟨_, tells⟩ := mirrors
    simpa [allowed.2] using tells
  | deleted => exact mirrors.2
  | idle => exact absurd allowed (by simp [allows])
  | loaded | accepted => exact allowed.elim

def answer (deletes : Bool) (w : World) : (o : Op) → o.Reply × World
  | .loadConfigured => (w.configured, w)
  | .swapConfigured => (w.configured, { w with configured := 0 })
  | .storeConfigured => ((), { w with configured := 1 })
  | .ioctl .delBeacon => if deletes then (0, w.apply .delBeacon) else (-1, w)
  | .ioctl command => (0, w.apply command)

theorem atom_answer (deletes : Bool) (w : World) (o : Op) :
    Atom w o (answer deletes w o).1 (answer deletes w o).2 := by
  cases o with
  | loadConfigured | swapConfigured => exact ⟨rfl, rfl⟩
  | storeConfigured => rfl
  | ioctl command =>
    cases command with
    | delBeacon => cases deletes <;> rfl
    | _ => rfl

theorem deletes_job (n : Nat) (task : Task Unit) (w : World) :
    ∀ label ∈ PoolLabel.start 0 :: (drive (answer true) n task w).1.map (.act 0), Deletes label := by
  have done (w : World) (o : Op) : Deletes (.act 0 ⟨o, (answer true w o).1⟩) := by
    cases o with
    | ioctl command => cases command <;> simp [Deletes, answer]
    | _ => trivial
  intro label member
  rcases List.mem_cons.mp member with rfl | acts
  · trivial
  · obtain ⟨exchange, inside, rfl⟩ := List.mem_map.mp acts
    have fine : ∀ exchange ∈ (drive (answer true) n task w).1, Deletes (.act 0 exchange) :=
      drive_forall done n task w
    exact fine exchange inside

def plainRequest : Request := ⟨2, 2412, 1, 100, 2, List.replicate 32 97, 4, 0, 0, 0, 0, none, none⟩

/-- A beacon is set, deleted with the interface and set again. -/
theorem beacon_set_again : ∃ (labels : List (PoolLabel ops)) (pool next : Pool ops World),
      Run (beaconSystem 2) (.new .new) labels pool ∧
      (∃ status, .act 0 ⟨.ioctl .delBeacon, status⟩ ∈ labels) ∧
      (beaconSystem 2).step pool (.act 0 ⟨.ioctl (.setAp plainRequest.settings), (0 : Int32)⟩) next ∧
      pool.world.beacon = false := by
  have first : Run (beaconSystem 2) (.new .new) _ _ :=
    run_job (atom_answer true) 3 (i := 0) ⟨rfl, .configureBeacon true (some plainRequest), rfl⟩ rfl
  have gone := first.trans
    (run_job (atom_answer true) 3 (i := 0) ⟨rfl, .setNetdevEnabled true 0, rfl⟩ rfl)
  have again := gone.trans
    (run_job (atom_answer true) 1 (i := 0) ⟨rfl, .configureBeacon true (some plainRequest), rfl⟩ rfl)
  refine ⟨_, _, _, again, ⟨0, ?_⟩, .act rfl rfl, ?_⟩
  · exact .tail _ (.tail _ (.tail _ (.tail _ (.tail _ (.tail _ (.head _))))))
  · refine (commands_fit_firmware again ?_).1 0 plainRequest.settings 0 _ (.act rfl rfl)
    exact List.forall_mem_append.mpr ⟨List.forall_mem_append.mpr
      ⟨deletes_job _ _ _, deletes_job _ _ _⟩, deletes_job _ _ _⟩

/-- The deletion fails when the interface is disabled. After that a beacon is set although there is
one, and the interface is disabled although there is a beacon. -/
theorem failed_deletion_forgets_beacon :
    (∃ (labels : List (PoolLabel ops)) (pool next : Pool ops World),
      Run (beaconSystem 2) (.new .new) labels pool ∧ pool.world.beacon = true ∧
      (beaconSystem 2).step pool (.act 0 ⟨.ioctl (.setAp plainRequest.settings), (0 : Int32)⟩) next) ∧
    ∃ (labels : List (PoolLabel ops)) (pool next : Pool ops World),
      Run (beaconSystem 2) (.new .new) labels pool ∧ pool.world.beacon = true ∧
      (beaconSystem 2).step pool (.act 0 ⟨.ioctl (.setNetdev false), (0 : Int32)⟩) next := by
  have first : Run (beaconSystem 2) (.new .new) _ _ :=
    run_job (atom_answer false) 3 (i := 0) ⟨rfl, .configureBeacon true (some plainRequest), rfl⟩ rfl
  have failed := first.trans
    (run_job (atom_answer false) 2 (i := 0) ⟨rfl, .setNetdevEnabled true 0, rfl⟩ rfl)
  constructor
  · have again := failed.trans
      (run_job (atom_answer false) 1 (i := 0) ⟨rfl, .configureBeacon true (some plainRequest), rfl⟩ rfl)
    exact ⟨_, _, _, again, rfl, .act rfl rfl⟩
  · have again := failed.trans
      (run_job (atom_answer false) 1 (i := 0) ⟨rfl, .setNetdevEnabled true 0, rfl⟩ rfl)
    exact ⟨_, _, _, again, rfl, .act rfl rfl⟩

end HisiRf.Beacon
