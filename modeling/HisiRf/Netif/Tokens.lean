import HisiRf.Interaction.Transition

/-! The tokens of the smoltcp device and the two scratch buffers behind them.

A buffer is claimed by a flag. The flag is taken back when a token is consumed and
once more when the token is dropped, so a claim of another task in between is lost.
-/

namespace HisiRf.Smoltcp

open Interaction Function

inductive Scratch where | rx | tx deriving DecidableEq

inductive Stage where
  /- A task is in `receive`, and has no token yet. -/
  | receiving (task : Nat)
  /- The task found the other buffer claimed. -/
  | refused (task : Nat)
  /- An `RxFrame` or a `TxBuf` that was handed out. -/
  | token
  /- `consume` works on the buffer. -/
  | consuming
  /- `consume` has given the claim back, and the token is not dropped yet. -/
  | consumed
  deriving DecidableEq

def Stage.live : Stage → Prop
  | .token | .consuming => True
  | _ => False

structure Device where
  claimed : Scratch → Bool
  holders : Nat → Option (Scratch × Stage)

namespace Device

def new : Device := ⟨fun _ => false, fun _ => none⟩

def put (d : Device) (holder : Nat) (entry : Option (Scratch × Stage)) : Device :=
  { d with holders := update d.holders holder entry }

def setClaim (d : Device) (scratch : Scratch) (claimed : Bool) : Device :=
  { d with claimed := update d.claimed scratch claimed }

/-- The task has come so far in `receive`. -/
def receives (d : Device) (task : Nat) (scratch : Scratch) : Prop :=
  ∃ holder, d.holders holder = some (scratch, .receiving task)

end Device

inductive Label where
  | handOver (scratch : Scratch) (holder : Nat)
  | other

/-- The critical sections of `receive`, `transmit`, `consume` and `drop`. -/
inductive DeviceStep : Device → Label → Device → Prop where
  | busy {d : Device} {scratch : Scratch} : d.claimed scratch = true → DeviceStep d .other d
  | receiveRx {d : Device} {holder : Nat} (task : Nat) : (∀ scratch, ¬d.receives task scratch) →
      d.claimed .rx = false → d.holders holder = none → DeviceStep d (.handOver .rx holder)
        ((d.setClaim .rx true).put holder (some (.rx, .receiving task)))
  | receiveTx {d : Device} {holder task : Nat} : d.receives task .rx → ¬d.receives task .tx →
      d.claimed .tx = false → d.holders holder = none → DeviceStep d (.handOver .tx holder)
        ((d.setClaim .tx true).put holder (some (.tx, .receiving task)))
  | receiveTxBusy {d : Device} {holder task : Nat} : d.holders holder = some (.rx, .receiving task) →
      ¬d.receives task .tx → d.claimed .tx = true →
      DeviceStep d .other (d.put holder (some (.rx, .refused task)))
  | receiveGiveUp {d : Device} {holder task : Nat} : d.holders holder = some (.rx, .refused task) →
      DeviceStep d .other ((d.setClaim .rx false).put holder none)
  | receivePopped {d : Device} {first second task : Nat} : d.holders first = some (.rx, .receiving task) →
      d.holders second = some (.tx, .receiving task) →
      DeviceStep d .other ((d.put first (some (.rx, .token))).put second (some (.tx, .token)))
  | receiveEmpty {d : Device} {first second task : Nat} : d.holders first = some (.rx, .receiving task) →
      d.holders second = some (.tx, .receiving task) → DeviceStep d .other
        ((((d.setClaim .rx false).setClaim .tx false).put first none).put second none)
  | transmit {d : Device} (holder : Nat) : d.claimed .tx = false → d.holders holder = none →
      DeviceStep d (.handOver .tx holder) ((d.setClaim .tx true).put holder (some (.tx, .token)))
  | consume {d : Device} (holder : Nat) (scratch : Scratch) : d.holders holder = some (scratch, .token) →
      DeviceStep d .other (d.put holder (some (scratch, .consuming)))
  | consumeEnd {d : Device} (holder : Nat) (scratch : Scratch) :
      d.holders holder = some (scratch, .consuming) →
      DeviceStep d .other ((d.setClaim scratch false).put holder (some (scratch, .consumed)))
  | drop {d : Device} (holder : Nat) (scratch : Scratch) (stage : Stage) :
      d.holders holder = some (scratch, stage) → stage = .token ∨ stage = .consumed →
      DeviceStep d .other ((d.setClaim scratch false).put holder none)

open DeviceStep

def device : System Device Label := ⟨DeviceStep⟩

/-- Nobody claims a buffer between the two releases of one token. -/
def Unbroken (d : Device) : Label → Prop
  | .handOver scratch _ => ∀ holder, d.holders holder ≠ some (scratch, .consumed)
  | .other => True

/-- A buffer has one holder, which has the claim as long as it needs the buffer. -/
structure Exclusive (d : Device) : Prop where
  alone : ∀ first second scratch one two, d.holders first = some (scratch, one) →
    d.holders second = some (scratch, two) → first = second
  claimed : ∀ holder scratch stage, d.holders holder = some (scratch, stage) → stage ≠ .consumed →
    d.claimed scratch = true

variable {d after : Device} {label : Label}

@[simp, grind =] theorem put_holders (holder : Nat) (entry : Option (Scratch × Stage)) (other : Nat) :
    (d.put holder entry).holders other = if other = holder then entry else d.holders other :=
  update_apply ..

@[simp, grind =] theorem put_claimed (holder : Nat) (entry : Option (Scratch × Stage)) (other : Scratch) :
    (d.put holder entry).claimed other = d.claimed other := rfl

@[simp, grind =] theorem setClaim_claimed (scratch : Scratch) (claimed : Bool) (other : Scratch) :
    (d.setClaim scratch claimed).claimed other = if other = scratch then claimed else d.claimed other :=
  update_apply ..

@[simp, grind =] theorem setClaim_holders (scratch : Scratch) (claimed : Bool) (other : Nat) :
    (d.setClaim scratch claimed).holders other = d.holders other := rfl

theorem Exclusive.free (exclusive : Exclusive d) {scratch : Scratch} {holder : Nat}
    (unclaimed : d.claimed scratch = false) (unbroken : Unbroken d (.handOver scratch holder))
    (other : Nat) (entry : Scratch × Stage) (found : d.holders other = some entry) :
    entry.1 ≠ scratch := by
  rintro rfl
  by_cases spent : entry.2 = .consumed
  · exact unbroken other (found.trans (by rw [← spent]))
  · simp [exclusive.claimed other entry.1 entry.2 found spent] at unclaimed

theorem Exclusive.step (exclusive : Exclusive d) (step : DeviceStep d label after)
    (unbroken : Unbroken d label) : Exclusive after := by
  have alone := exclusive.alone
  have claimed := exclusive.claimed
  -- Each step changes one or two holders, and takes a claim from nobody else.
  constructor
  · intro first second scratch one two
    cases step with
    | receiveRx | receiveTx | transmit =>
      have free := exclusive.free ‹_› unbroken
      grind
    | _ => grind
  · intro holder scratch stage
    cases step with
    | receiveRx | receiveTx | transmit =>
      grind
    | _ => grind

/-- If no claim falls between the two releases of a token, a buffer has at most one live token, and is
handed over only when nobody has it. -/
theorem scratch_is_exclusive {labels : List Label}
    (run : Run (device.keeping Unbroken) .new labels d) :
    (∀ first second scratch one two, d.holders first = some (scratch, one) → one.live →
      d.holders second = some (scratch, two) → two.live → first = second) ∧
    ∀ scratch holder after, (device.keeping Unbroken).step d (.handOver scratch holder) after →
      ∀ other entry, d.holders other = some entry → entry.1 ≠ scratch := by
  have keeps (s : Device) (label : Label) (t : Device) (exclusive : Exclusive s)
      (step : (device.keeping Unbroken).step s label t) : Exclusive t := exclusive.step step.1 step.2
  have exclusive := run.invariant keeps ⟨by simp [Device.new], by simp [Device.new]⟩
  constructor
  · intro first second scratch one two mine _ his _
    exact exclusive.alone first second scratch one two mine his
  · intro scratch holder after step
    have unclaimed : d.claimed scratch = false := by
      cases step.1 <;> assumption
    exact exclusive.free unclaimed step.2

/-- A buffer is handed over again after its token was consumed and dropped. -/
theorem scratch_reused : ∃ labels d after, Run (device.keeping Unbroken) .new labels d ∧
    (device.keeping Unbroken).step d (.handOver .tx 1) after ∧
    ∀ other entry, d.holders other = some entry → entry.1 ≠ .tx := by
  have unused (d : Device) (free : ∀ holder, d.holders holder ≠ some (.tx, .consumed)) (holder : Nat) :
      Unbroken d (.handOver .tx holder) := free
  have begun : Run (device.keeping Unbroken) .new [] .new := .start
  have one := begun.next (And.intro (transmit 0 rfl rfl) (unused _ (by simp [Device.new]) 0))
  have two := one.next (And.intro (consume 0 .tx rfl) trivial)
  have three := two.next (And.intro (consumeEnd 0 .tx rfl) trivial)
  have reused : ∃ labels d, Run (device.keeping Unbroken) .new labels d ∧
      ∃ after, (device.keeping Unbroken).step d (.handOver .tx 1) after :=
    ⟨_, _, three.next (And.intro (drop 0 .tx .consumed rfl (.inr rfl)) trivial), _,
      And.intro (transmit 1 rfl rfl) (unused _ (by simp +contextual [Device.new]) 1)⟩
  obtain ⟨labels, d, run, after, again⟩ := reused
  exact ⟨labels, d, after, run, again, (scratch_is_exclusive run).2 .tx 1 after again⟩

/-- A claim between the two releases of a token is lost, and two tokens write to one buffer. -/
theorem claim_lost_between_releases : ∃ labels d, Run device .new labels d ∧
    d.holders 1 = some (.tx, .token) ∧ d.holders 2 = some (.tx, .token) := by
  have begun : Run device .new [] .new := .start
  have one := begun.next (transmit 0 rfl rfl)
  have two := one.next (consume 0 .tx rfl)
  have three := two.next (consumeEnd 0 .tx rfl)
  -- The first token is still to be dropped.
  have four := three.next (transmit 1 rfl rfl)
  have five := four.next (drop 0 .tx .consumed rfl (.inr rfl))
  exact ⟨_, _, five.next (transmit 2 rfl rfl), rfl, rfl⟩

end HisiRf.Smoltcp
