import HisiRf.Interaction.Pool

/-! The atomic counters of the operating system layer.

Every access is a critical section of its own. The adapter's addition reads and
then sets, so that it is two of them; its other calls forward to one.
-/

namespace HisiRf.OsalAtomic

open Interaction Function

/-- What a set means to add is for the record only. -/
inductive Op where
  | read
  | set (value adds : Int32)
  | inc
  | dec

@[reducible] def Op.Reply : Op → Type
  | .read | .inc | .dec => Int32
  | .set _ _ => Unit

abbrev ops : Signature := ⟨Op, Op.Reply⟩

abbrev Task (A : Type) := Program ops A

def Op.answer (counter : Int32) : (o : Op) → o.Reply × Int32
  | .read => (counter, counter)
  | .set value _ => ((), value)
  | .inc => (counter + 1, counter + 1)
  | .dec => (counter - 1, counter - 1)

def Atom (counter : Int32) (o : Op) (reply : o.Reply) (after : Int32) : Prop :=
  o.answer counter = (reply, after)

def atom (o : Op) : Task o.Reply := Program.call (I := ops) o .done

def osalAtomicRead (null : Bool) : Task Int32 := if null then pure 0 else atom .read

def osalAtomicSet (null : Bool) (i adds : Int32) : Task Unit :=
  if null then pure () else atom (.set i adds)

def osalAtomicIncReturn (null : Bool) : Task Int32 := if null then pure 0 else atom .inc

def osalAtomicDecReturn (null : Bool) : Task Int32 := if null then pure 0 else atom .dec

def osalAtomicInc (null : Bool) : Task Unit :=
  if null then pure () else do
    let _ ← atom .inc

def osalAtomicDec (null : Bool) : Task Unit :=
  if null then pure () else do
    let _ ← atom .dec

def osalAdaptAtomicAdd (null : Bool) (val : Int32) : Task Unit := do
  let cur ← osalAtomicRead null
  osalAtomicSet null (cur + val) val

inductive Job where
  | add (val : Int32)
  | inc
  | dec
  | incReturn
  | decReturn

def Job.task (null : Bool) : Job → Task Unit
  | .add val => osalAdaptAtomicAdd null val
  | .inc => osalAtomicInc null
  | .dec => osalAtomicDec null
  | .incReturn => do
    let _ ← osalAtomicIncReturn null
  | .decReturn => do
    let _ ← osalAtomicDecReturn null

/-- By how much a step completes an addition, an increment or a decrement. -/
def adds : PoolLabel ops → Int32
  | .act _ ⟨.set _ adds, _⟩ => adds
  | .act _ ⟨.inc, _⟩ => 1
  | .act _ ⟨.dec, _⟩ => -1
  | .act _ ⟨.read, _⟩ | .start _ => 0

def Op.isSet : Op → Bool
  | .set _ _ => true
  | .read | .inc | .dec => false

/-- The counter is not changed while another task is about to set it. -/
def Undivided (pool : Pool ops Int32) : PoolLabel ops → Prop
  | .act _ ⟨.read, _⟩ | .start _ => True
  | .act i _ => ∀ j, j ≠ i → (pool.threads j).asks Op.isSet = false

/-- The places in which a task can stand. -/
inductive Stands (counter : Int32) : Task Unit → Prop where
  | idle : Stands counter (.done ())
  | job (job : Job) : Stands counter (job.task false)
  | adding (val : Int32) : Stands counter (.call (.set (counter + val) val) .done)

variable {counter : Int32} {p : Task Unit} {pool after : Pool ops Int32} {label : PoolLabel ops}

theorem Stands.kept (stands : Stands counter p) (other : p.asks Op.isSet = false) (now : Int32) :
    Stands now p := by
  cases stands with
  | idle => exact .idle
  | job job => exact .job job
  | adding => cases other

theorem Stands.start (job : Job) (null : Bool) : Stands counter (job.task null) := by
  cases null with
  | false => exact .job job
  | true => cases job <;> exact .idle

variable {i : Nat}

/-- A task takes its next step from where it stands. -/
theorem Stands.act {o : Op} {next : ops.Reply o → Task Unit} {reply : o.Reply} {now : Int32}
    (stands : Stands counter (.call o next)) (taken : Atom counter o reply now) :
    Stands now (next reply) ∧ now = counter + adds (.act i ⟨o, reply⟩) := by
  generalize whole : (Program.call o next : Task Unit) = p at stands
  cases stands with
  | idle => cases whole
  | adding val =>
    cases whole
    cases taken
    exact ⟨.idle, rfl⟩
  | job job =>
    cases job with
    | add val =>
      cases whole
      cases taken
      exact ⟨.adding val, (Int32.add_zero _).symm⟩
    | inc | incReturn =>
      cases whole
      cases taken
      exact ⟨.idle, rfl⟩
    | dec | decReturn =>
      cases whole
      cases taken
      exact ⟨.idle, Int32.sub_eq_add_neg _ _⟩

/-- The others stand where they did, as nobody changed the counter on them. -/
theorem Stands.beside {j : Nat} {exchange : Exchange ops} {now : Int32}
    (stands : Stands pool.world (pool.threads j)) (other : j ≠ i)
    (undivided : Undivided pool (.act i exchange))
    (taken : Atom pool.world exchange.op exchange.reply now) : Stands now (pool.threads j) := by
  obtain ⟨o, reply⟩ := exchange
  cases o with
  | read =>
    cases taken
    exact stands
  | set | inc | dec => exact stands.kept (undivided j other) now

theorem answers (counter : Int32) (o : Op) :
    Atom counter o (o.answer counter).1 (o.answer counter).2 := rfl

end HisiRf.OsalAtomic
