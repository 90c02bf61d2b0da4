import HisiRf.Crypto.Bignum
import Mathlib.Algebra.Field.ZMod

/-! Points of the curve behind C pointers.

The points are those of any commutative group, infinity being its zero. Only the
others have coordinates, and the hardware works on coordinates: its addition can
answer infinity, its multiplication and its inversion cannot.
-/

namespace HisiRf.Crypto

open Function

variable {E XY : Type} [AddCommGroup E] [DecidableEq E]

def ecMagic : UInt32 := 0x45433139
def pointMagic : UInt32 := 0x50543139

structure EcObject where
  magic : UInt32
  groupId : Nat

structure PointObject (E : Type) where
  magic : UInt32
  value : E

structure PointMemory (E : Type) where
  contexts : Nat → EcObject
  points : Nat → PointObject E
  bignums : Heap

structure Layouts where
  context : Layout
  point : Layout
  bignum : Layout

/-- Conversions of the group library. -/
structure Group19 (E XY : Type) where
  pointToXy : E → Option XY
  pointFromXy : XY → Option E

/-- `none` is an error; the sum of two points may be infinity, `some none`. -/
structure PointHardware (XY : Type) where
  pointAdd : XY → XY → Option (Option XY)
  pointMul : XY → Nat → Option XY
  pointInvert : XY → Option XY

section Calls

variable (layouts : Layouts) (group : Group19 E XY) (hardware : PointHardware XY) (m : PointMemory E)

def ecGroup (context : Nat) : Bool :=
  aligned layouts.context context && (m.contexts context).magic == ecMagic &&
    (m.contexts context).groupId == 19

def pointClone (p : Nat) : Option E :=
  if aligned layouts.point p ∧ (m.points p).magic = pointMagic then some (m.points p).value else none

def PointMemory.put (m : PointMemory E) (p : Nat) (value : E) : PointMemory E :=
  { m with points := update m.points p { m.points p with value := value } }

def pointStore (p : Nat) (value : Option E) : Int32 × PointMemory E :=
  match value with
  | some value =>
    if aligned layouts.point p ∧ (m.points p).magic = pointMagic then (0, m.put p value) else (-1, m)
  | none => (-1, m)

def pointAliases (context output : Nat) (inputs : List Nat) : Bool :=
  rangesOverlap output layouts.point.size context layouts.context.size == some false &&
    bignumAliases layouts.point output inputs

def cryptoEcPointAdd (context a b result : Nat) : Int32 × PointMemory E :=
  pointStore layouts m result <| do
    if ecGroup layouts m context = false ∨ pointAliases layouts context result [a, b] = false then none
    let a ← pointClone layouts m a
    let b ← pointClone layouts m b
    if a = 0 then return b
    if b = 0 then return a
    match ← hardware.pointAdd (← group.pointToXy a) (← group.pointToXy b) with
    | none => pure 0
    | some point => group.pointFromXy point

def apartFromScalar (point scalar : Nat) : Bool :=
  rangesOverlap point layouts.point.size scalar layouts.bignum.size == some false

def cryptoEcPointMul (context point scalar result : Nat) : Int32 × PointMemory E :=
  pointStore layouts m result <| do
    if ecGroup layouts m context = false ∨ pointAliases layouts context result [point] = false ∨
      apartFromScalar layouts result scalar = false ∨ apartFromScalar layouts point scalar = false then none
    let point ← pointClone layouts m point
    let scalar ← bignumClone layouts.bignum m.bignums scalar
    let xy ← group.pointToXy point
    if 256 ^ 32 ≤ scalar then none
    group.pointFromXy (← hardware.pointMul xy scalar)

def cryptoEcPointInvert (context point : Nat) : Int32 × PointMemory E :=
  if ecGroup layouts m context = false ∨ pointAliases layouts context point [point] = false then (-1, m)
  else if pointClone layouts m point = some 0 then (0, m)
  else pointStore layouts m point <| do
    let xy ← group.pointToXy (← pointClone layouts m point)
    group.pointFromXy (← hardware.pointInvert xy)

end Calls

/-- The points other than infinity are those with coordinates, and the hardware is right where the
result has some. -/
structure PointHardware.Right (hardware : PointHardware XY) (group : Group19 E XY) : Prop where
  infinity : group.pointToXy 0 = none
  finite : ∀ xy, group.pointFromXy xy ≠ some 0
  coordinates : ∀ p, p ≠ 0 → ∃ xy, group.pointToXy p = some xy ∧ group.pointFromXy xy = some p
  add : ∀ {p q a b}, group.pointToXy p = some a → group.pointToXy q = some b →
    hardware.pointAdd a b = some (group.pointToXy (p + q))
  mul : ∀ {p xy k s}, group.pointToXy p = some xy → group.pointToXy (k • p) = some s →
    hardware.pointMul xy k = some s
  invert : ∀ {p xy s}, group.pointToXy p = some xy → group.pointToXy (-p) = some s →
    hardware.pointInvert xy = some s

variable {layouts : Layouts} {group : Group19 E XY} {hardware : PointHardware XY} {m : PointMemory E}
  {p q : E}

omit [AddCommGroup E] [DecidableEq E] in
theorem pointStore_some {result : Nat} (held : (pointClone layouts m result).isSome = true) (value : E) :
    pointStore layouts m result (some value) = (0, m.put result value) := by
  unfold pointClone at held
  split at held
  next valid => exact if_pos valid
  next => cases held

omit [AddCommGroup E] [DecidableEq E] in
theorem put_same {a : Nat} (found : pointClone layouts m a = some p) : m.put a p = m := by
  unfold pointClone at found
  split at found
  next =>
    cases found
    exact congrArg (PointMemory.mk m.contexts · m.bignums) (update_eq_self a m.points)
  next => cases found

omit [AddCommGroup E] [DecidableEq E] in
theorem put_inj {a : Nat} (same : m.put a p = m.put a q) : p = q := by
  have value := congrArg (fun after => (after.points a).value) same
  simpa [PointMemory.put] using value

/-- The product of the hardware is right exactly if neither the operand nor the product is infinity. -/
theorem pointMul_iff (right : hardware.Right group) {result : Nat}
    (held : (pointClone layouts m result).isSome = true) (k : Nat) :
    pointStore layouts m result
        ((group.pointToXy p).bind fun xy => (hardware.pointMul xy k).bind group.pointFromXy) =
      (0, m.put result (k • p)) ↔ p ≠ 0 ∧ k • p ≠ 0 := by
  by_cases finite : p = 0
  · simp [finite, right.infinity, pointStore]
  obtain ⟨xy, coordinates, -⟩ := right.coordinates p finite
  rw [coordinates, Option.bind_some]
  by_cases finite' : k • p = 0
  · refine iff_of_false ?_ fun both => both.2 finite'
    cases product : (hardware.pointMul xy k).bind group.pointFromXy with
    | none => simp [pointStore]
    | some q =>
      rw [pointStore_some held]
      intro same
      obtain rfl : q = 0 := (put_inj (congrArg Prod.snd same)).trans finite'
      obtain ⟨s, _, back⟩ := Option.bind_eq_some_iff.mp product
      exact right.finite s back
  · obtain ⟨product, multiplied, back⟩ := right.coordinates _ finite'
    simp [right.mul coordinates multiplied, back, pointStore_some held, finite, finite']

/-- Addition and inversion follow the group law; multiplication does exactly if neither its operand
nor its result is infinity. -/
theorem point_operations_follow_group_law (right : hardware.Right group)
    {context a b scalar result : Nat} (valid : ecGroup layouts m context = true)
    (found : pointClone layouts m a = some p) (held : (pointClone layouts m result).isSome = true) :
    (pointAliases layouts context result [a, b] = true → pointClone layouts m b = some q →
      cryptoEcPointAdd layouts group hardware m context a b result = (0, m.put result (p + q))) ∧
    (∀ k, pointAliases layouts context result [a] = true → apartFromScalar layouts result scalar = true →
      apartFromScalar layouts a scalar = true → bignumClone layouts.bignum m.bignums scalar = some k →
      k < 256 ^ 32 → (cryptoEcPointMul layouts group hardware m context a scalar result =
        (0, m.put result (k • p)) ↔ p ≠ 0 ∧ k • p ≠ 0)) ∧
    (pointAliases layouts context a [a] = true →
      cryptoEcPointInvert layouts group hardware m context a = (0, m.put a (-p))) := by
  refine ⟨?_, ?_, ?_⟩
  · intro aliases other
    rw [← pointStore_some held, cryptoEcPointAdd]
    congr 1
    simp only [valid, aliases, found, other, Bool.true_eq_false, or_self, if_false, Option.bind_eq_bind,
      Option.pure_def, Option.bind_some]
    by_cases zero : p = 0
    · simp [zero]
    by_cases zero' : q = 0
    · simp [zero, zero']
    obtain ⟨a, first, -⟩ := right.coordinates p zero
    obtain ⟨b, second, -⟩ := right.coordinates q zero'
    simp only [zero, zero', if_false, first, second, Option.bind_some, right.add first second]
    by_cases opposite : p + q = 0
    · simp [opposite, right.infinity]
    · obtain ⟨sum, coordinates, back⟩ := right.coordinates (p + q) opposite
      simp [coordinates, back]
  · intro k aliases apart apart' counted small
    rw [← pointMul_iff right held k, cryptoEcPointMul]
    simp only [valid, aliases, apart, apart', found, counted, Bool.true_eq_false, or_self, if_false,
      Option.bind_eq_bind, Option.bind_some, if_neg (Nat.not_le.mpr small)]
  · intro aliases
    unfold cryptoEcPointInvert
    simp only [valid, aliases, found, Bool.true_eq_false, or_self, if_false, Option.some_inj]
    split
    next zero => rw [zero, neg_zero, ← zero, put_same found]
    next finite =>
      have held : (pointClone layouts m a).isSome = true := by simp [found]
      rw [← pointStore_some held]
      congr 1
      obtain ⟨xy, coordinates, -⟩ := right.coordinates p finite
      obtain ⟨inverse, inverted, back⟩ := right.coordinates (-p) (neg_ne_zero.mpr finite)
      simp [coordinates, right.invert coordinates inverted, back]

/-- The group of two points. -/
def smallest : Group19 (ZMod 2) (ZMod 2) where
  pointToXy := fun p => if p = 0 then none else some p
  pointFromXy := fun xy => if xy = 0 then none else some xy

def smallestHardware : PointHardware (ZMod 2) where
  pointAdd := fun a b => some (smallest.pointToXy (a + b))
  pointMul := fun a k => smallest.pointToXy (k • a)
  pointInvert := fun a => smallest.pointToXy (-a)

theorem smallest_right : smallestHardware.Right smallest := by
  have same : ∀ {p xy : ZMod 2}, smallest.pointToXy p = some xy → xy = p := by decide
  refine ⟨rfl, by decide, by decide, ?_, ?_, ?_⟩
  · intro p q a b first second
    rw [same first, same second]
    rfl
  · intro p xy k s coordinates product
    exact same coordinates ▸ product
  · intro p xy s coordinates inverse
    exact same coordinates ▸ inverse

/-- The finite point in every object, and a scalar. -/
def smallestMemory (value : ZMod 2) (scalar : Nat) : PointMemory (ZMod 2) :=
  ⟨fun _ => ⟨ecMagic, 19⟩, fun _ => ⟨pointMagic, value⟩, fun _ => ⟨bignumMagic, owned, scalar⟩⟩

def smallestLayouts : Layouts := ⟨⟨16, 4⟩, ⟨16, 4⟩, ⟨16, 4⟩⟩

theorem finite_point_multiplied :
    cryptoEcPointMul smallestLayouts smallest smallestHardware (smallestMemory 1 3) 16 32 64 48 =
      (0, (smallestMemory 1 3).put 48 (3 • 1)) :=
  ((point_operations_follow_group_law (b := 32) (q := 1) smallest_right rfl rfl rfl).2.1 3 rfl rfl rfl
    rfl (by decide)).mpr ⟨by decide, by decide⟩

theorem infinity_not_multiplied : smallestHardware.Right smallest ∧
    (cryptoEcPointMul smallestLayouts smallest smallestHardware (smallestMemory 0 3) 16 32 64 48).1 = -1 ∧
      (cryptoEcPointMul smallestLayouts smallest smallestHardware
        (smallestMemory 1 2) 16 32 64 48).1 = -1 := by
  refine ⟨smallest_right, ?_⟩
  decide

end HisiRf.Crypto
