import HisiRf.Interaction.Program
import Mathlib.Algebra.Order.BigOperators.Group.Finset
import Mathlib.Data.Int.CardIntervalMod
import Mathlib.Data.Nat.Log
import Mathlib.Tactic.IntervalCases

/-! Big numbers behind C pointers, and random ones below a modulus.

The number library works on values; its numbers are natural numbers here. What C
holds are addresses of objects, which are checked before every use. A string of
`width` bytes is its big-endian value below `256 ^ width`.
-/

namespace HisiRf.Crypto

open Interaction Nat Finset Function

def bignumMagic : UInt32 := 0x424e3634
def owned : UInt32 := 1

structure BignumObject where
  magic : UInt32
  ownership : UInt32
  value : Nat

/-- What is found at each address. -/
abbrev Heap := Nat → BignumObject

/-- Size and alignment of an object. -/
structure Layout where
  size : Nat
  align : Nat

def rangesOverlap (a aLen b bLen : Nat) : Option Bool :=
  if a + aLen < 2 ^ 32 ∧ b + bLen < 2 ^ 32 then some (a < b + bLen && b < a + aLen) else none

def objectAliasIsValid (layout : Layout) (a b : Nat) : Bool :=
  a == b || rangesOverlap a layout.size b layout.size == some false

/-- The result is one of the operands or apart from them, and so are the operands. -/
def bignumAliases (layout : Layout) (output : Nat) (inputs : List Nat) : Bool :=
  output != 0 && inputs.all (fun input => input != 0 && objectAliasIsValid layout output input) &&
    inputs.all fun input => inputs.all fun other => objectAliasIsValid layout input other

def aligned (layout : Layout) (p : Nat) : Bool := p != 0 && p % layout.align == 0

def bignumClone (layout : Layout) (heap : Heap) (p : Nat) : Option Nat :=
  if aligned layout p ∧ (heap p).magic = bignumMagic then some (heap p).value else none

def bignumStore (layout : Layout) (heap : Heap) (p value : Nat) : Option Heap :=
  if aligned layout p ∧ (heap p).magic = bignumMagic ∧ (heap p).ownership = owned then
    some (update heap p { heap p with value := value })
  else none

/-- A computed value is stored, or the heap is left as it was. -/
def finish (layout : Layout) (heap : Heap) (result : Nat) (value : Option Nat) : Int32 × Heap :=
  match value.bind (bignumStore layout heap result) with
  | some heap => (0, heap)
  | none => (-1, heap)

section Random

inductive CryptoError where | entropyRejected | other

/-- Two calls of the number library: how many bytes a number has and the first of them, and the number
that a string of bytes stands for. -/
structure Library where
  writeBe : Nat → Option (Nat × Nat)
  randomBelow : (width entropy m : Nat) → Except CryptoError Nat

/-- Bytes of the number without leading zeros. -/
def width (m : Nat) : Nat := log 256 m + 1

def topByte (m : Nat) : Nat := m / 256 ^ (width m - 1)

/-- Bytes are written without leading zeros, and a string is accepted if its value is below `m`. -/
structure Library.Right (library : Library) : Prop where
  writes : ∀ m, 0 < m → library.writeBe m = some (width m, topByte m)
  accepts : ∀ width entropy m, library.randomBelow width entropy m =
    if entropy < m then .ok entropy else .error .entropyRejected

def leadingZeros (byte : Nat) : Nat := 7 - log 2 byte

def entropyTopMask (byte : Nat) : Option Nat :=
  if byte = 0 then none else some (255 >>> leadingZeros byte)

/-- The first byte of the string is masked. -/
def masked (width mask entropy : Nat) : Nat :=
  (entropy / 256 ^ (width - 1) &&& mask) * 256 ^ (width - 1) + entropy % 256 ^ (width - 1)

def maxRandomRejections : Nat := 128

/-- The entropy source fills a buffer of so many bytes, or fails. -/
abbrev entropySource : Signature := ⟨Nat, fun width => Option (Fin (256 ^ width))⟩

section Calls

variable (library : Library)

def drawBelow (width mask m : Nat) : Nat → Program entropySource (Option Nat)
  | 0 => .done none
  | left + 1 => .call width fun
    | none => .done none
    | some entropy =>
      match library.randomBelow width (masked width mask entropy) m with
      | .ok value => .done (some value)
      | .error .entropyRejected => drawBelow width mask m left
      | .error .other => .done none

def cryptoBignumRand (layout : Layout) (heap : Heap) (result modulus : Nat) :
    Program entropySource (Int32 × Heap) :=
  if bignumAliases layout result [modulus] = false then .done (-1, heap)
  else
    match bignumClone layout heap modulus with
    | none => .done (-1, heap)
    | some m =>
      match library.writeBe m with
      | none => .done (-1, heap)
      | some (width, first) =>
        match entropyTopMask first with
        | none => .done (-1, heap)
        | some mask => (drawBelow library width mask m maxRandomRejections).bind fun value =>
            .done (finish layout heap result value)

end Calls

variable {m : Nat}

/-- How many numbers a masked string can show. -/
def span (m : Nat) : Nat := 256 ^ (width m - 1) * 2 ^ (log 2 (topByte m) + 1)

theorem le_span (m : Nat) : m ≤ span m := by
  have top := lt_pow_succ_log_self (b := 2) (by decide) (topByte m)
  calc m ≤ 256 ^ (width m - 1) * (topByte m + 1) := (lt_mul_div_succ m (by positivity)).le
    _ ≤ span m := by unfold span; gcongr; exact top

section

variable (positive : 0 < m)
include positive

theorem topByte_bounds : 0 < topByte m ∧ topByte m < 256 := by
  have low := pow_log_le_self 256 positive.ne'
  have high := lt_pow_succ_log_self (b := 256) (by decide) m
  refine ⟨div_pos low (by positivity), ?_⟩
  rw [topByte, div_lt_iff_lt_mul (by positivity)]
  simpa [width, pow_succ, mul_comm] using high

theorem log_topByte_le : log 2 (topByte m) ≤ 7 := by
  have bounds := topByte_bounds positive
  exact Nat.lt_succ_iff.mp (Nat.log_lt_of_lt_pow bounds.1.ne' bounds.2)

theorem span_mul : 2 ^ leadingZeros (topByte m) * span m = 256 ^ width m := by
  have small := log_topByte_le positive
  have byte : 2 ^ leadingZeros (topByte m) * 2 ^ (Nat.log 2 (topByte m) + 1) = 256 := by
    rw [leadingZeros, ← Nat.pow_add, show 7 - Nat.log 2 (topByte m) +
      (Nat.log 2 (topByte m) + 1) = 8 by omega]
  rw [span, Nat.mul_left_comm, byte, width, Nat.add_sub_cancel, Nat.pow_succ]

theorem span_le : span m ≤ 2 * m := by
  have bounds := topByte_bounds positive
  calc span m = 2 * (256 ^ (width m - 1) * 2 ^ log 2 (topByte m)) := by
          rw [span, pow_succ, ← mul_assoc, mul_comm]
    _ ≤ 2 * (256 ^ (width m - 1) * topByte m) := by gcongr; exact pow_log_le_self 2 bounds.1.ne'
    _ ≤ 2 * m := by gcongr; exact mul_div_le m _

/-- Masking the first byte is reduction. -/
theorem masked_eq : ∃ mask, entropyTopMask (topByte m) = some mask ∧
    ∀ entropy, masked (width m) mask entropy = entropy % span m := by
  have bounds := topByte_bounds positive
  have small := log_topByte_le positive
  refine ⟨2 ^ (log 2 (topByte m) + 1) - 1, ?_, fun entropy => ?_⟩
  · rw [entropyTopMask, if_neg bounds.1.ne', leadingZeros]
    interval_cases log 2 (topByte m) <;> rfl
  · rw [masked, and_two_pow_sub_one_eq_mod, span, mod_mul, mul_comm, add_comm]

theorem count_value {v : Nat} (below : v < span m) :
    count (fun entropy => entropy % span m = v) (256 ^ width m) = 2 ^ leadingZeros (topByte m) := by
  have counted := count_modEq_card (256 ^ width m) (zero_lt_of_lt below) v
  rw [← span_mul positive, mul_div_left _ (zero_lt_of_lt below), mul_mod_left] at counted
  simpa [ModEq, mod_eq_of_lt below, ← span_mul positive] using counted

/-- The accepted strings are those of the values below the modulus. -/
theorem count_accepted : count (fun entropy => entropy % span m < m) (256 ^ width m) =
    m * 2 ^ leadingZeros (topByte m) := by
  rw [count_eq_card_filter_range, card_eq_sum_card_fiberwise
    (f := (· % span m)) (t := range m) (by intro entropy; simp)]
  have fiber : ∀ v ∈ range m, (filter (fun entropy => entropy % span m = v)
      (filter (fun entropy => entropy % span m < m) (range (256 ^ width m)))).card =
      2 ^ leadingZeros (topByte m) := by
    intro v within
    have below := mem_range.mp within
    rw [← count_value positive (below.trans_le (le_span m)), count_eq_card_filter_range,
      filter_filter]
    exact congrArg _ (filter_congr fun entropy _ => ⟨And.right, fun same => ⟨same ▸ below, same⟩⟩)
  rw [sum_congr rfl fiber]
  simp

end

/-- A draw that was refused. -/
def Rejected (m mask : Nat) (exchange : Exchange entropySource) : Prop :=
  ∃ entropy, exchange.reply = some entropy ∧ m ≤ masked (width m) mask entropy

/-- The last draw was accepted, and the value is that of its string. -/
def Accepted (m mask v : Nat) (talk : List (Exchange entropySource)) : Prop :=
  ∃ earlier, ∃ entropy : Fin (256 ^ width m), talk = earlier ++ [⟨width m, some entropy⟩] ∧
    (∀ exchange ∈ earlier, Rejected m mask exchange) ∧ v = masked (width m) mask entropy ∧ v < m

variable {library : Library} (right : library.Right)
include right

theorem drawBelow_ensures (mask left : Nat) (past : List (Exchange entropySource))
    (refused : ∀ exchange ∈ past, Rejected m mask exchange) :
    (drawBelow library (width m) mask m left).Ensures (fun value talk =>
      (∀ v, value = some v → Accepted m mask v talk) ∧
      (value = none → (∃ exchange ∈ talk, exchange.reply = none) ∨
        talk.length = past.length + left ∧ ∀ exchange ∈ talk, Rejected m mask exchange)) past := by
  induction left generalizing past with
  | zero => exact ⟨nofun, fun _ => .inr ⟨rfl, refused⟩⟩
  | succ left ih =>
    rintro (_ | entropy)
    · exact ⟨nofun, fun _ => .inl ⟨_, List.mem_append_right _ (.head _), rfl⟩⟩
    dsimp only
    rw [right.accepts]
    split
    next value accepted =>
      obtain ⟨below, rfl⟩ : masked (width m) mask entropy < m ∧ masked (width m) mask entropy = value := by
        grind
      exact ⟨fun v same => ⟨past, entropy, rfl, refused, (Option.some.inj same).symm,
        Option.some.inj same ▸ below⟩, nofun⟩
    next rejected =>
      refine (ih (past ++ [_]) ?_).mono fun value talk drawn => ⟨drawn.1, fun failed => ?_⟩
      · intro exchange member
        rcases List.mem_append.mp member with old | new
        · exact refused exchange old
        · exact List.mem_singleton.mp new ▸ ⟨entropy, rfl, by grind⟩
      · refine (drawn.2 failed).imp_right fun all => ⟨?_, all.2⟩
        rw [all.1, List.length_append, List.length_singleton, add_assoc, add_comm 1]
    next failed => grind

omit right in
theorem finish_cases (layout : Layout) (heap : Heap) (result : Nat) (value : Option Nat) :
    (∃ v, value = some v ∧ finish layout heap result value =
      (0, update heap result { heap result with value := v })) ∨
    finish layout heap result value = (-1, heap) ∧
      (value = none ∨ ∀ v, bignumStore layout heap result v = none) := by
  cases value with
  | none => exact .inr ⟨rfl, .inl rfl⟩
  | some v =>
    unfold finish bignumStore
    by_cases writable : aligned layout result ∧ (heap result).magic = bignumMagic ∧
        (heap result).ownership = owned
    · simp [writable]
    · simp [writable]

/-- A value is stored exactly as the last string shows it, and every value below the modulus comes
from equally many strings. -/
theorem random_is_uniform_below (layout : Layout) (heap : Heap) (result modulus : Nat)
    (found : bignumClone layout heap modulus = some m) (positive : 0 < m) :
    ∃ mask, entropyTopMask (topByte m) = some mask ∧
    (∀ v < m, Nat.count (fun entropy => masked (width m) mask entropy = v) (256 ^ width m) =
      2 ^ leadingZeros (topByte m)) ∧
    256 ^ width m ≤ 2 * Nat.count (fun entropy => masked (width m) mask entropy < m) (256 ^ width m) ∧
    (cryptoBignumRand library layout heap result modulus).Ensures (fun ended talk =>
      (∃ v, Accepted m mask v talk ∧
        ended = (0, Function.update heap result { heap result with value := v })) ∨
      ended = (-1, heap) ∧ (bignumAliases layout result [modulus] = false ∨
        (∀ v, bignumStore layout heap result v = none) ∨ (∃ exchange ∈ talk, exchange.reply = none) ∨
        talk.length = 128 ∧ ∀ exchange ∈ talk, Rejected m mask exchange)) [] := by
  obtain ⟨mask, masks, reduced⟩ := masked_eq positive
  refine ⟨mask, masks, ?_, ?_, ?_⟩
  · intro v below
    simp only [reduced]
    exact count_value positive (below.trans_le (le_span m))
  · simp only [reduced]
    rw [count_accepted positive, ← span_mul positive, ← mul_assoc, mul_comm]
    exact mul_le_mul_right _ (span_le positive)
  unfold cryptoBignumRand
  split
  next apart => exact .inr ⟨rfl, .inl apart⟩
  next =>
    simp only [found, right.writes m positive, masks]
    apply (Program.ensures_bind _ _ _ _).mpr
    refine (drawBelow_ensures right mask maxRandomRejections [] nofun).mono fun value talk drawn => ?_
    rcases finish_cases layout heap result value with ⟨v, same, stored⟩ | ⟨failed, none_ | unowned⟩
    · exact .inl ⟨v, drawn.1 v same, stored⟩
    · exact .inr ⟨failed, .inr (.inr ((drawn.2 none_).imp_right fun all =>
        ⟨all.1.trans (zero_add _), all.2⟩))⟩
    · exact .inr ⟨failed, .inr (.inl unowned)⟩

def exactLibrary : Library where
  writeBe m := some (width m, topByte m)
  randomBelow _ entropy m := if entropy < m then .ok entropy else .error .entropyRejected

def heap300 : Heap := fun _ => ⟨bignumMagic, owned, 300⟩

omit right in
/-- The source answers 65535, which is masked to 511 and refused, and then 299. -/
theorem random_below_300 :
    let talk : List (Exchange entropySource) := [⟨2, some 65535⟩, ⟨2, some 299⟩]
    (cryptoBignumRand exactLibrary ⟨16, 4⟩ heap300 64 32).Runs talk
        (0, update heap300 64 ⟨bignumMagic, owned, 299⟩) ∧
      ∃ mask, Accepted 300 mask 299 talk ∧
        count (fun entropy => masked 2 mask entropy = 299) (256 ^ 2) = 2 ^ 7 := by
  intro talk
  have run : (cryptoBignumRand exactLibrary ⟨16, 4⟩ heap300 64 32).Runs talk
      (0, update heap300 64 ⟨bignumMagic, owned, 299⟩) := Program.runs_of_follow rfl
  have right : exactLibrary.Right := ⟨fun _ _ => rfl, fun _ _ _ => rfl⟩
  obtain ⟨mask, _, even, _, ensures⟩ :=
    random_is_uniform_below right ⟨16, 4⟩ heap300 64 32 rfl (by decide)
  obtain ⟨v, accepted, same⟩ | ⟨failed, _⟩ := ensures.sound run
  · obtain rfl : 299 = v := congrArg (fun ended : Int32 × Heap => (ended.2 64).value) same
    exact ⟨run, mask, accepted, even 299 (by decide)⟩
  · exact absurd (congrArg Prod.fst failed) (by decide)

end Random

end HisiRf.Crypto
