import HisiRf.Machine.Word

/-! The packet buffers that the native stack gets from the adapter.

A payload is moved within the room between the header and the end of its
allocation. Addresses are numbers; the code compares them as `isize`, so that
the signed wrap of the target is written out. The heap lies in the lower half of
the address space, which is all that is known of the allocator.
-/

namespace HisiRf.PacketBuffer

def pbufHdr : Nat := 32
def pbufZeroCopyReserve : Nat := 80
def pbufZeroCopyTailroom : Nat := 4

/-- The allocation epoch is kept before the buffer in builds with the standard L2. -/
def pbufPrefix (standardL2 : Bool) : Nat := if standardL2 then 16 else 0

structure Pbuf where
  next : Option Nat
  payload : Nat
  totLen : Nat
  len : Nat
  list : Option Nat
  mallocLen : Nat
  typeInternal : UInt8
  flags : UInt16
  refCount : Int32
  ifIdx : UInt8
  priority : UInt8

structure Heap where
  kmalloc : Nat → Option Nat
  low : ∀ size a, kmalloc size = some a → 0 < a ∧ a + size < 2147483648

def pbufAlloc (heap : Heap) (standardL2 : Bool) (length : UInt16) : Option (Nat × Pbuf) :=
  let total := pbufHdr + pbufZeroCopyReserve + length.toNat + pbufZeroCopyTailroom
  if 65535 < total then none
  else do
    let allocation ← heap.kmalloc (pbufPrefix standardL2 + total)
    let raw := allocation + pbufPrefix standardL2
    some (raw, {
      next := none, payload := raw + (pbufHdr + pbufZeroCopyReserve), totLen := length.toNat
      len := length.toNat, list := none, mallocLen := total, typeInternal := 0x80, flags := 0
      refCount := 1, ifIdx := 0, priority := 0 })

def isize (x : Int) : Int := x.bmod 4294967296

def pbufHeader (p : Nat) (b : Pbuf) (headerSize : Int16) : UInt8 × Pbuf :=
  if p = 0 then (1, b)
  else
    let size := headerSize.toInt
    let newLen := isize (b.len + size)
    let newTotLen := isize (b.totLen + size)
    let newPayload := isize (isize b.payload - size)
    let base := isize (p + pbufHdr : Nat)
    let stop := isize (isize p + b.mallocLen)
    if newLen < 0 ∨ 65535 < newLen ∨ newTotLen < 0 ∨ 65535 < newTotLen ∨ newPayload < base ∨
        stop < isize (newPayload + newLen) then (1, b)
    else (0, { b with
      payload := ((b.payload - size) % 4294967296).toNat
      len := (newLen % 65536).toNat
      totLen := (newTotLen % 65536).toNat })

def headers (p : Nat) (b : Pbuf) (sizes : List Int16) : Pbuf :=
  sizes.foldl (fun b size => (pbufHeader p b size).2) b

/-- A new buffer in the lower half; its payload ends within it. -/
structure Fresh (p : Nat) (b : Pbuf) : Prop where
  valid : 0 < p
  base : p + pbufHdr ≤ b.payload
  fits : b.payload + b.len ≤ p + b.mallocLen
  same : b.totLen = b.len
  short : b.mallocLen ≤ 65535
  low : p + b.mallocLen < 2147483648

/-- The buffer with another begin of its payload, and the same end. -/
def Pbuf.moved (b : Pbuf) (payload : Nat) : Pbuf :=
  let len := b.payload + b.len - payload
  { b with payload := payload, len := len, totLen := len }

def Pbuf.Room (p : Nat) (b : Pbuf) (payload : Int) : Prop :=
  p + pbufHdr ≤ payload ∧ payload ≤ b.payload + b.len

theorem isize_eq {x : Int} (low : -2147483648 ≤ x) (high : x < 2147483648) : isize x = x :=
  Int.bmod_eq_of_le low high

variable {p : Nat} {b : Pbuf}

/-- No address wraps that matters, and the payload moves wherever there is room for its begin. -/
theorem pbufHeader_moved (fresh : Fresh p b) {x : Nat} (here : b.Room p x) (size : Int16) :
    (∃ y : Nat, y = x - size.toInt ∧ b.Room p y ∧ pbufHeader p (b.moved x) size = (0, b.moved y)) ∨
    (¬b.Room p (x - size.toInt) ∧ pbufHeader p (b.moved x) size = (1, b.moved x)) := by
  obtain ⟨valid, _, fits, _, short, low⟩ := fresh
  have least := size.le_toInt
  have most := size.toInt_lt
  unfold Pbuf.Room pbufHdr at *
  unfold pbufHeader pbufHdr Pbuf.moved
  generalize size.toInt = size at *
  generalize left : b.payload + b.len - x = len
  dsimp only
  rw [if_neg (by omega), isize_eq (x := len + size) (by omega) (by omega)]
  by_cases enough : 0 ≤ len + size
  · rw [isize_eq (x := x) (by omega) (by omega), isize_eq (x := x - size) (by omega) (by omega),
      isize_eq (x := p) (by omega) (by omega), isize_eq (x := (p + 32 : Nat)) (by omega) (by omega),
      isize_eq (x := p + b.mallocLen) (by omega) (by omega),
      isize_eq (x := x - size + (len + size)) (by omega) (by omega)]
    split
    next => exact .inr ⟨by omega, rfl⟩
    next room =>
      have newPayload : (x - size) % 4294967296 = x - size := by omega
      have newLen : ((len + size) % 65536).toNat = b.payload + b.len - (x - size).toNat := by omega
      rw [newPayload, newLen]
      exact .inl ⟨_, Int.toNat_of_nonneg (by omega), by omega, rfl⟩
  · rw [if_pos (.inl (by omega))]
    exact .inr ⟨by omega, rfl⟩

theorem headers_moved (fresh : Fresh p b) {x : Nat} (here : b.Room p x) (sizes : List Int16) :
    ∃ y : Nat, b.Room p y ∧ headers p (b.moved x) sizes = b.moved y := by
  induction sizes generalizing x with
  | nil => exact ⟨x, here, rfl⟩
  | cons size rest ih =>
    change ∃ y : Nat, b.Room p y ∧ headers p (pbufHeader p (b.moved x) size).2 rest = b.moved y
    rcases pbufHeader_moved fresh here size with ⟨y, _, there, moves⟩ | ⟨_, stays⟩
    · rw [moves]
      exact ih there
    · rw [stays]
      exact ih here

theorem moved_payload (same : b.totLen = b.len) : b.moved b.payload = b := by
  unfold Pbuf.moved
  rw [Nat.add_sub_cancel_left]
  cases b
  cases same
  rfl

variable {heap : Heap} {standardL2 : Bool} {length : UInt16}

theorem fresh_alloc (made : pbufAlloc heap standardL2 length = some (p, b)) : Fresh p b := by
  unfold pbufAlloc at made
  dsimp only at made
  split at made
  next => cases made
  next fits =>
    obtain ⟨allocation, given, same⟩ := Option.bind_eq_some_iff.mp made
    have low := heap.low _ _ given
    unfold pbufHdr pbufZeroCopyReserve pbufZeroCopyTailroom at *
    cases same
    refine ⟨by omega, ?_, ?_, rfl, Nat.le_of_not_lt fits, ?_⟩
    · dsimp only [pbufHdr]
      omega
    · dsimp only
      omega
    · dsimp only
      omega

/-- However the payload of a new buffer is moved, it ends where it did and stays in the buffer. -/
theorem payload_stays_in_buffer (made : pbufAlloc heap standardL2 length = some (p, b))
    (sizes : List Int16) :
    let now := headers p b sizes
    now.payload + now.len = b.payload + b.len ∧ p + pbufHdr ≤ now.payload ∧
    now.payload + now.len ≤ p + b.mallocLen ∧ now.totLen = now.len ∧
    (∀ size, (pbufHeader p now size).1 ≠ 0 → (pbufHeader p now size).2 = now) ∧
    (∀ size back : Int16, back.toInt = -size.toInt → (pbufHeader p now size).1 = 0 →
      pbufHeader p (pbufHeader p now size).2 back = (0, now)) ∧
    ∀ address, p - pbufPrefix standardL2 ≤ address → address < p →
      ¬ (now.payload ≤ address ∧ address < now.payload + now.len) := by
  intro now
  have fresh := fresh_alloc made
  have base := fresh.base
  have fits := fresh.fits
  obtain ⟨x, here, reached⟩ := headers_moved fresh (x := b.payload) ⟨by omega, by omega⟩ sizes
  rw [moved_payload fresh.same] at reached
  rw [show now = b.moved x from reached]
  have sum : (b.moved x).payload + (b.moved x).len = b.payload + b.len := by
    have most := here.2
    dsimp only [Pbuf.moved]
    omega
  have least : p + pbufHdr ≤ (b.moved x).payload := by
    have least := here.1
    dsimp only [Pbuf.moved]
    omega
  refine ⟨sum, least, sum ▸ fits, rfl, ?_, ?_, by omega⟩
  · intro size failed
    rcases pbufHeader_moved fresh here size with ⟨y, _, _, moves⟩ | ⟨_, stays⟩
    · exact absurd (congrArg Prod.fst moves) failed
    · rw [stays]
  · intro size back opposite moved
    rcases pbufHeader_moved fresh here size with ⟨y, way, there, moves⟩ | ⟨_, stays⟩
    · rw [moves]
      rcases pbufHeader_moved fresh there back with ⟨z, wayBack, _, returns⟩ | ⟨stuck, _⟩
      · obtain rfl : z = x := by omega
        exact returns
      · rw [show (y : Int) - back.toInt = x by omega] at stuck
        exact absurd here stuck
    · rw [stays] at moved
      cases moved

def lowHeap : Heap := ⟨fun size => if size < 70000 then some 4096 else none, by grind⟩

theorem payload_moved_in_small_buffer : ∃ b, pbufAlloc lowHeap true 100 = some (4112, b) ∧
    let now := headers 4112 b [20, -8, 200]
    now.payload + now.len = b.payload + b.len ∧ now.payload = 4212 := by
  have made : pbufAlloc lowHeap true 100 = some (4112, _) := rfl
  exact ⟨_, made, (payload_stays_in_buffer made [20, -8, 200]).1, by decide⟩

end HisiRf.PacketBuffer
