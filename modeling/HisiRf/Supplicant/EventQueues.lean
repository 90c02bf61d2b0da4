import HisiRf.Supplicant.SlotQueue

/-! The four queues from the callbacks of the vendor to the runner.

They differ in what an entry is, in the check before it is queued and in how many
slots there are; only scan results are also limited for each scan. An entry is
copied into its slot piece by piece: first the fields, then the payload, byte by
byte.
-/

namespace HisiRf.EventQueues

open SlotQueue
open Storage

abbrev Bytes (size : Nat) := Fin size → UInt8

def maxMgmtFrameLen : Nat := 768
def mgmtRxQueueDepth : Nat := 8

structure MgmtFrame where
  frequencyMhz : UInt32
  rssiDbm : Int32
  frame : List UInt8

structure MgmtMeta where
  frequencyMhz : UInt32
  rssiDbm : Int32
  frameLen : Nat

structure MgmtContent where
  info : MgmtMeta
  frame : Bytes maxMgmtFrameLen

def mgmtAccepts (entry : MgmtFrame) : Bool :=
  !(entry.frame.isEmpty || maxMgmtFrameLen < entry.frame.length)

def mgmtStores (entry : MgmtFrame) : List (MgmtContent → MgmtContent) :=
  (fun now => { now with info := ⟨entry.frequencyMhz, entry.rssiDbm, entry.frame.length⟩ }) ::
    (copies 0 entry.frame).map fun store now => { now with frame := store now.frame }

def mgmtView (content : MgmtContent) : MgmtFrame :=
  ⟨content.info.frequencyMhz, content.info.rssiDbm, front content.info.frameLen content.frame⟩

theorem mgmtView_stores (entry : MgmtFrame) (content : MgmtContent)
    (accepted : mgmtAccepts entry = true) : mgmtView (storeAll (mgmtStores entry) content) = entry := by
  have fits : entry.frame.length ≤ maxMgmtFrameLen := by
    simp only [mgmtAccepts, Bool.not_eq_true', Bool.or_eq_false_iff, decide_eq_false_iff_not,
      Nat.not_lt] at accepted
    exact accepted.2
  have copied := storeAll_part MgmtContent.frame (fun frame now => { now with frame := frame })
    (fun _ => rfl) (fun _ _ => rfl) (fun _ _ _ => rfl) (copies 0 entry.frame)
    { content with info := ⟨entry.frequencyMhz, entry.rssiDbm, entry.frame.length⟩ }
  have whole : storeAll (mgmtStores entry) content = _ := copied
  rw [whole, mgmtView, front_copies fits]

def mgmtRxQueue : Layout where
  Entry := MgmtFrame
  Content := MgmtContent
  blank := ⟨⟨0, 0, 0⟩, fun _ => 0⟩
  depth := mgmtRxQueueDepth
  accepts := mgmtAccepts
  metered := fun _ => false
  quota := 0
  stores := mgmtStores
  view := mgmtView
  law := mgmtView_stores

def scanEventQueueDepth : Nat := 33
def maxScanResults : UInt32 := 32
def scanEventResult : UInt8 := 1
def scanEventDone : UInt8 := 2

structure ScanMeta where
  kind : UInt8
  capabilities : UInt16
  flags : UInt32
  bssid : List UInt8
  frequencyMhz : Int32
  beaconInterval : UInt16
  quality : Int32
  levelMbm : Int32
  ageMs : UInt32
  ieLen : UInt32
  beaconIeLen : UInt32
  status : Int32

def ScanMeta.zero : ScanMeta := ⟨0, 0, 0, List.replicate 6 0, 0, 0, 0, 0, 0, 0, 0, 0⟩

inductive ScanEntry where
  | result (info : ScanMeta) (ies : List UInt8)
  | done (status : Int32)

structure ScanContent (maxScanIeLen : Nat) where
  info : ScanMeta
  ies : Bytes maxScanIeLen

def saturatingAdd (a b : UInt32) : Nat := min (a.toNat + b.toNat) (2 ^ 32 - 1)

def scanAccepts (maxScanIeLen : Nat) : ScanEntry → Bool
  | .result info ies =>
    !(info.kind != scanEventResult || saturatingAdd info.ieLen info.beaconIeLen != ies.length
      || maxScanIeLen < ies.length)
  | .done _ => true

def ScanEntry.isResult : ScanEntry → Bool
  | .result _ _ => true
  | .done _ => false

def ScanEntry.parts : ScanEntry → ScanMeta × List UInt8
  | .result info ies => (info, ies)
  | .done status => ({ ScanMeta.zero with kind := scanEventDone, status := status }, [])

def scanStores (maxScanIeLen : Nat) (entry : ScanEntry) :
    List (ScanContent maxScanIeLen → ScanContent maxScanIeLen) :=
  (fun now => { now with info := entry.parts.1 }) ::
    (copies 0 entry.parts.2).map fun store now => { now with ies := store now.ies }

/-- The runner tells the two kinds apart, and adds the lengths up without saturation. -/
def scanView {maxScanIeLen : Nat} (content : ScanContent maxScanIeLen) : ScanEntry :=
  if content.info.kind = scanEventResult then
    .result content.info (front (content.info.ieLen + content.info.beaconIeLen).toNat content.ies)
  else .done content.info.status

theorem toNat_add_of_saturatingAdd {a b : UInt32} {len : Nat} (sum : saturatingAdd a b = len)
    (small : len < 2 ^ 32 - 1) : (a + b).toNat = len := by
  unfold saturatingAdd at sum
  rw [UInt32.toNat_add]
  omega

theorem scanView_stores {maxScanIeLen : Nat} (small : maxScanIeLen < 2 ^ 32 - 1) (entry : ScanEntry)
    (content : ScanContent maxScanIeLen) (accepted : scanAccepts maxScanIeLen entry = true) :
    scanView (storeAll (scanStores maxScanIeLen entry) content) = entry := by
  have copied := storeAll_part ScanContent.ies (fun ies now => { now with ies := ies })
    (fun _ => rfl) (fun _ _ => rfl) (fun _ _ _ => rfl) (copies 0 entry.parts.2)
    { content with info := entry.parts.1 }
  have whole : storeAll (scanStores maxScanIeLen entry) content = _ := copied
  rw [whole]
  cases entry with
  | result =>
    simp only [scanAccepts, Bool.not_eq_true', Bool.or_eq_false_iff, bne_eq_false_iff_eq,
      decide_eq_false_iff_not, Nat.not_lt] at accepted
    obtain ⟨⟨kind, sum⟩, fits⟩ := accepted
    have len := toNat_add_of_saturatingAdd sum (by omega)
    have shown := front_copies fits content.ies
    simp [scanView, ScanEntry.parts, kind, len, shown]
  | done =>
    simp [scanView, ScanEntry.parts, scanEventDone, scanEventResult]

/-- How many bytes a scan result may carry, a constant of the supplicant's interface. -/
structure IeLimit where
  maxScanIeLen : Nat
  small : maxScanIeLen < 2 ^ 32 - 1

def scanEventQueue (limit : IeLimit) : Layout where
  Entry := ScanEntry
  Content := ScanContent limit.maxScanIeLen
  blank := ⟨.zero, fun _ => 0⟩
  depth := scanEventQueueDepth
  accepts := scanAccepts limit.maxScanIeLen
  metered := ScanEntry.isResult
  quota := maxScanResults
  stores := scanStores limit.maxScanIeLen
  view := scanView
  law := scanView_stores limit.small

section Link

open LinkEvents (LinkMeta queueDepth maxAssociationIeLen)

structure LinkEntry where
  info : LinkMeta
  first : List UInt8
  second : List UInt8

structure LinkContent where
  info : LinkMeta
  first : Bytes maxAssociationIeLen
  second : Bytes maxAssociationIeLen

def linkAccepts (entry : LinkEntry) : Bool :=
  !(entry.first.length != entry.info.firstLen || entry.second.length != entry.info.secondLen
    || maxAssociationIeLen < entry.first.length || maxAssociationIeLen < entry.second.length)

def linkStores (entry : LinkEntry) : List (LinkContent → LinkContent) :=
  (fun now => { now with info := entry.info }) ::
    ((copies 0 entry.first).map fun store now => { now with first := store now.first }) ++
    (copies 0 entry.second).map fun store now => { now with second := store now.second }

def linkView (content : LinkContent) : LinkEntry :=
  ⟨content.info, front content.info.firstLen content.first,
    front content.info.secondLen content.second⟩

theorem linkView_stores (entry : LinkEntry) (content : LinkContent)
    (accepted : linkAccepts entry = true) : linkView (storeAll (linkStores entry) content) = entry := by
  simp only [linkAccepts, Bool.not_eq_true', Bool.or_eq_false_iff, bne_eq_false_iff_eq,
    decide_eq_false_iff_not, Nat.not_lt] at accepted
  obtain ⟨⟨⟨firstLen, secondLen⟩, firstFits⟩, secondFits⟩ := accepted
  have one := storeAll_part LinkContent.first (fun first now => { now with first := first })
    (fun _ => rfl) (fun _ _ => rfl) (fun _ _ _ => rfl) (copies 0 entry.first)
    { content with info := entry.info }
  have two := storeAll_part LinkContent.second (fun second now => { now with second := second })
    (fun _ => rfl) (fun _ _ => rfl) (fun _ _ _ => rfl) (copies 0 entry.second)
    ⟨entry.info, storeAll (copies 0 entry.first) content.first, content.second⟩
  have whole : storeAll (linkStores entry) content =
      ⟨entry.info, storeAll (copies 0 entry.first) content.first,
        storeAll (copies 0 entry.second) content.second⟩ := by
    refine (storeAll_append _ _ content).trans ?_
    exact (congrArg (storeAll _) one).trans two
  have firstShown := front_copies firstFits content.first
  have secondShown := front_copies secondFits content.second
  rw [whole, linkView]
  rw [← firstLen, ← secondLen, firstShown, secondShown]

/-- The source starts with a kind that is neither of the two; nobody reads a slot that was never
written. -/
def linkEventQueue : Layout where
  Entry := LinkEntry
  Content := LinkContent
  blank := ⟨⟨.associate, 0, 0, List.replicate 6 0, 0, 0⟩, fun _ => 0, fun _ => 0⟩
  depth := queueDepth
  accepts := linkAccepts
  metered := fun _ => false
  quota := 0
  stores := linkStores
  view := linkView
  law := linkView_stores

end Link

def externalAuthQueueDepth : Nat := 2

structure ExternalAuthEvent where
  abiVersion : UInt16
  action : UInt8
  ssidLen : UInt8
  bssid : List UInt8
  status : UInt16
  keyMgmtSuite : UInt32
  pmkidPresent : UInt8
  ssid : List UInt8
  pmkid : List UInt8

/-- `abiVersion` is a constant of the supplicant's interface. -/
def externalAuthQueue (abiVersion : UInt16) : Layout where
  Entry := ExternalAuthEvent
  Content := ExternalAuthEvent
  blank := ⟨abiVersion, 0, 0, List.replicate 6 0, 0, 0, 0, List.replicate 32 0, List.replicate 16 0⟩
  depth := externalAuthQueueDepth
  accepts := fun _ => true
  metered := fun _ => false
  quota := 0
  stores := fun entry => [fun _ => entry]
  view := id
  law := fun _ _ _ => rfl

end HisiRf.EventQueues
