import TsfSync.Kernel.Uapi

/-!
# Mode C: the char device `/dev/tsf_sync`

`tsf_sync_chardev_read` takes a snapshot of every card, `tsf_sync_chardev_write` applies adjustments that name their
card by its position in `cards_list`. The position is found by a walk with a counter of its own; a walk that runs off
the end leaves its cursor on the list head (`CardPtr.head`).
-/

namespace TsfSync

open LockProg MachineWord Uapi

/-- What the allocator and the copies to and from userspace answer. -/
structure UserMem where
  alloc : Bool
  copy : Bool

/-- Memory is available and the user's buffer is mapped. -/
def UserMem.ok : UserMem := ⟨true, true⟩

/-- The snapshot of the card at position `i`. A card without a VIF is reported with `tsf_ns = 0` and `mono_ns = 0`. -/
def takeSnapshot (i : Nat) (card : CardPtr) : KProg TsfSnapshot := do
  let k ← readCard card
  mutexLock (.card card)
  let vif := (← readCard card).vif
  match vif with
  | some vif =>
    mutexLock (.wiphy k.hw.wiphy)
    let tsf ← tsfPtpCallGetTsf card vif
    mutexUnlock (.wiphy k.hw.wiphy)
    let monoNs ← Prog.read (·.ktimeNs)
    mutexUnlock (.card card)
    return { cardIndex := UInt32.ofNat i, phyNameLen := UInt32.ofNat k.phyName.bytes.length,
             phyName := padName k.phyName, tsfNs := tsfToNs tsf, monoNs := monoNs }
  | none =>
    mutexUnlock (.card card)
    return { cardIndex := UInt32.ofNat i, phyNameLen := UInt32.ofNat k.phyName.bytes.length,
             phyName := padName k.phyName, tsfNs := 0, monoNs := 0 }

/-- The walk of `tsf_sync_chardev_read`, with `num_cards` counted before. -/
def snapshotLoop (numCards : Nat) : Nat → List CardPtr → KProg (List TsfSnapshot)
  | _, [] => return []
  | i, card :: cards => do
    if i ≥ numCards then
      return []
    let snap ← takeSnapshot i card
    let snaps ← snapshotLoop numCards (i + 1) cards
    return snap :: snaps

/-- `tsf_sync_chardev_read` into a buffer of `count` bytes: the bytes it copies out. -/
def tsfSyncChardevRead (mem : UserMem) (count : Nat) : KProg (Except Errno (List UInt8)) := do
  mutexLock .cards
  let cards ← listEntries
  let numCards := cards.length
  if numCards = 0 then
    mutexUnlock .cards
    return .ok []
  if !mem.alloc then
    mutexUnlock .cards
    return .error .ENOMEM
  let snaps ← snapshotLoop numCards 0 cards
  mutexUnlock .cards
  if !mem.copy then
    return .error .EFAULT
  return .ok ((snaps.flatMap TsfSnapshot.bytes).take (min count (snaps.length * snapSize)))

/-- The search of `tsf_sync_chardev_write` for a position: where the cursor and the counter `idx` stand when the walk
ends. `idx` is an `int` that wraps and is compared as `u32`. -/
def walkToIndex (cardIndex : UInt32) : UInt32 → List CardPtr → CardPtr × UInt32
  | idx, [] => (.head, idx)
  | idx, card :: cards => if idx = cardIndex then (card, idx) else walkToIndex cardIndex (idx + 1) cards

/-- The entry that the search goes on with: `if (idx != adjs[i].card_index) continue;` follows the walk. -/
def findByIndex (cards : List CardPtr) (cardIndex : UInt32) : Option CardPtr :=
  let (card, idx) := walkToIndex cardIndex 0 cards
  if idx ≠ cardIndex then none else some card

/-- Read-modify-write of one card's TSF. -/
def adjustCard (card : CardPtr) (deltaNs : Int64) : KProg Unit := do
  mutexLock (.card card)
  let k ← readCard card
  match k.vif with
  | none => mutexUnlock (.card card)
  | some vif =>
    mutexLock (.wiphy k.hw.wiphy)
    let tsf ← tsfPtpCallGetTsf card vif
    tsfPtpCallSetTsf card vif (addDeltaNs tsf deltaNs)
    mutexUnlock (.wiphy k.hw.wiphy)
    mutexUnlock (.card card)
    incApplyCount

/-- One round of `tsf_sync_chardev_write`, with the search for the card as an argument. -/
def applyAdjustment (find : List CardPtr → UInt32 → Option CardPtr) (threshold : UInt32) (adj : TsfAdjustment) :
    KProg Unit := do
  if belowThreshold threshold adj.deltaNs then
    incSkipCount
    return
  let cards ← listEntries
  match find cards adj.cardIndex with
  | none => return
  | some card => adjustCard card adj.deltaNs

/-- `tsf_sync_chardev_write` of a buffer, with the search for a card as an argument. -/
def chardevWrite (find : List CardPtr → UInt32 → Option CardPtr) (mem : UserMem) (buf : List UInt8) :
    KProg (Except Errno Nat) := do
  let threshold ← Prog.read (·.adjtimeThresholdNs)
  if buf.length = 0 then
    return .ok 0
  let numAdjs := buf.length / adjSize
  if numAdjs = 0 then
    return .error .EINVAL
  if !mem.alloc then
    return .error .ENOMEM
  if !mem.copy then
    return .error .EFAULT
  mutexLock .cards
  forM (decodeAdjustments buf) (applyAdjustment find threshold)
  mutexUnlock .cards
  return .ok (numAdjs * adjSize)

/-- `tsf_sync_chardev_write`. -/
def tsfSyncChardevWrite : UserMem → List UInt8 → KProg (Except Errno Nat) := chardevWrite findByIndex

end TsfSync
