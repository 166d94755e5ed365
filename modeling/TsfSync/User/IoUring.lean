import Mathlib.Data.List.DropRight
import TsfSync.Kernel.State
import TsfSync.User.SyncMode

/-!
# Mode C in the daemon: `IoUringSyncer`

`IoUringSyncer::sync_once` reads the snapshots of all cards in one read of `/dev/tsf_sync`, takes the entry with the
index of the primary as reference, and writes the offsets of the other entries that exceed the threshold in one write;
`find_primary_index` looks the index up by phy name once, when the daemon starts. The device is an argument
(`DevTsfSync`). Integers wrap, as in a release build.
-/

namespace TsfSync.User

open TsfSync MachineWord ByteCodec

/-- `/dev/tsf_sync`: a read of at most so many bytes, and a write. -/
structure DevTsfSync (m : Type → Type) where
  read : Nat → m (Except Errno (List UInt8))
  write : List UInt8 → m (Except Errno Nat)

/-- `MAX_CARDS`. -/
def maxCards : Nat := 128

/-- `SyncStats`. -/
structure SyncStats where
  cardsRead : UInt32
  adjustmentsApplied : UInt32
  adjustmentsSkipped : UInt32
  maxOffsetNs : Int64
  deriving DecidableEq, Repr

/-- `SyncStats::default`. -/
def SyncStats.default : SyncStats := ⟨0, 0, 0, 0⟩

/-- `IoUringSyncer`. -/
structure IoUringSyncer where
  primaryIndex : UInt32
  thresholdNs : Int64
  deriving DecidableEq, Repr

/-- The whole snapshots at the front of a buffer. -/
def decodeSnapshots (buf : List UInt8) : List TsfSnapshot :=
  (records snapshotSize (buf.length / snapshotSize) buf).map .ofBytes

section

variable {m : Type → Type} [Monad m] (dev : DevTsfSync m)

/-- `IoUringSyncer::read_snapshots`. -/
def readSnapshots : m (Except Errno (List TsfSnapshot)) := do
  match ← dev.read (snapshotSize * maxCards) with
  | .error e => return .error e
  | .ok buf => return .ok (decodeSnapshots buf)

/-- `IoUringSyncer::write_adjustments`. -/
def writeAdjustments (adjustments : List TsfAdjustment) : m (Except Errno Unit) := do
  match ← dev.write (adjustments.flatMap TsfAdjustment.bytes) with
  | .error e => return .error e
  | .ok _ => return .ok ()

namespace IoUringSyncer

variable (self : IoUringSyncer)

/-- One round of the loop of `sync_once`. -/
def consider (primaryTsf : Int64) : SyncStats × List TsfAdjustment → TsfSnapshot → SyncStats × List TsfAdjustment
  | (stats, adjustments), snap =>
    if snap.cardIndex = self.primaryIndex then (stats, adjustments)
    else
      let delta := primaryTsf - snap.tsfNs
      let absDelta := absW delta
      let stats := if absDelta > stats.maxOffsetNs then { stats with maxOffsetNs := absDelta } else stats
      if absDelta > self.thresholdNs then
        ({ stats with adjustmentsApplied := stats.adjustmentsApplied + 1 }, adjustments ++ [⟨snap.cardIndex, delta⟩])
      else
        ({ stats with adjustmentsSkipped := stats.adjustmentsSkipped + 1 }, adjustments)

/-- `IoUringSyncer::sync_once`. -/
def syncOnce : m (Except Errno SyncStats) := do
  match ← readSnapshots dev with
  | .error e => return .error e
  | .ok snapshots =>
    let stats := { SyncStats.default with cardsRead := UInt32.ofNat snapshots.length }
    if snapshots.isEmpty then
      return .ok stats
    match snapshots.find? (·.cardIndex == self.primaryIndex) with
    | none => return .ok stats
    | some primary =>
      let (stats, adjustments) := snapshots.foldl (self.consider primary.tsfNs) (stats, [])
      if adjustments.isEmpty then
        return .ok stats
      match ← writeAdjustments dev adjustments with
      | .error e => return .error e
      | .ok () => return .ok stats

end IoUringSyncer

/-- The name in a snapshot: `from_utf8(&phy_name[..name_len.min(32)]).unwrap_or("").trim_end_matches('\0')`. -/
def TsfSnapshot.name (snap : TsfSnapshot) : List UInt8 :=
  let bytes := (List.ofFn snap.phyName).take (min snap.phyNameLen.toNat 32)
  if ByteArray.validateUTF8 ⟨bytes.toArray⟩ then bytes.rdropWhile (· == 0) else []

/-- What `find_primary_index` fails with. -/
inductive FindError
  | io (e : Errno)
  | notFound
  deriving DecidableEq, Repr

/-- `find_primary_index`. -/
def findPrimaryIndex (primaryPhy : List UInt8) : m (Except FindError UInt32) := do
  match ← readSnapshots dev with
  | .error e => return .error (.io e)
  | .ok snapshots =>
    match snapshots.find? (·.name == primaryPhy) with
    | some snap => return .ok snap.cardIndex
    | none => return .error .notFound

end

end TsfSync.User
