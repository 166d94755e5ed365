import TsfSync.Lib.Bytes

/-!
# The records of `/dev/tsf_sync`, as the daemon lays them out

The packed structs `TsfSnapshot` and `TsfAdjustment` of `src/sync_mode.rs`, written apart from those of the kernel: how
the daemon reads a snapshot out of a buffer (`TsfSnapshot.ofBytes`) and puts an adjustment into one
(`TsfAdjustment.bytes`).
-/

namespace TsfSync.User

open ByteCodec

/-- `TsfSnapshot`, `repr(C, packed)`. -/
structure TsfSnapshot where
  cardIndex : UInt32
  phyNameLen : UInt32
  phyName : Fin 32 → UInt8
  tsfNs : Int64
  monoNs : Int64

/-- `TsfAdjustment`, `repr(C, packed)`. -/
structure TsfAdjustment where
  cardIndex : UInt32
  deltaNs : Int64
  deriving DecidableEq, Repr

/-- `size_of::<TsfSnapshot>()`. -/
def snapshotSize : Nat := 56

/-- `size_of::<TsfAdjustment>()`. -/
def adjustmentSize : Nat := 12

/-- `read_unaligned` of a snapshot. -/
def TsfSnapshot.ofBytes (bs : List UInt8) : TsfSnapshot where
  cardIndex := UInt32.ofNat (decodeLE (bs.take 4))
  phyNameLen := UInt32.ofNat (decodeLE ((bs.drop 4).take 4))
  phyName := fun i => (bs.drop 8).getD i 0
  tsfNs := (UInt64.ofNat (decodeLE ((bs.drop 40).take 8))).toInt64
  monoNs := (UInt64.ofNat (decodeLE ((bs.drop 48).take 8))).toInt64

/-- `transmute_copy` of an adjustment. -/
def TsfAdjustment.bytes (a : TsfAdjustment) : List UInt8 :=
  encodeLE 4 a.cardIndex.toNat ++ encodeLE 8 a.deltaNs.toUInt64.toNat

theorem TsfAdjustment.length_bytes (a : TsfAdjustment) : a.bytes.length = adjustmentSize := by
  simp [TsfAdjustment.bytes, adjustmentSize]

end TsfSync.User
