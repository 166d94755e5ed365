import TsfSync.Lib.Bytes
import TsfSync.Kernel.State

/-!
# The records of `/dev/tsf_sync`, as the kernel lays them out

`struct tsf_snapshot` and `struct tsf_adjustment` of `kernel/tsf_ptp_uapi.h`, packed and little-endian: the bytes that
a read copies out (`TsfSnapshot.bytes`) and the adjustments that a write finds in a buffer (`decodeAdjustments`).
-/

namespace TsfSync.Uapi

open TsfSync ByteCodec

/-- `struct tsf_snapshot`. -/
structure TsfSnapshot where
  cardIndex : UInt32
  phyNameLen : UInt32
  phyName : Fin 32 → UInt8
  tsfNs : Int64
  monoNs : Int64

/-- `struct tsf_adjustment`. -/
structure TsfAdjustment where
  cardIndex : UInt32
  deltaNs : Int64
  deriving DecidableEq, Repr

/-- `sizeof(struct tsf_snapshot)`. -/
def snapSize : Nat := 56

/-- `sizeof(struct tsf_adjustment)`. -/
def adjSize : Nat := 12

/-- A snapshot in memory. -/
def TsfSnapshot.bytes (s : TsfSnapshot) : List UInt8 :=
  encodeLE 4 s.cardIndex.toNat ++ encodeLE 4 s.phyNameLen.toNat ++ List.ofFn s.phyName ++
    encodeLE 8 s.tsfNs.toUInt64.toNat ++ encodeLE 8 s.monoNs.toUInt64.toNat

/-- The adjustment that twelve bytes in memory hold. -/
def TsfAdjustment.ofBytes (bs : List UInt8) : TsfAdjustment where
  cardIndex := UInt32.ofNat (decodeLE (bs.take 4))
  deltaNs := (UInt64.ofNat (decodeLE ((bs.drop 4).take 8))).toInt64

/-- The whole adjustments at the front of a buffer. -/
def decodeAdjustments (buf : List UInt8) : List TsfAdjustment :=
  (records adjSize (buf.length / adjSize) buf).map .ofBytes

theorem TsfSnapshot.length_bytes (s : TsfSnapshot) : s.bytes.length = snapSize := by
  simp [TsfSnapshot.bytes, snapSize]

/-- `memcpy` of a name into a zeroed `phy_name[32]`. -/
def padName (name : CStr 32) : Fin 32 → UInt8 := fun i => name.bytes.getD i 0

end TsfSync.Uapi
