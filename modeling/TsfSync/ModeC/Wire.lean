import TsfSync.Kernel.Spec
import TsfSync.User.IoUring

/-!
# Both ends of `/dev/tsf_sync` read the records alike

The kernel and the daemon declare the packed records separately. A snapshot that the kernel lays out is read back by the
daemon field by field (`ofBytes_bytes`), an adjustment that the daemon lays out by the kernel (`ofBytes_adjustment`), and
so are whole buffers of them (`decodeSnapshots_take`, `decodeAdjustments_flatMap`).
-/

namespace TsfSync

open ByteCodec MachineWord

/-- A snapshot as the daemon sees it. -/
def Uapi.TsfSnapshot.toUser (s : Uapi.TsfSnapshot) : User.TsfSnapshot where
  cardIndex := s.cardIndex
  phyNameLen := s.phyNameLen
  phyName := s.phyName
  tsfNs := s.tsfNs
  monoNs := s.monoNs

/-- An adjustment as the kernel sees it. -/
def User.TsfAdjustment.toKernel (a : User.TsfAdjustment) : Uapi.TsfAdjustment := ⟨a.cardIndex, a.deltaNs⟩

theorem ofNat_decodeLE_encodeLE_32 (x : UInt32) : UInt32.ofNat (decodeLE (encodeLE 4 x.toNat)) = x := by
  rw [decodeLE_encodeLE (by simpa using x.toNat_lt), UInt32.ofNat_toNat]

theorem ofNat_decodeLE_encodeLE_64 (x : Int64) :
    (UInt64.ofNat (decodeLE (encodeLE 8 x.toUInt64.toNat))).toInt64 = x := by
  rw [decodeLE_encodeLE (by simpa using x.toUInt64.toNat_lt), UInt64.ofNat_toNat, Int64.toInt64_toUInt64]

/-- The daemon reads back the snapshot that the kernel laid out. -/
theorem ofBytes_bytes (s : Uapi.TsfSnapshot) : User.TsfSnapshot.ofBytes s.bytes = s.toUser := by
  let idx := encodeLE 4 s.cardIndex.toNat
  let len := encodeLE 4 s.phyNameLen.toNat
  let name := List.ofFn s.phyName
  let tsf := encodeLE 8 s.tsfNs.toUInt64.toNat
  let mono := encodeLE 8 s.monoNs.toUInt64.toNat
  have hb : s.bytes = idx ++ len ++ name ++ tsf ++ mono := rfl
  have hidx : (s.bytes.drop 0).take 4 = idx :=
    take_drop_append (a := []) (b := idx) (c := len ++ name ++ tsf ++ mono) (by simp [hb]) rfl (length_encodeLE ..)
  have hlen : (s.bytes.drop 4).take 4 = len :=
    take_drop_append (a := idx) (b := len) (c := name ++ tsf ++ mono) (by simp only [hb, List.append_assoc])
      (length_encodeLE ..) (length_encodeLE ..)
  have hname : (s.bytes.drop 8).take 32 = name :=
    take_drop_append (a := idx ++ len) (b := name) (c := tsf ++ mono) (by simp only [hb, List.append_assoc])
      (by simp [idx, len]) List.length_ofFn
  have htsf : (s.bytes.drop 40).take 8 = tsf :=
    take_drop_append (a := idx ++ len ++ name) (b := tsf) (c := mono) (by simp only [hb, List.append_assoc])
      (by simp only [idx, len, name, List.length_append, length_encodeLE, List.length_ofFn]) (length_encodeLE ..)
  have hmono : (s.bytes.drop 48).take 8 = mono :=
    take_drop_append (a := idx ++ len ++ name ++ tsf) (b := mono) (c := []) (by simp only [hb, List.append_nil])
      (by simp only [idx, len, name, tsf, List.length_append, length_encodeLE, List.length_ofFn]) (length_encodeLE ..)
  have hphy : ∀ i : Fin 32, (s.bytes.drop 8).getD i 0 = s.phyName i := fun i => by
    have hi : ((s.bytes.drop 8).take 32)[i.val]? = some (s.phyName i) := by
      rw [hname, List.getElem?_ofFn, dif_pos i.isLt]
    rw [List.getElem?_take, if_pos i.isLt] at hi
    rw [List.getD_eq_getElem?_getD, hi, Option.getD_some]
  rw [List.drop_zero] at hidx
  simp only [User.TsfSnapshot.ofBytes, Uapi.TsfSnapshot.toUser, hidx, hlen, htsf, hmono, hphy]
  simp only [idx, len, tsf, mono, ofNat_decodeLE_encodeLE_32, ofNat_decodeLE_encodeLE_64]

/-- The kernel reads back the adjustment that the daemon laid out. -/
theorem ofBytes_adjustment (a : User.TsfAdjustment) : Uapi.TsfAdjustment.ofBytes a.bytes = a.toKernel := by
  have hidx : a.bytes.take 4 = encodeLE 4 a.cardIndex.toNat := List.take_left' (length_encodeLE ..)
  have hdelta : (a.bytes.drop 4).take 8 = encodeLE 8 a.deltaNs.toUInt64.toNat :=
    take_drop_append (a := encodeLE 4 a.cardIndex.toNat) (c := []) (by simp [User.TsfAdjustment.bytes])
      (length_encodeLE ..) (length_encodeLE ..)
  simp only [Uapi.TsfAdjustment.ofBytes, User.TsfAdjustment.toKernel, hidx, hdelta, ofNat_decodeLE_encodeLE_32,
    ofNat_decodeLE_encodeLE_64]

/-- A buffer of any size holds the snapshots of the first cards. -/
theorem decodeSnapshots_take (snaps : List Uapi.TsfSnapshot) (count : Nat) :
    User.decodeSnapshots ((snaps.flatMap Uapi.TsfSnapshot.bytes).take count) =
      (snaps.take (count / User.snapshotSize)).map Uapi.TsfSnapshot.toUser := by
  have hlen : ∀ s : Uapi.TsfSnapshot, s.bytes.length = User.snapshotSize := Uapi.TsfSnapshot.length_bytes
  rw [User.decodeSnapshots, records_take_flatMap hlen (by decide), List.map_map]
  exact List.map_congr_left fun s _ => ofBytes_bytes s

/-- The kernel's buffer holds the adjustments that the daemon wrote. -/
theorem decodeAdjustments_flatMap (adjs : List User.TsfAdjustment) :
    Uapi.decodeAdjustments (adjs.flatMap User.TsfAdjustment.bytes) = adjs.map User.TsfAdjustment.toKernel := by
  have hlen : ∀ a : User.TsfAdjustment, a.bytes.length = Uapi.adjSize := User.TsfAdjustment.length_bytes
  rw [Uapi.decodeAdjustments, length_flatMap_const hlen, Nat.mul_div_cancel _ (by decide : 0 < Uapi.adjSize)]
  have hrec := records_flatMap hlen adjs []
  rw [List.append_nil] at hrec
  rw [hrec, List.map_map]
  exact List.map_congr_left fun a _ => ofBytes_adjustment a

end TsfSync
