import TsfSync.Kernel.Lookup
import TsfSync.Kernel.Netdev
import TsfSync.ModeC.Wire

/-!
# A cycle of Mode C

One `sync_once` against the module: the read of the snapshots, whatever happens to the net_devices before the write
(`between`), and the write of the adjustments. `IoUringSyncer.adjustments` says which adjustments a state gives rise to,
card by card, and `run_syncOnce` that the cycle applies exactly these to the state at the write.
-/

namespace TsfSync

open LockProg MachineWord Uapi User

/-- The module's device, with steps of others before each write. Both accesses hold `cards_lock` from their first look
at a card to the last, so the notifier's handlers run before or after them. -/
def devTsfSync (between : KProg Unit) : DevTsfSync KProg where
  read := tsfSyncChardevRead .ok
  write := fun buf => do
    between
    tsfSyncChardevWrite .ok buf

/-- The offset that the daemon computes between two cards. -/
def snapDelta (primary card : Card) : Int64 := primary.snapNs - card.snapNs

namespace User.IoUringSyncer

variable (self : IoUringSyncer)

/-- The cards that fit the daemon's buffer. -/
def visible (s : Kernel) : List CardPtr := s.cardsList.ptrs.take maxCards

/-- The adjustment for one visible card, against a given primary. -/
def adjustmentAt (s : Kernel) (primary : CardPtr) : CardPtr × Nat → Option Uapi.TsfAdjustment
  | (c, i) =>
    if i = self.primaryIndex.toNat then none
    else if absW (snapDelta (s.card primary) (s.card c)) > self.thresholdNs then
      some ⟨UInt32.ofNat i, snapDelta (s.card primary) (s.card c)⟩
    else none

/-- The adjustments that the daemon computes from the snapshots of a state. -/
def adjustments (s : Kernel) : List Uapi.TsfAdjustment :=
  match (visible s)[self.primaryIndex.toNat]? with
  | none => []
  | some primary => (visible s).zipIdx.filterMap (self.adjustmentAt s primary)

end User.IoUringSyncer

open IoUringSyncer

/-- The entry with an index is the one at that position. -/
theorem find?_index (p : UInt32) : ∀ (cards : List CardPtr) (i : Nat), i ≤ p.toNat →
    i + cards.length ≤ 2 ^ 32 →
    (cards.zipIdx i).find? (fun x => UInt32.ofNat x.2 == p) = cards[p.toNat - i]?.map fun c => (c, p.toNat)
  | [], _, _, _ => rfl
  | c :: cards, i, hi, hlen => by
    rw [List.length_cons] at hlen
    have hofNat : (UInt32.ofNat i).toNat = i := by
      rw [UInt32.toNat_ofNat']
      exact Nat.mod_eq_of_lt (by omega)
    by_cases h : i = p.toNat
    · subst h; simp
    · have hne : (UInt32.ofNat i == p) = false := by
        rw [beq_eq_false_iff_ne]
        exact fun e => h (by rw [← e, hofNat])
      have hd : p.toNat - i = (p.toNat - (i + 1)) + 1 := by omega
      rw [List.zipIdx_cons, List.find?_cons, hne, find?_index p cards (i + 1) (by omega) (by omega), hd,
        List.getElem?_cons_succ]

/-- The rounds of `sync_once` collect the offsets above the threshold. -/
theorem foldl_consider (self : IoUringSyncer) (primaryTsf : Int64) : ∀ (snaps : List User.TsfSnapshot)
    (acc : SyncStats × List User.TsfAdjustment), (snaps.foldl (self.consider primaryTsf) acc).2 =
      acc.2 ++ snaps.filterMap fun snap =>
        if snap.cardIndex = self.primaryIndex then none
        else if absW (primaryTsf - snap.tsfNs) > self.thresholdNs then some ⟨snap.cardIndex, primaryTsf - snap.tsfNs⟩
        else none
  | [], acc => by simp
  | snap :: snaps, (stats, adjs) => by
    rw [List.foldl_cons, foldl_consider self primaryTsf snaps]
    by_cases hp : snap.cardIndex = self.primaryIndex
    · simp [IoUringSyncer.consider, hp]
    · by_cases ht : absW (primaryTsf - snap.tsfNs) > self.thresholdNs
      · simp [IoUringSyncer.consider, hp, ht]
      · simp [IoUringSyncer.consider, hp, ht]

theorem zipIdx_take {α : Type} (l : List α) (n : Nat) : (l.take n).zipIdx = l.zipIdx.take n := by
  refine List.ext_getElem? fun i => ?_
  rw [List.getElem?_zipIdx, List.getElem?_take, List.getElem?_take, List.getElem?_zipIdx]
  split <;> rfl

/-- What the daemon reads. -/
theorem snapshots_take (s : Kernel) : ((snapshots s).take maxCards).map Uapi.TsfSnapshot.toUser =
    (visible s).zipIdx.map fun x => (snapshotOf s x.2 x.1).toUser := by
  rw [snapshots, visible, zipIdx_take, List.mapIdx_eq_zipIdx_map, ← List.map_take, List.map_map]
  rfl

section Cycle

variable (self : IoUringSyncer) (between : KProg Unit) (s : Kernel)

theorem length_visible_le : (visible s).length ≤ maxCards := List.length_take_le _ _

/-- The daemon finds the snapshot of its primary at the position of the primary index. -/
theorem find?_primary : ((visible s).zipIdx.map fun x => (snapshotOf s x.2 x.1).toUser).find?
      (·.cardIndex == self.primaryIndex) =
    (visible s)[self.primaryIndex.toNat]?.map fun c => (snapshotOf s self.primaryIndex.toNat c).toUser := by
  have hlen : (visible s).length ≤ 2 ^ 32 := (length_visible_le s).trans (by decide)
  have hfind := find?_index self.primaryIndex (visible s) 0 (Nat.zero_le _) (by omega)
  rw [List.find?_map]
  refine (congrArg (Option.map _) hfind).trans ?_
  rw [Option.map_map, Nat.sub_zero]
  rfl

/-- The adjustments that the daemon computes from what it read are those of the state. -/
theorem map_toKernel_foldl {primary : CardPtr} (hp : (visible s)[self.primaryIndex.toNat]? = some primary)
    (stats : SyncStats) :
    ((((visible s).zipIdx.map fun x => (snapshotOf s x.2 x.1).toUser).foldl
      (self.consider (s.card primary).snapNs) (stats, [])).2).map User.TsfAdjustment.toKernel = self.adjustments s := by
  rw [foldl_consider, List.nil_append, adjustments, hp, List.filterMap_map, List.map_filterMap]
  refine List.filterMap_congr fun x hx => ?_
  have hi : x.2 < 2 ^ 32 := by
    have := (List.mem_zipIdx' hx).1
    have hlen := length_visible_le s
    have : maxCards < 2 ^ 32 := by decide
    omega
  have hidx : UInt32.ofNat x.2 = self.primaryIndex ↔ x.2 = self.primaryIndex.toNat := by
    rw [← UInt32.toNat_inj, UInt32.toNat_ofNat', Nat.mod_eq_of_lt hi]
  simp only [Function.comp_apply, Uapi.TsfSnapshot.toUser, snapshotOf, adjustmentAt, hidx, snapDelta]
  by_cases hx : x.2 = self.primaryIndex.toNat
  · simp [hx]
  · by_cases ht : absW ((s.card primary).snapNs - (s.card x.1).snapNs) > self.thresholdNs <;>
      simp [hx, ht, User.TsfAdjustment.toKernel]

/-- Reading the snapshots of the visible cards. -/
theorem run_readSnapshots : (readSnapshots (devTsfSync between)).run s =
    (.ok ((visible s).zipIdx.map fun x => (snapshotOf s x.2 x.1).toUser), s.cardsList.ptrs.foldl peeked s) := by
  have hread : decodeSnapshots (((snapshots s).flatMap Uapi.TsfSnapshot.bytes).take (snapshotSize * maxCards)) =
      (visible s).zipIdx.map fun x => (snapshotOf s x.2 x.1).toUser :=
    (decodeSnapshots_take _ _).trans (snapshots_take s)
  simp only [readSnapshots, devTsfSync, Prog.run_bind, run_chardevRead, Prog.run_pure, hread]

/-- Writing adjustments applies them to the state the write finds. -/
theorem run_writeAdjustments (adjs : List User.TsfAdjustment) :
    ((writeAdjustments (devTsfSync between) adjs).run s).2 =
      (adjs.map User.TsfAdjustment.toKernel).foldl (adjustedAt findByIndex (between.run s).2.adjtimeThresholdNs)
        (between.run s).2 := by
  have hwrite := run_chardevWrite (between.run s).2 findByIndex (adjs.flatMap User.TsfAdjustment.bytes)
  rw [decodeAdjustments_flatMap] at hwrite
  rw [← hwrite]
  simp only [writeAdjustments, devTsfSync, Prog.run_bind, tsfSyncChardevWrite]
  split <;> rfl

/-- The end of a cycle: no write without adjustments. -/
theorem run_finish (acc : SyncStats × List User.TsfAdjustment) :
    ((if acc.2.isEmpty then (pure (.ok acc.1) : KProg (Except Errno SyncStats))
      else do
        match ← writeAdjustments (devTsfSync between) acc.2 with
        | .error e => pure (.error e)
        | .ok () => pure (.ok acc.1)).run s).2 =
      if acc.2.map User.TsfAdjustment.toKernel = [] then s
      else (acc.2.map User.TsfAdjustment.toKernel).foldl
        (adjustedAt findByIndex (between.run s).2.adjtimeThresholdNs) (between.run s).2 := by
  obtain ⟨stats, adjs⟩ := acc
  cases adjs with
  | nil => rfl
  | cons a adjs =>
    simp only [List.isEmpty_cons, Bool.false_eq_true, if_false, Prog.run_bind, List.map_cons, reduceCtorEq]
    refine Eq.trans ?_ (run_writeAdjustments between s (a :: adjs))
    split <;> rfl

/-- **One cycle of Mode C** applies the adjustments of the state at the read to the state at the write. -/
theorem run_syncOnce : ((self.syncOnce (devTsfSync between)).run s).2 =
    let s₁ := s.cardsList.ptrs.foldl peeked s
    if self.adjustments s = [] then s₁
    else (self.adjustments s).foldl (adjustedAt findByIndex (between.run s₁).2.adjtimeThresholdNs)
      (between.run s₁).2 := by
  have hfind := find?_primary self s
  unfold IoUringSyncer.syncOnce
  rw [Prog.run_bind, run_readSnapshots]
  by_cases hempty : ((visible s).zipIdx.map fun x => (snapshotOf s x.2 x.1).toUser).isEmpty
  · have hv : visible s = [] := by simpa using hempty
    simp [adjustments, hv]
  · dsimp only
    rw [if_neg hempty, hfind]
    cases hp : (visible s)[self.primaryIndex.toNat]? with
    | none => simp [adjustments, hp]
    | some primary =>
      rw [← map_toKernel_foldl self s hp]
      exact run_finish between _ _

end Cycle

end TsfSync
