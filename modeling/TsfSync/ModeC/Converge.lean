import TsfSync.Kernel.Nanoseconds
import TsfSync.ModeC.Effect

/-!
# A cycle of Mode C from end to end

From a state where all cards have a VIF and a settable TSF that fits signed nanoseconds (`Steady`), one cycle puts every
card that is off by more than the daemon's threshold and at least the kernel's on the primary's TSF and leaves the
others alone (`Steady.tsf_syncOnce`). The statistics count every card once and report the largest offset
(`result_syncOnce`), no `i64` operation overflows (`Steady.noOverflow`), and a second cycle changes nothing
(`mode_c_cycle`).
-/

namespace TsfSync

open LockProg MachineWord Uapi User User.IoUringSyncer

/-- The distance of a card from the primary, in nanoseconds. -/
def offBy (s : Kernel) (primary c : CardPtr) : Int :=
  1000 * |((s.card primary).hw.tsf.toNat : Int) - (s.card c).hw.tsf.toNat|

theorem offBy_nonneg (s : Kernel) (primary c : CardPtr) : 0 ≤ offBy s primary c :=
  mul_nonneg (by decide) (abs_nonneg _)

/-- At most 128 cards, all with a VIF, both TSF ops and a TSF that fits, the primary among them, and a threshold of the
daemon that is not negative. -/
structure Steady (syncer : IoUringSyncer) (s : Kernel) (primary : CardPtr) : Prop where
  few : s.cardsList.ptrs.length ≤ maxCards
  listed : s.cardsList.ptrs[syncer.primaryIndex.toNat]? = some primary
  vif : ∀ c ∈ s.cardsList.ptrs, (s.card c).vif.isSome = true
  ops : ∀ c ∈ s.cardsList.ptrs, (s.card c).hw.ops = ⟨true, true⟩
  fits : ∀ c ∈ s.cardsList.ptrs, FitsNs (s.card c).hw.tsf
  threshold : 0 ≤ syncer.thresholdNs.toInt

/-! ## The TSFs after a cycle -/

section Cycle

variable {self : IoUringSyncer} {s : Kernel} {primary c : CardPtr} {i : Nat}

/-- A cycle of Mode C without events, seen from one visible card. -/
theorem card_syncOnce (hp : (visible s)[self.primaryIndex.toNat]? = some primary) (hc : (visible s)[i]? = some c) :
    (((self.syncOnce (devTsfSync (pure ()))).run s).2.card c) =
      match self.adjustmentAt s primary (c, i) with
      | none => s.card c
      | some adj => (s.card c).adjust s.adjtimeThresholdNs adj.deltaNs := by
  have hfilter := adjustments_filter hp hc
  rw [run_syncOnce]
  dsimp only [Prog.run_pure]
  by_cases he : self.adjustments s = []
  · rw [if_pos he, foldl_peeked_card]
    rw [he] at hfilter
    cases ha : self.adjustmentAt s primary (c, i) with
    | none => rfl
    | some adj => rw [ha] at hfilter; cases hfilter
  · rw [if_neg he, card_foldl_adjustedAt, foldl_peeked_cardsList, foldl_peeked_card, foldl_peeked_threshold, hfilter]
    cases self.adjustmentAt s primary (c, i) <;> rfl

namespace Steady

theorem primary_mem (h : Steady self s primary) : primary ∈ s.cardsList.ptrs := List.mem_of_getElem? h.listed

theorem visible_eq (h : Steady self s primary) : visible s = s.cardsList.ptrs := List.take_of_length_le h.few

theorem visible_primary (h : Steady self s primary) : (visible s)[self.primaryIndex.toNat]? = some primary :=
  h.visible_eq ▸ h.listed

theorem readTsf (h : Steady self s primary) (hc : c ∈ s.cardsList.ptrs) : (s.card c).readTsf = (s.card c).hw.tsf := by
  simp [Card.readTsf, h.ops c hc]

theorem snapNs (h : Steady self s primary) (hc : c ∈ s.cardsList.ptrs) :
    (s.card c).snapNs = tsfToNs (s.card c).hw.tsf := by
  rw [Card.snapNs, h.vif c hc, h.readTsf hc]
  rfl

theorem snapDelta (h : Steady self s primary) (hc : c ∈ s.cardsList.ptrs) :
    snapDelta (s.card primary) (s.card c) = offsetNs (s.card primary).hw.tsf (s.card c).hw.tsf := by
  rw [TsfSync.snapDelta, h.snapNs hc, h.snapNs h.primary_mem]
  exact tsfToNs_sub (h.fits primary h.primary_mem) (h.fits c hc)

theorem toInt_absW (h : Steady self s primary) (hc : c ∈ s.cardsList.ptrs) :
    (absW (offsetNs (s.card primary).hw.tsf (s.card c).hw.tsf)).toInt = offBy s primary c :=
  toInt_absW_offsetNs (h.fits primary h.primary_mem) (h.fits c hc)

/-- What a cycle leaves in a card. -/
theorem tsf_syncOnce (h : Steady self s primary) (hc : c ∈ s.cardsList.ptrs) (hne : c ≠ primary) :
    (((self.syncOnce (devTsfSync (pure ()))).run s).2.card c).hw.tsf =
      if self.thresholdNs.toInt < offBy s primary c ∧ (s.adjtimeThresholdNs.toNat : Int) ≤ offBy s primary c then
        (s.card primary).hw.tsf
      else (s.card c).hw.tsf := by
  obtain ⟨i, hi⟩ := List.getElem?_of_mem hc
  have hi' : (visible s)[i]? = some c := h.visible_eq ▸ hi
  have hidx : i ≠ self.primaryIndex.toNat := fun e => hne (by rw [e, h.listed] at hi; exact (Option.some.inj hi).symm)
  have habove : absW (offsetNs (s.card primary).hw.tsf (s.card c).hw.tsf) > self.thresholdNs ↔
      self.thresholdNs.toInt < offBy s primary c := by
    rw [gt_iff_lt, Int64.lt_iff_toInt_lt, h.toInt_absW hc]
  have hbelow : belowThreshold s.adjtimeThresholdNs (offsetNs (s.card primary).hw.tsf (s.card c).hw.tsf) = true ↔
      offBy s primary c < s.adjtimeThresholdNs.toNat := by
    have hpos := offBy_nonneg s primary c
    rw [belowThreshold, Bool.and_eq_true, decide_eq_true_eq, decide_eq_true_eq, Int64.lt_iff_toInt_lt, toInt_ofU32,
      h.toInt_absW hc, UInt32.lt_iff_toNat_lt, UInt32.toNat_zero]
    omega
  rw [card_syncOnce h.visible_primary hi', adjustmentAt, if_neg hidx, h.snapDelta hc]
  by_cases ht : self.thresholdNs.toInt < offBy s primary c
  · rw [if_pos (habove.mpr ht)]
    by_cases hb : offBy s primary c < s.adjtimeThresholdNs.toNat
    · rw [if_neg (fun hand => by omega)]
      simp only [Card.adjust, hbelow.mpr hb, if_true]
    · have hpass : belowThreshold s.adjtimeThresholdNs (offsetNs (s.card primary).hw.tsf (s.card c).hw.tsf) = false :=
        Bool.eq_false_iff.mpr fun hbt => hb (hbelow.mp hbt)
      rw [if_pos ⟨ht, by omega⟩]
      simp only [Card.adjust, hpass, h.vif c hc, h.ops c hc, Bool.false_eq_true, if_false, Bool.and_self, if_true,
        h.readTsf hc]
      exact addDeltaNs_offsetNs (h.fits primary h.primary_mem) (h.fits c hc)
  · rw [if_neg (fun hgt => ht (habove.mp hgt)), if_neg (fun hand => ht hand.1)]

/-- The primary keeps its TSF. -/
theorem card_primary (h : Steady self s primary) :
    ((self.syncOnce (devTsfSync (pure ()))).run s).2.card primary = s.card primary := by
  rw [card_syncOnce h.visible_primary h.visible_primary, adjustmentAt, if_pos rfl]

end Steady

end Cycle

/-! ## The statistics of a cycle -/

section Stats

variable {self : IoUringSyncer} {primaryTsf : Int64}

/-- The snapshots of secondaries. -/
def User.IoUringSyncer.others (self : IoUringSyncer) (snaps : List User.TsfSnapshot) : List User.TsfSnapshot :=
  snaps.filter fun snap => snap.cardIndex ≠ self.primaryIndex

/-- The statistics after the round of a secondary. -/
theorem consider_stats {snap : User.TsfSnapshot} (hp : snap.cardIndex ≠ self.primaryIndex)
    (acc : SyncStats × List User.TsfAdjustment) :
    let offset := absW (primaryTsf - snap.tsfNs)
    (self.consider primaryTsf acc snap).1 =
      { cardsRead := acc.1.cardsRead
        adjustmentsApplied := acc.1.adjustmentsApplied + if offset > self.thresholdNs then 1 else 0
        adjustmentsSkipped := acc.1.adjustmentsSkipped + if offset > self.thresholdNs then 0 else 1
        maxOffsetNs := if offset > acc.1.maxOffsetNs then offset else acc.1.maxOffsetNs } := by
  obtain ⟨stats, adjs⟩ := acc
  simp only [IoUringSyncer.consider, hp, if_false]
  split <;> split <;> simp

/-- The round of the primary changes nothing. -/
theorem consider_primary {self : IoUringSyncer} {primaryTsf : Int64} {acc : SyncStats × List User.TsfAdjustment}
    {snap : User.TsfSnapshot} (hp : snap.cardIndex = self.primaryIndex) : self.consider primaryTsf acc snap = acc := by
  simp only [IoUringSyncer.consider, hp, if_true]

theorem others_cons_primary {self : IoUringSyncer} {snap : User.TsfSnapshot} {snaps : List User.TsfSnapshot}
    (hp : snap.cardIndex = self.primaryIndex) : self.others (snap :: snaps) = self.others snaps := by
  simp [User.IoUringSyncer.others, hp]

theorem others_cons_secondary {self : IoUringSyncer} {snap : User.TsfSnapshot} {snaps : List User.TsfSnapshot}
    (hp : ¬snap.cardIndex = self.primaryIndex) : self.others (snap :: snaps) = snap :: self.others snaps := by
  simp [User.IoUringSyncer.others, hp]

/-- The rounds count every secondary once. -/
theorem count_foldl_consider (self : IoUringSyncer) (primaryTsf : Int64) : ∀ (snaps : List User.TsfSnapshot)
    (acc : SyncStats × List User.TsfAdjustment),
    acc.1.adjustmentsApplied.toNat + acc.1.adjustmentsSkipped.toNat + snaps.length < 2 ^ 32 →
    (snaps.foldl (self.consider primaryTsf) acc).1.cardsRead = acc.1.cardsRead ∧
    (snaps.foldl (self.consider primaryTsf) acc).1.adjustmentsApplied.toNat +
        (snaps.foldl (self.consider primaryTsf) acc).1.adjustmentsSkipped.toNat =
      acc.1.adjustmentsApplied.toNat + acc.1.adjustmentsSkipped.toNat + (self.others snaps).length
  | [], _, _ => ⟨rfl, rfl⟩
  | snap :: snaps, acc, h => by
    rw [List.length_cons] at h
    rw [List.foldl_cons]
    by_cases hp : snap.cardIndex = self.primaryIndex
    · rw [consider_primary hp, others_cons_primary hp]
      exact count_foldl_consider self primaryTsf snaps acc (by omega)
    · have hone : (self.consider primaryTsf acc snap).1.adjustmentsApplied.toNat +
            (self.consider primaryTsf acc snap).1.adjustmentsSkipped.toNat =
          acc.1.adjustmentsApplied.toNat + acc.1.adjustmentsSkipped.toNat + 1 := by
        rw [consider_stats hp]
        dsimp only
        rw [UInt32.toNat_add, UInt32.toNat_add]
        split
        · rw [UInt32.toNat_one, UInt32.toNat_zero]
          omega
        · rw [UInt32.toNat_one, UInt32.toNat_zero]
          omega
      obtain ⟨hread, hcount⟩ := count_foldl_consider self primaryTsf snaps (self.consider primaryTsf acc snap) (by omega)
      refine ⟨hread.trans (by rw [consider_stats hp]), ?_⟩
      rw [hcount, hone, others_cons_secondary hp, List.length_cons]
      omega

/-- The rounds keep the largest offset. -/
theorem max_foldl_consider (self : IoUringSyncer) (primaryTsf : Int64) : ∀ (snaps : List User.TsfSnapshot)
    (acc : SyncStats × List User.TsfAdjustment),
    acc.1.maxOffsetNs ≤ (snaps.foldl (self.consider primaryTsf) acc).1.maxOffsetNs ∧
    (∀ snap ∈ self.others snaps,
      absW (primaryTsf - snap.tsfNs) ≤ (snaps.foldl (self.consider primaryTsf) acc).1.maxOffsetNs) ∧
    ((snaps.foldl (self.consider primaryTsf) acc).1.maxOffsetNs = acc.1.maxOffsetNs ∨
      ∃ snap ∈ self.others snaps,
        (snaps.foldl (self.consider primaryTsf) acc).1.maxOffsetNs = absW (primaryTsf - snap.tsfNs))
  | [], acc => ⟨Int64.le_refl _, fun _ h => (List.not_mem_nil h).elim, Or.inl rfl⟩
  | snap :: snaps, acc => by
    rw [List.foldl_cons]
    obtain ⟨hle, hall, hmax⟩ := max_foldl_consider self primaryTsf snaps (self.consider primaryTsf acc snap)
    by_cases hp : snap.cardIndex = self.primaryIndex
    · rw [consider_primary hp] at hle hall hmax ⊢
      rw [others_cons_primary hp]
      exact ⟨hle, hall, hmax⟩
    · have hround : (self.consider primaryTsf acc snap).1.maxOffsetNs =
          if absW (primaryTsf - snap.tsfNs) > acc.1.maxOffsetNs then absW (primaryTsf - snap.tsfNs)
          else acc.1.maxOffsetNs := by rw [consider_stats hp]
      have hstep : acc.1.maxOffsetNs ≤ (self.consider primaryTsf acc snap).1.maxOffsetNs ∧
          absW (primaryTsf - snap.tsfNs) ≤ (self.consider primaryTsf acc snap).1.maxOffsetNs := by
        rw [hround]
        split
        · rename_i hgt
          exact ⟨Int64.le_of_lt hgt, Int64.le_refl _⟩
        · rename_i hle
          exact ⟨Int64.le_refl _, Int64.not_lt.mp hle⟩
      rw [others_cons_secondary hp]
      refine ⟨Int64.le_trans hstep.1 hle, ?_, ?_⟩
      · intro x hx
        rcases List.mem_cons.mp hx with rfl | hx
        · exact Int64.le_trans hstep.2 hle
        · exact hall x hx
      · rcases hmax with heq | ⟨x, hx, heq⟩
        · rw [hround] at heq
          split at heq
          · exact Or.inr ⟨snap, List.mem_cons_self, heq⟩
          · exact Or.inl heq
        · exact Or.inr ⟨x, List.mem_cons_of_mem _ hx, heq⟩

end Stats

/-! ## The result of a cycle -/

section Result

variable {self : IoUringSyncer} {s : Kernel} {primary : CardPtr}

/-- What the daemon reads in a state. -/
def userSnapshots (s : Kernel) : List User.TsfSnapshot :=
  (visible s).zipIdx.map fun x => (snapshotOf s x.2 x.1).toUser

/-- The daemon starts a cycle with no statistics but the number of cards. -/
def startStats (s : Kernel) : SyncStats := { SyncStats.default with cardsRead := UInt32.ofNat (userSnapshots s).length }

/-- A write of at least one whole adjustment succeeds. -/
theorem result_chardevWrite (find : List CardPtr → UInt32 → Option CardPtr) {buf : List UInt8}
    (h : adjSize ≤ buf.length) : ((chardevWrite find .ok buf).run s).1 = .ok (buf.length / adjSize * adjSize) := by
  have h0 : buf.length ≠ 0 := by
    rw [adjSize] at h
    omega
  have h1 : buf.length / adjSize ≠ 0 := by
    rw [adjSize] at h ⊢
    omega
  simp [chardevWrite, h0, h1, UserMem.ok]

/-- The end of a cycle returns the statistics. -/
theorem result_finish (acc : SyncStats × List User.TsfAdjustment) :
    ((if acc.2.isEmpty then (pure (.ok acc.1) : KProg (Except Errno SyncStats))
      else do
        match ← writeAdjustments (devTsfSync (pure ())) acc.2 with
        | .error e => pure (.error e)
        | .ok () => pure (.ok acc.1)).run s).1 = .ok acc.1 := by
  obtain ⟨stats, adjs⟩ := acc
  cases adjs with
  | nil => rfl
  | cons a adjs =>
    have hlen : adjSize ≤ ((a :: adjs).flatMap User.TsfAdjustment.bytes).length := by
      rw [List.flatMap_cons, List.length_append, User.TsfAdjustment.length_bytes]
      exact Nat.le_add_right _ _
    simp only [List.isEmpty_cons, Bool.false_eq_true, if_false, writeAdjustments, devTsfSync, Prog.run_bind,
      Prog.run_pure, tsfSyncChardevWrite, result_chardevWrite _ hlen]

/-- A cycle returns the statistics of its rounds. -/
theorem result_syncOnce (hp : (visible s)[self.primaryIndex.toNat]? = some primary) :
    ((self.syncOnce (devTsfSync (pure ()))).run s).1 =
      .ok ((userSnapshots s).foldl (self.consider (s.card primary).snapNs) (startStats s, [])).1 := by
  have hne : ¬((visible s).zipIdx.map fun x => (snapshotOf s x.2 x.1).toUser).isEmpty = true := by
    have hlt := (List.getElem?_eq_some_iff.mp hp).1
    rw [List.isEmpty_map, List.isEmpty_iff]
    intro he
    have hlen := congrArg List.length he
    rw [List.length_zipIdx, List.length_nil] at hlen
    omega
  have hfind := find?_primary self s
  unfold IoUringSyncer.syncOnce
  rw [Prog.run_bind, run_readSnapshots]
  dsimp only
  rw [if_neg hne, hfind, hp]
  exact result_finish _

end Result

/-! ## Snapshots and cards -/

section Snapshots

variable {self : IoUringSyncer} {s : Kernel} {primary c : CardPtr}

namespace Steady

theorem length_userSnapshots (h : Steady self s primary) : (userSnapshots s).length = s.cardsList.ptrs.length := by
  rw [userSnapshots, List.length_map, List.length_zipIdx, h.visible_eq]

/-- A position other than the primary's is that of another card. -/
theorem ne_primary (h : Steady self s primary) {i : Nat} (hi : s.cardsList.ptrs[i]? = some c) :
    c ≠ primary ↔ i ≠ self.primaryIndex.toNat := by
  have hlt := (List.getElem?_eq_some_iff.mp hi).1
  rw [not_iff_not]
  constructor
  · rintro rfl
    exact (List.getElem?_inj hlt s.cardsList.nodup).mp (hi.trans h.listed.symm)
  · rintro rfl
    exact Option.some.inj (hi.symm.trans h.listed)

theorem toNat_index (h : Steady self s primary) {i : Nat} (hi : s.cardsList.ptrs[i]? = some c) :
    UInt32.ofNat i = self.primaryIndex ↔ i = self.primaryIndex.toNat := by
  have hlt := (List.getElem?_eq_some_iff.mp hi).1
  rw [← UInt32.toNat_inj, toNat_ofNat_visible (lt_of_lt_of_le hlt h.few)]

/-- The snapshots of the secondaries are those of the cards other than the primary. -/
theorem mem_others (h : Steady self s primary) {snap : User.TsfSnapshot}
    (hs : snap ∈ self.others (userSnapshots s)) :
    ∃ c ∈ s.cardsList.ptrs, c ≠ primary ∧ snap.tsfNs = (s.card c).snapNs := by
  rw [IoUringSyncer.others, List.mem_filter, userSnapshots, List.mem_map] at hs
  obtain ⟨⟨⟨d, i⟩, hd, rfl⟩, hne⟩ := hs
  rw [h.visible_eq] at hd
  have hi := List.mem_zipIdx_iff_getElem?.mp hd
  refine ⟨d, List.mem_of_getElem? hi, (h.ne_primary hi).mpr fun e => ?_, rfl⟩
  exact of_decide_eq_true hne ((h.toNat_index hi).mpr e)

theorem others_of_mem (h : Steady self s primary) (hc : c ∈ s.cardsList.ptrs) (hne : c ≠ primary) :
    ∃ snap ∈ self.others (userSnapshots s), snap.tsfNs = (s.card c).snapNs := by
  obtain ⟨i, hi⟩ := List.getElem?_of_mem hc
  refine ⟨(snapshotOf s i c).toUser, ?_, rfl⟩
  rw [IoUringSyncer.others, List.mem_filter, userSnapshots, List.mem_map]
  refine ⟨⟨(c, i), ?_, rfl⟩, ?_⟩
  · rw [h.visible_eq]
    exact List.mem_zipIdx_iff_getElem?.mpr hi
  · exact decide_eq_true fun e => (h.ne_primary hi).mp hne ((h.toNat_index hi).mp e)

/-- There is one secondary less than there are cards. -/
theorem length_others (h : Steady self s primary) :
    (self.others (userSnapshots s)).length + 1 = s.cardsList.ptrs.length := by
  have hlt := (List.getElem?_eq_some_iff.mp h.listed).1
  have hcount : (self.others (userSnapshots s)).length =
      (List.range s.cardsList.ptrs.length).countP (· ≠ self.primaryIndex.toNat) := by
    rw [IoUringSyncer.others, ← List.countP_eq_length_filter, userSnapshots, h.visible_eq, List.countP_map,
      List.range_eq_range', ← List.zipIdx_map_snd 0 s.cardsList.ptrs, List.countP_map]
    refine List.countP_congr fun x hx => ?_
    have hi := List.mem_zipIdx_iff_getElem?.mp (show (x.1, x.2) ∈ _ from hx)
    simp [Uapi.TsfSnapshot.toUser, snapshotOf, h.toNat_index hi]
  have hone : (List.range s.cardsList.ptrs.length).countP (· == self.primaryIndex.toNat) = 1 :=
    List.count_eq_one_of_mem List.nodup_range (List.mem_range.mpr hlt)
  have hsplit := List.length_eq_countP_add_countP (· == self.primaryIndex.toNat)
    (l := List.range s.cardsList.ptrs.length)
  rw [List.length_range, hone] at hsplit
  have hrest : (List.range s.cardsList.ptrs.length).countP (· ≠ self.primaryIndex.toNat) =
      (List.range s.cardsList.ptrs.length).countP fun i => ¬(i == self.primaryIndex.toNat) = true :=
    List.countP_congr fun i _ => by simp
  rw [hcount, hrest]
  omega

end Steady

end Snapshots

/-! ## Overflow -/

/-- `(s64)tsf * NSEC_PER_USEC`, none on overflow. -/
def tsfToNsChecked (tsf : UInt64) : Option Int64 := mulChecked tsf.toInt64 nsecPerUsec

/-- The filter of `tsf_sync_chardev_write`, none on overflow. -/
def belowThresholdChecked (threshold : UInt32) (deltaNs : Int64) : Option Bool := do
  let absDelta ← absChecked deltaNs
  return 0 < threshold && absDelta < ofU32 threshold

/-- One round of the loop of `sync_once`, none on overflow. -/
def User.IoUringSyncer.considerChecked (self : IoUringSyncer) (primaryTsf : Int64) :
    SyncStats × List User.TsfAdjustment → User.TsfSnapshot → Option (SyncStats × List User.TsfAdjustment)
  | (stats, adjustments), snap =>
    if snap.cardIndex = self.primaryIndex then some (stats, adjustments)
    else do
      let delta ← subChecked primaryTsf snap.tsfNs
      let absDelta ← absChecked delta
      let stats := if absDelta > stats.maxOffsetNs then { stats with maxOffsetNs := absDelta } else stats
      if absDelta > self.thresholdNs then
        some ({ stats with adjustmentsApplied := stats.adjustmentsApplied + 1 }, adjustments ++ [⟨snap.cardIndex, delta⟩])
      else
        some ({ stats with adjustmentsSkipped := stats.adjustmentsSkipped + 1 }, adjustments)

/-- No `i64` operation of a cycle overflows: neither the scaling of the read, nor the offsets of the daemon, nor the
filter and the division of the write. -/
structure NoOverflow (syncer : IoUringSyncer) (s : Kernel) (primary : CardPtr) : Prop where
  read : ∀ c ∈ s.cardsList.ptrs, tsfToNsChecked (s.card c).readTsf = some (tsfToNs (s.card c).readTsf)
  daemon : (userSnapshots s).foldlM (syncer.considerChecked (s.card primary).snapNs) (startStats s, []) =
    some ((userSnapshots s).foldl (syncer.consider (s.card primary).snapNs) (startStats s, []))
  write : ∀ adj ∈ syncer.adjustments s,
    belowThresholdChecked s.adjtimeThresholdNs adj.deltaNs = some (belowThreshold s.adjtimeThresholdNs adj.deltaNs) ∧
    divChecked adj.deltaNs nsecPerUsec = some (adj.deltaNs / nsecPerUsec)

section Overflow

variable {self : IoUringSyncer} {s : Kernel} {primary c : CardPtr}

/-- A round whose offset is exact does not overflow. -/
theorem considerChecked_eq {primaryTsf : Int64} {snap : User.TsfSnapshot}
    (h : snap.cardIndex ≠ self.primaryIndex → (primaryTsf - snap.tsfNs).toInt = primaryTsf.toInt - snap.tsfNs.toInt ∧
      -2 ^ 63 < (primaryTsf - snap.tsfNs).toInt) (acc : SyncStats × List User.TsfAdjustment) :
    self.considerChecked primaryTsf acc snap = some (self.consider primaryTsf acc snap) := by
  obtain ⟨stats, adjs⟩ := acc
  by_cases hp : snap.cardIndex = self.primaryIndex
  · simp only [IoUringSyncer.considerChecked, IoUringSyncer.consider, hp, if_true]
  · obtain ⟨hsub, hmin⟩ := h hp
    have hdelta : subChecked primaryTsf snap.tsfNs = some (primaryTsf - snap.tsfNs) := ofIntChecked_of_eq hsub
    simp only [IoUringSyncer.considerChecked, IoUringSyncer.consider, hp, if_false, hdelta, absChecked_eq hmin,
      Option.bind_eq_bind, Option.bind_some]
    split <;> rfl

theorem foldlM_considerChecked {primaryTsf : Int64} : ∀ (snaps : List User.TsfSnapshot)
    (acc : SyncStats × List User.TsfAdjustment), (∀ snap ∈ self.others snaps,
      (primaryTsf - snap.tsfNs).toInt = primaryTsf.toInt - snap.tsfNs.toInt ∧
        -2 ^ 63 < (primaryTsf - snap.tsfNs).toInt) →
    snaps.foldlM (self.considerChecked primaryTsf) acc =
      some (snaps.foldl (self.consider primaryTsf) acc)
  | [], _, _ => rfl
  | snap :: snaps, acc, h => by
    have hround : self.considerChecked primaryTsf acc snap = some (self.consider primaryTsf acc snap) :=
      considerChecked_eq (fun hp => h snap (List.mem_filter.mpr ⟨List.mem_cons_self, decide_eq_true hp⟩)) acc
    rw [List.foldlM_cons, hround, List.foldl_cons]
    refine foldlM_considerChecked snaps _ fun x hx => h x ?_
    obtain ⟨hmem, hne⟩ := List.mem_filter.mp hx
    exact List.mem_filter.mpr ⟨List.mem_cons_of_mem _ hmem, hne⟩

namespace Steady

/-- The offset of a card is exact. -/
theorem toInt_snapDelta (h : Steady self s primary) (hc : c ∈ s.cardsList.ptrs) :
    (TsfSync.snapDelta (s.card primary) (s.card c)).toInt = (s.card primary).snapNs.toInt - (s.card c).snapNs.toInt ∧
    -2 ^ 63 < (TsfSync.snapDelta (s.card primary) (s.card c)).toInt := by
  have hp := (h.fits primary h.primary_mem).bound
  have hb := (h.fits c hc).bound
  rw [h.snapDelta hc, toInt_offsetNs (h.fits primary h.primary_mem) (h.fits c hc), h.snapNs hc, h.snapNs h.primary_mem,
    toInt_tsfToNs (h.fits primary h.primary_mem), toInt_tsfToNs (h.fits c hc)]
  constructor <;> omega

/-- No operation of a cycle overflows. -/
theorem noOverflow (h : Steady self s primary) : NoOverflow self s primary where
  read := by
    intro c hc
    have hb := (h.fits c hc).bound
    refine ofIntChecked_of_eq ?_
    rw [h.readTsf hc, toInt_tsfToNs (h.fits c hc), toInt_toInt64_of_lt (h.fits c hc).lt, toInt_nsecPerUsec, Int.mul_comm]
  daemon := by
    refine foldlM_considerChecked _ _ fun snap hs => ?_
    obtain ⟨c, hc, -, htsf⟩ := h.mem_others hs
    rw [htsf]
    exact h.toInt_snapDelta hc
  write := by
    intro adj hadj
    obtain ⟨p, c, i, hp, hi, -, -, rfl⟩ := mem_adjustments.mp hadj
    cases h.visible_primary.symm.trans hp
    rw [h.visible_eq] at hi
    obtain ⟨-, hmin⟩ := h.toInt_snapDelta (List.mem_of_getElem? hi)
    refine ⟨?_, ?_⟩
    · simp only [belowThresholdChecked, absChecked_eq hmin, belowThreshold]
      rfl
    · rw [divChecked, if_neg (by decide)]
      exact ofIntChecked_of_eq (Int64.toInt_div_of_ne_right _ _ (by decide))

end Steady

end Overflow

/-! ## The whole cycle -/

section Whole

variable {self : IoUringSyncer} {s : Kernel} {primary c : CardPtr}

theorem foldl_adjustedAt_setup (find : List CardPtr → UInt32 → Option CardPtr) (threshold : UInt32) :
    ∀ (adjs : List Uapi.TsfAdjustment) (s : Kernel),
      (adjs.foldl (adjustedAt find threshold) s).cardsList = s.cardsList ∧
      (adjs.foldl (adjustedAt find threshold) s).adjtimeThresholdNs = s.adjtimeThresholdNs
  | [], _ => ⟨rfl, rfl⟩
  | adj :: adjs, s => by
    have hthr : (adjustedAt find threshold s adj).adjtimeThresholdNs = s.adjtimeThresholdNs := by
      unfold adjustedAt adjusted
      split
      · rfl
      · split
        · rfl
        · split
          · rfl
          · exact (Kernel.putTsf_threshold ..).trans (Kernel.gotTsf_threshold ..)
    obtain ⟨hlist, hrest⟩ := foldl_adjustedAt_setup find threshold adjs (adjustedAt find threshold s adj)
    exact ⟨hlist.trans (adjustedAt_cardsList ..), hrest.trans hthr⟩

/-- A cycle keeps the list and the kernel's threshold. -/
theorem syncOnce_setup (self : IoUringSyncer) (s : Kernel) :
    ((self.syncOnce (devTsfSync (pure ()))).run s).2.cardsList = s.cardsList ∧
    ((self.syncOnce (devTsfSync (pure ()))).run s).2.adjtimeThresholdNs = s.adjtimeThresholdNs := by
  rw [run_syncOnce]
  dsimp only [Prog.run_pure]
  have hread := foldl_peeked_cardsList s.cardsList.ptrs s
  have hread' := foldl_peeked_threshold s.cardsList.ptrs s
  split
  · exact ⟨hread, hread'⟩
  · obtain ⟨hlist, hthr⟩ := foldl_adjustedAt_setup findByIndex
      (s.cardsList.ptrs.foldl peeked s).adjtimeThresholdNs (self.adjustments s) (s.cardsList.ptrs.foldl peeked s)
    exact ⟨hlist.trans hread, hthr.trans hread'⟩

namespace Steady

/-- A cycle of a steady state leaves a steady state. -/
theorem steady_syncOnce (h : Steady self s primary) :
    Steady self ((self.syncOnce (devTsfSync (pure ()))).run s).2 primary := by
  obtain ⟨hlist, -⟩ := syncOnce_setup self s
  have hcard : ∀ c ∈ s.cardsList.ptrs,
      (((self.syncOnce (devTsfSync (pure ()))).run s).2.card c).vif = (s.card c).vif ∧
      (((self.syncOnce (devTsfSync (pure ()))).run s).2.card c).hw.ops = (s.card c).hw.ops := by
    intro c hc
    obtain ⟨i, hi⟩ := List.getElem?_of_mem hc
    rw [card_syncOnce h.visible_primary (show (visible s)[i]? = some c from h.visible_eq ▸ hi)]
    split
    · exact ⟨rfl, rfl⟩
    · exact ⟨adjust_vif .., adjust_ops ..⟩
  refine ⟨hlist ▸ h.few, hlist ▸ h.listed, ?_, ?_, ?_, h.threshold⟩
  · intro c hc
    rw [hlist] at hc
    rw [(hcard c hc).1]
    exact h.vif c hc
  · intro c hc
    rw [hlist] at hc
    rw [(hcard c hc).2]
    exact h.ops c hc
  · intro c hc
    rw [hlist] at hc
    by_cases hne : c = primary
    · rw [hne, h.card_primary]
      exact h.fits primary h.primary_mem
    · rw [h.tsf_syncOnce hc hne]
      split
      · exact h.fits primary h.primary_mem
      · exact h.fits c hc

/-- A second cycle changes nothing: a card that was moved is on the primary's TSF, and the others still do not qualify. -/
theorem syncOnce_syncOnce (h : Steady self s primary) (hc : c ∈ s.cardsList.ptrs) :
    (((self.syncOnce (devTsfSync (pure ()))).run ((self.syncOnce (devTsfSync (pure ()))).run s).2).2.card c).hw.tsf =
      (((self.syncOnce (devTsfSync (pure ()))).run s).2.card c).hw.tsf := by
  have h' := h.steady_syncOnce
  obtain ⟨hlist, hthr⟩ := syncOnce_setup self s
  by_cases hne : c = primary
  · rw [hne, h'.card_primary]
  · rw [h'.tsf_syncOnce (hlist ▸ hc) hne]
    split
    · rename_i hmoved
      obtain ⟨hu, hk⟩ := hmoved
      have hu0 := h.threshold
      have htsf := h.tsf_syncOnce hc hne
      split at htsf
      · rw [offBy, htsf, h.card_primary, sub_self, abs_zero] at hu
        omega
      · rename_i hnot
        rw [offBy, htsf, h.card_primary] at hu hk
        rw [hthr] at hk
        exact absurd ⟨hu, hk⟩ hnot
    · rfl

/-- The statistics of a cycle: every card is counted once, and the largest offset is that of some card. -/
theorem stats_syncOnce (h : Steady self s primary) :
    ∃ stats, ((self.syncOnce (devTsfSync (pure ()))).run s).1 = .ok stats ∧
      stats.cardsRead.toNat = s.cardsList.ptrs.length ∧
      stats.cardsRead.toNat = 1 + stats.adjustmentsApplied.toNat + stats.adjustmentsSkipped.toNat ∧
      (∀ c ∈ s.cardsList.ptrs, c ≠ primary → offBy s primary c ≤ stats.maxOffsetNs.toInt) ∧
      ((∃ c ∈ s.cardsList.ptrs, c ≠ primary ∧ stats.maxOffsetNs.toInt = offBy s primary c) ∨
        stats.maxOffsetNs = 0 ∧ ∀ c ∈ s.cardsList.ptrs, c = primary) := by
  have hlen := h.length_userSnapshots
  have hfew := h.few
  have hmax : maxCards = 128 := rfl
  have hothers := h.length_others
  have hoff : ∀ c ∈ s.cardsList.ptrs, (absW ((s.card primary).snapNs - (s.card c).snapNs)).toInt = offBy s primary c :=
    fun c hc => by
      have hd : (s.card primary).snapNs - (s.card c).snapNs = _ := h.snapDelta hc
      rw [hd, h.toInt_absW hc]
  obtain ⟨hread, hcount⟩ := count_foldl_consider self (s.card primary).snapNs
    (userSnapshots s) (startStats s, []) (by
      show 0 + 0 + (userSnapshots s).length < 2 ^ 32
      omega)
  obtain ⟨-, hall, hattained⟩ := max_foldl_consider self (s.card primary).snapNs
    (userSnapshots s) (startStats s, [])
  have hcards : ((userSnapshots s).foldl (self.consider (s.card primary).snapNs) (startStats s, [])).1.cardsRead.toNat =
      s.cardsList.ptrs.length := by
    rw [hread]
    show (UInt32.ofNat (userSnapshots s).length).toNat = _
    rw [hlen, UInt32.toNat_ofNat']
    omega
  change _ = 0 + 0 + _ at hcount
  refine ⟨_, result_syncOnce h.visible_primary, hcards, by omega, ?_, ?_⟩
  · intro c hc hne
    obtain ⟨snap, hsnap, htsf⟩ := h.others_of_mem hc hne
    have hle := Int64.le_iff_toInt_le.mp (hall snap hsnap)
    rw [htsf, hoff c hc] at hle
    exact hle
  · rcases hattained with hzero | ⟨snap, hsnap, heq⟩
    · by_cases hany : ∃ c ∈ s.cardsList.ptrs, c ≠ primary
      · obtain ⟨c, hc, hne⟩ := hany
        obtain ⟨snap, hsnap, htsf⟩ := h.others_of_mem hc hne
        have hle := Int64.le_iff_toInt_le.mp (hall snap hsnap)
        rw [htsf, hoff c hc, hzero] at hle
        refine Or.inl ⟨c, hc, hne, ?_⟩
        rw [hzero]
        exact le_antisymm (offBy_nonneg s primary c) hle
      · refine Or.inr ⟨hzero, fun c hc => ?_⟩
        by_contra hne
        exact hany ⟨c, hc, hne⟩
    · obtain ⟨c, hc, hne, htsf⟩ := h.mem_others hsnap
      refine Or.inl ⟨c, hc, hne, ?_⟩
      rw [heq, htsf, hoff c hc]

end Steady

/-- **A cycle of Mode C** leaves the primary alone, puts exactly the cards that are off by more than the daemon's
threshold and at least the kernel's on the primary's TSF, counts every card, overflows nowhere, and has nothing left to
do for a second cycle. -/
theorem mode_c_cycle (h : Steady self s primary) :
    (((self.syncOnce (devTsfSync (pure ()))).run s).2.card primary).hw.tsf = (s.card primary).hw.tsf ∧
    (∀ c ∈ s.cardsList.ptrs, c ≠ primary → (((self.syncOnce (devTsfSync (pure ()))).run s).2.card c).hw.tsf =
      if self.thresholdNs.toInt < offBy s primary c ∧ (s.adjtimeThresholdNs.toNat : Int) ≤ offBy s primary c then
        (s.card primary).hw.tsf
      else (s.card c).hw.tsf) ∧
    (∃ stats, ((self.syncOnce (devTsfSync (pure ()))).run s).1 = .ok stats ∧
      stats.cardsRead.toNat = s.cardsList.ptrs.length ∧
      stats.cardsRead.toNat = 1 + stats.adjustmentsApplied.toNat + stats.adjustmentsSkipped.toNat ∧
      (∀ c ∈ s.cardsList.ptrs, c ≠ primary → offBy s primary c ≤ stats.maxOffsetNs.toInt) ∧
      ((∃ c ∈ s.cardsList.ptrs, c ≠ primary ∧ stats.maxOffsetNs.toInt = offBy s primary c) ∨
        stats.maxOffsetNs = 0 ∧ ∀ c ∈ s.cardsList.ptrs, c = primary)) ∧
    NoOverflow self s primary ∧
    ∀ c ∈ s.cardsList.ptrs,
      (((self.syncOnce (devTsfSync (pure ()))).run ((self.syncOnce (devTsfSync (pure ()))).run s).2).2.card c).hw.tsf =
        (((self.syncOnce (devTsfSync (pure ()))).run s).2.card c).hw.tsf :=
  ⟨by rw [h.card_primary], fun _ hc hne => h.tsf_syncOnce hc hne, h.stats_syncOnce, h.noOverflow,
    fun _ hc => h.syncOnce_syncOnce hc⟩

/-- Two cards, the first of them the primary, with the default thresholds of 5 µs. -/
theorem steady_two {p c : UInt64} (hp : FitsNs p) (hc : FitsNs c) :
    Steady ⟨0, 5000⟩ (.withCards [.upWith 0 p, .upWith 1 c]) (.card 0) where
  few := (by decide : 2 ≤ 128)
  listed := rfl
  vif := by
    intro d hd
    rcases List.mem_pair.mp hd with rfl | rfl <;> rfl
  ops := by
    intro d hd
    rcases List.mem_pair.mp hd with rfl | rfl <;> rfl
  fits := by
    intro d hd
    rcases List.mem_pair.mp hd with rfl | rfl
    · exact hp
    · exact hc
  threshold := by decide

/-- Two cards that are 10 µs apart: the secondary arrives at 110. -/
theorem mode_c_cycle_ten : ((((⟨0, 5000⟩ : IoUringSyncer).syncOnce (devTsfSync (pure ()))).run
    (.withCards [.upWith 0 110, .upWith 1 100])).2.card (.card 1)).hw.tsf = 110 := by
  have h := steady_two (p := 110) (c := 100) (by unfold FitsNs; decide) (by unfold FitsNs; decide)
  have hmem : CardPtr.card 1 ∈ (Kernel.withCards [.upWith 0 110, .upWith 1 100]).cardsList.ptrs := by decide
  rw [(mode_c_cycle h).2.1 (.card 1) hmem (by decide)]
  decide

end Whole

end TsfSync
