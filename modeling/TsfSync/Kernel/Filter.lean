import TsfSync.Kernel.ClockLaws
import TsfSync.Kernel.Decision

/-!
# The threshold filter of an adjustment

`tsf_ptp_adjtime` and every entry of `tsf_sync_chardev_write` skip a delta below `adjtime_threshold_ns` and otherwise add
it to the TSF, truncated to microseconds. Each takes the absolute value by a negation in `s64`, which maps the least delta
to itself: with a threshold that delta is skipped as if it were small. At every other delta both filters are exact
(`filtersExactly_iff`).
-/

namespace TsfSync

open LockProg MachineWord Uapi

/-- From `s` to `s'` a delta has been filtered as its true absolute value demands: skipped and counted if it is below a
threshold, and else added to the TSF, truncated to microseconds and modulo `2^64`, by one call of `set_tsf`. -/
def FiltersExactly (s : Kernel) (c : CardPtr) (vif : DevId) (deltaNs : Int) (s' : Kernel) : Prop :=
  if 0 < s.adjtimeThresholdNs.toNat ∧ |deltaNs| < s.adjtimeThresholdNs.toNat then s' = s.skipped
  else ∃ tsf : UInt64, (tsf.toNat : Int) = ((s.card c).hw.tsf.toNat + deltaNs.tdiv 1000) % 2 ^ 64 ∧
    s'.drv = s.drv ++ [.getTsf c vif, .setTsf c vif tsf] ∧ (s'.card c).hw.tsf = tsf ∧
    s'.adjtimeApplyCount = s.adjtimeApplyCount + 1 ∧ s'.adjtimeSkipCount = s.adjtimeSkipCount

/-- The state in which a write comes to its `n`-th entry. -/
def entryState (s : Kernel) (buf : List UInt8) (n : Nat) : Kernel :=
  ((forM ((decodeAdjustments buf).take n) (applyAdjustment findByIndex s.adjtimeThresholdNs)).run s).2

/-- A card with an up VIF and a driver with both TSF ops. -/
structure AdjustableCard (s : Kernel) (c : CardPtr) (vif : DevId) : Prop where
  vif : (s.card c).vif = some vif
  getTsf : (s.card c).hw.ops.getTsf = true
  setTsf : (s.card c).hw.ops.setTsf = true

/-! ## The filter -/

/-- The filter skips a delta that is below a threshold, and with a threshold the least delta. -/
theorem belowThreshold_iff (threshold : UInt32) (deltaNs : Int64) : belowThreshold threshold deltaNs = true ↔
    0 < threshold.toNat ∧ (deltaNs = Int64.minValue ∨ |deltaNs.toInt| < threshold.toNat) := by
  have hmin : deltaNs = Int64.minValue ↔ deltaNs.toInt = -2 ^ 63 := Int64.toInt_inj.symm
  have hpos : (0 : UInt32) < threshold ↔ 0 < threshold.toNat := UInt32.lt_iff_toNat_lt
  have hlt : absW deltaNs < ofU32 threshold ↔ ¬ofU32 threshold ≤ absW deltaNs := Int64.not_le.symm
  rw [belowThreshold, Bool.and_eq_true, decide_eq_true_eq, decide_eq_true_eq, hpos, hlt, ofU32_le_absW_iff, hmin,
    not_and_or, not_not, not_le]

/-- The new TSF is the old one and the delta in whole microseconds, modulo `2^64`. -/
theorem toNat_addDeltaNs (tsf : UInt64) (deltaNs : Int64) :
    ((addDeltaNs tsf deltaNs).toNat : Int) = (tsf.toNat + deltaNs.toInt.tdiv 1000) % 2 ^ 64 := by
  have hquot : (deltaNs / nsecPerUsec).toInt = deltaNs.toInt.tdiv 1000 := Int64.toInt_div_of_ne_right _ _ (by decide)
  have hadd := toNat_toUInt64_modEq (deltaNs / nsecPerUsec)
  rw [hquot] at hadd
  have hmod := (toNat_add_modEq tsf (deltaNs / nsecPerUsec).toUInt64).trans (hadd.add_left _)
  have hlt := (addDeltaNs tsf deltaNs).toNat_lt
  rw [← hmod]
  exact (Int.emod_eq_of_lt (by omega) (by omega)).symm

theorem gotTsf_counts (s : Kernel) (c : CardPtr) (vif : DevId) :
    (s.gotTsf c vif).adjtimeApplyCount = s.adjtimeApplyCount ∧
      (s.gotTsf c vif).adjtimeSkipCount = s.adjtimeSkipCount := by
  unfold Kernel.gotTsf
  split <;> exact ⟨rfl, rfl⟩

theorem putTsf_counts (s : Kernel) (c : CardPtr) (vif : DevId) (tsf : UInt64) :
    (s.putTsf c vif tsf).adjtimeApplyCount = s.adjtimeApplyCount ∧
      (s.putTsf c vif tsf).adjtimeSkipCount = s.adjtimeSkipCount := by
  unfold Kernel.putTsf
  split <;> exact ⟨rfl, rfl⟩

section Card

variable {s : Kernel} {c : CardPtr} {vif : DevId}

/-- What an adjustment that is not skipped does to a card. -/
theorem filtersExactly_adjusted (hc : AdjustableCard s c vif) {deltaNs : Int64}
    (h : ¬(0 < s.adjtimeThresholdNs.toNat ∧ |deltaNs.toInt| < s.adjtimeThresholdNs.toNat)) :
    FiltersExactly s c vif deltaNs.toInt (adjusted s c deltaNs) := by
  have hread : (s.card c).readTsf = (s.card c).hw.tsf := if_pos hc.getTsf
  have hset : ((s.gotTsf c vif).card c).hw.ops.setTsf = true := by rw [Kernel.gotTsf_card]; exact hc.setTsf
  rw [FiltersExactly, if_neg h, adjusted, hc.vif, hread]
  refine ⟨addDeltaNs (s.card c).hw.tsf deltaNs, toNat_addDeltaNs _ _, ?_, ?_, ?_, ?_⟩
  · show ((s.gotTsf c vif).putTsf c vif _).drv = _
    rw [drv_putTsf, drv_gotTsf, getCalls, setCalls, if_pos hc.getTsf, if_pos hset, List.append_assoc]
    rfl
  · show (((s.gotTsf c vif).putTsf c vif _).card c).hw.tsf = _
    rw [Kernel.putTsf_self, if_pos hset]
  · show ((s.gotTsf c vif).putTsf c vif _).adjtimeApplyCount + 1 = _
    rw [(putTsf_counts _ c vif _).1, (gotTsf_counts s c vif).1]
  · show ((s.gotTsf c vif).putTsf c vif _).adjtimeSkipCount = _
    rw [(putTsf_counts _ c vif _).2, (gotTsf_counts s c vif).2]

/-- A delta that the code filters by its computed absolute value is filtered exactly unless there is a threshold and the
delta is the least one. -/
theorem filtersExactly_computed_iff (hc : AdjustableCard s c vif) (deltaNs : Int64) :
    FiltersExactly s c vif deltaNs.toInt
        (if belowThreshold s.adjtimeThresholdNs deltaNs then s.skipped else adjusted s c deltaNs) ↔
      s.adjtimeThresholdNs = 0 ∨ deltaNs ≠ Int64.minValue := by
  have hzero : s.adjtimeThresholdNs = 0 ↔ ¬0 < s.adjtimeThresholdNs.toNat := by
    rw [Nat.pos_iff_ne_zero, not_not]
    exact UInt32.toNat_inj.symm
  by_cases hsmall : 0 < s.adjtimeThresholdNs.toNat ∧ |deltaNs.toInt| < s.adjtimeThresholdNs.toNat
  · have hb := (belowThreshold_iff s.adjtimeThresholdNs deltaNs).mpr ⟨hsmall.1, Or.inr hsmall.2⟩
    rw [if_pos hb, FiltersExactly, if_pos hsmall]
    refine iff_of_true rfl (Or.inr fun hmin => ?_)
    have ht := s.adjtimeThresholdNs.toNat_lt
    rw [hmin] at hsmall
    exact absurd hsmall.2 (by rw [show |Int64.minValue.toInt| = 2 ^ 63 from rfl]; omega)
  · by_cases hb : belowThreshold s.adjtimeThresholdNs deltaNs = true
    · -- only the least delta is skipped without being small
      obtain ⟨hpos, hmin | hlt⟩ := (belowThreshold_iff _ _).mp hb
      · rw [if_pos hb, FiltersExactly, if_neg hsmall]
        refine iff_of_false ?_ ?_
        · rintro ⟨tsf, -, hdrv, -⟩
          have hlen := congrArg List.length hdrv
          rw [Kernel.skipped_drv, List.length_append] at hlen
          exact absurd hlen (by simp)
        · rintro (h | h)
          · exact hzero.mp h hpos
          · exact h hmin
      · exact absurd ⟨hpos, hlt⟩ hsmall
    · rw [if_neg hb]
      refine iff_of_true (filtersExactly_adjusted hc hsmall) ?_
      by_cases hpos : 0 < s.adjtimeThresholdNs.toNat
      · exact Or.inr fun hmin => hb ((belowThreshold_iff _ _).mpr ⟨hpos, Or.inl hmin⟩)
      · exact Or.inl (hzero.mpr hpos)

/-! ## The two entry points -/

theorem run_adjtime_filtered (hv : (s.card c).vif = some vif) (deltaNs : Int64) : ((tsfPtpAdjtime c deltaNs).run s).2 =
    if belowThreshold s.adjtimeThresholdNs deltaNs then s.skipped else adjusted s c deltaNs := by
  split
  · rename_i hb
    simp [tsfPtpAdjtime, hb]
  · rename_i hb
    rw [run_adjtime hv (Bool.eq_false_iff.mpr hb)]

/-- An adjustment of any card keeps the setup. -/
theorem sameSetup_adjusted (s : Kernel) (c : CardPtr) (deltaNs : Int64) : SameSetup s (adjusted s c deltaNs) := by
  unfold adjusted
  split
  · exact .refl s
  · exact ((SameSetup.gotTsf s c _).trans (SameSetup.putTsf _ c _ _)).trans (SameSetup.applied _)

theorem sameSetup_adjustedAt (find : List CardPtr → UInt32 → Option CardPtr) (threshold : UInt32) (s : Kernel)
    (adj : TsfAdjustment) : SameSetup s (adjustedAt find threshold s adj) := by
  unfold adjustedAt
  split
  · exact SameSetup.skipped s
  · split
    · exact .refl s
    · exact sameSetup_adjusted s _ _

theorem entryState_eq (s : Kernel) (buf : List UInt8) (n : Nat) : entryState s buf n =
    ((decodeAdjustments buf).take n).foldl (adjustedAt findByIndex s.adjtimeThresholdNs) s := by
  rw [entryState, Prog.run_forM]
  simp only [run_applyAdjustment]

/-- The entries before the `n`-th keep the setup. -/
theorem sameSetup_entryState (s : Kernel) (buf : List UInt8) (n : Nat) : SameSetup s (entryState s buf n) := by
  rw [entryState_eq]
  generalize (decodeAdjustments buf).take n = adjs
  generalize s.adjtimeThresholdNs = threshold
  induction adjs generalizing s with
  | nil => exact .refl s
  | cons adj adjs ih => exact (sameSetup_adjustedAt findByIndex threshold s adj).trans (ih _)

theorem AdjustableCard.of_sameSetup {s' : Kernel} (hc : AdjustableCard s c vif) (h : SameSetup s s') :
    AdjustableCard s' c vif := by
  obtain ⟨hvif, -, hops⟩ := h.card c
  exact ⟨hvif.trans hc.vif, by rw [hops]; exact hc.getTsf, by rw [hops]; exact hc.setTsf⟩

/-- One entry of a write that is for a card. -/
theorem entryState_succ {buf : List UInt8} {n : Nat} {adj : TsfAdjustment} (hn : (decodeAdjustments buf)[n]? = some adj)
    (hfind : findByIndex s.cardsList.ptrs adj.cardIndex = some c) : entryState s buf (n + 1) =
      if belowThreshold s.adjtimeThresholdNs adj.deltaNs then (entryState s buf n).skipped
      else adjusted (entryState s buf n) c adj.deltaNs := by
  have hsame := sameSetup_entryState s buf n
  rw [entryState_eq, List.take_add_one, hn, Option.toList_some, List.foldl_append, ← entryState_eq, List.foldl_cons,
    List.foldl_nil, adjustedAt, hsame.cardsList, hfind]

/-- **Both filters are exact if and only if there is no threshold or the delta is not the least one**: that of
`tsf_ptp_adjtime`, and that of every entry of every write. -/
theorem filtersExactly_iff (hc : AdjustableCard s c vif) :
    (∀ deltaNs : Int64, FiltersExactly s c vif deltaNs.toInt ((tsfPtpAdjtime c deltaNs).run s).2 ↔
      s.adjtimeThresholdNs = 0 ∨ deltaNs ≠ Int64.minValue) ∧
    ∀ buf, ((tsfSyncChardevWrite .ok buf).run s).2 = entryState s buf (decodeAdjustments buf).length ∧
      ∀ n adj, (decodeAdjustments buf)[n]? = some adj → findByIndex s.cardsList.ptrs adj.cardIndex = some c →
        (FiltersExactly (entryState s buf n) c vif adj.deltaNs.toInt (entryState s buf (n + 1)) ↔
          s.adjtimeThresholdNs = 0 ∨ adj.deltaNs ≠ Int64.minValue) := by
  refine ⟨fun deltaNs => ?_, fun buf => ⟨?_, fun n adj hn hfind => ?_⟩⟩
  · rw [run_adjtime_filtered hc.vif]
    exact filtersExactly_computed_iff hc deltaNs
  · rw [entryState_eq, List.take_length]
    exact run_chardevWrite s findByIndex buf
  · have hsame := sameSetup_entryState s buf n
    rw [entryState_succ hn hfind, ← hsame.threshold]
    exact filtersExactly_computed_iff (hc.of_sameSetup hsame) adj.deltaNs

end Card

/-- On a card with an up VIF and both ops a delta of 10 µs is added. -/
theorem filtersExactly_iff_near : FiltersExactly (.withCards [.upWith 0 100]) (.card 0) 0 10000
    ((tsfPtpAdjtime (.card 0) 10000).run (.withCards [.upWith 0 100])).2 := by
  have hc : AdjustableCard (.withCards [.upWith 0 100]) (.card 0) 0 := ⟨rfl, rfl, rfl⟩
  exact ((filtersExactly_iff hc).1 10000).mpr (Or.inr (by decide))

/-- With the default threshold the least delta is skipped by both, as if it were below 5 µs. -/
theorem filtersExactly_counterexample :
    ¬FiltersExactly (.withCards [.upWith 0 100]) (.card 0) 0 (-2 ^ 63)
        ((tsfPtpAdjtime (.card 0) Int64.minValue).run (.withCards [.upWith 0 100])).2 ∧
    ¬FiltersExactly (.withCards [.upWith 0 100]) (.card 0) 0 (-2 ^ 63)
        ((tsfSyncChardevWrite .ok [0, 0, 0, 0, 0, 0, 0, 0, 0, 0, 0, 0x80]).run (.withCards [.upWith 0 100])).2 := by
  have hlarge : ¬(0 < (Kernel.withCards [.upWith 0 100]).adjtimeThresholdNs.toNat ∧
      |(-2 ^ 63 : Int)| < (Kernel.withCards [.upWith 0 100]).adjtimeThresholdNs.toNat) := by decide
  rw [FiltersExactly, if_neg hlarge, FiltersExactly, if_neg hlarge]
  constructor
  · rintro ⟨tsf, -, hdrv, -⟩
    cases hdrv
  · rintro ⟨tsf, -, hdrv, -⟩
    cases hdrv

end TsfSync
