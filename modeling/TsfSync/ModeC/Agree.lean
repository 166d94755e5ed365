import TsfSync.Kernel.ModeB
import TsfSync.ModeC.Converge

/-!
# Modes B and C

Mode B sets every secondary that is off by at least the threshold to the primary's TSF; Mode C adjusts those that are
off by more. Where all cards have a VIF and the TSFs fit signed nanoseconds the offsets that the two compute are one
number (`Steady.snapDelta`) and the adjustment of Mode C arrives at the primary's TSF (`addDeltaNs_offsetNs`), so the
two modes leave the same TSFs unless some card is off by exactly a threshold that is not zero (`modes_agree_iff`).
-/

namespace TsfSync

open LockProg MachineWord Uapi User User.IoUringSyncer

/-! ## Where the modes agree -/

/-- The states that the two modes are compared from: at most 128 cards, all with a VIF, both TSF ops and a TSF that
fits, one primary and one threshold for both. -/
structure Comparable (syncer : IoUringSyncer) (s : Kernel) (primary : CardPtr) : Prop where
  few : s.cardsList.ptrs.length ≤ maxCards
  listed : s.cardsList.ptrs[syncer.primaryIndex.toNat]? = some primary
  chosen : s.primary = some primary
  vif : ∀ c ∈ s.cardsList.ptrs, (s.card c).vif.isSome = true
  ops : ∀ c ∈ s.cardsList.ptrs, (s.card c).hw.ops = ⟨true, true⟩
  fits : ∀ c ∈ s.cardsList.ptrs, FitsNs (s.card c).hw.tsf
  threshold : syncer.thresholdNs = ofU32 s.adjtimeThresholdNs

section Agree

variable {self : IoUringSyncer} {s : Kernel} {primary c : CardPtr}

/-- The states compared are steady ones for Mode C. -/
theorem Comparable.steady (h : Comparable self s primary) : Steady self s primary where
  few := h.few
  listed := h.listed
  vif := h.vif
  ops := h.ops
  fits := h.fits
  threshold := by
    rw [h.threshold, toInt_ofU32]
    exact Int.natCast_nonneg _

/-- What Mode B leaves in a card. -/
theorem Comparable.tsf_modeB (h : Comparable self s primary) (hc : c ∈ s.cardsList.ptrs) (hne : c ≠ primary) :
    ((tsfSyncWorkFn.run s).2.card c).hw.tsf =
      if s.adjtimeThresholdNs = 0 ∨ (s.adjtimeThresholdNs.toNat : Int) ≤ offBy s primary c then (s.card primary).hw.tsf
      else (s.card c).hw.tsf := by
  have hs := h.steady
  obtain ⟨vif, hv⟩ := Option.isSome_iff_exists.mp (h.vif primary hs.primary_mem)
  have hreach : reachesThreshold s.adjtimeThresholdNs (offsetNs (s.card primary).hw.tsf (s.card c).hw.tsf) = true ↔
      s.adjtimeThresholdNs = 0 ∨ (s.adjtimeThresholdNs.toNat : Int) ≤ offBy s primary c := by
    simp [reachesThreshold, Int64.le_iff_toInt_le, hs.toInt_absW hc]
  rw [tsf_workFn_other h.chosen hv hne, if_pos hc, Card.tsfAfterB, hs.readTsf hc, hs.readTsf hs.primary_mem, h.vif c hc, h.ops c hc]
  simp only [Bool.true_and, hreach]

/-- What Mode C leaves in a card. -/
theorem Comparable.tsf_modeC (h : Comparable self s primary) (hc : c ∈ s.cardsList.ptrs) (hne : c ≠ primary) :
    (((self.syncOnce (devTsfSync (pure ()))).run s).2.card c).hw.tsf =
      if (s.adjtimeThresholdNs.toNat : Int) < offBy s primary c then (s.card primary).hw.tsf
      else (s.card c).hw.tsf := by
  have hthr : self.thresholdNs.toInt = s.adjtimeThresholdNs.toNat := by rw [h.threshold, toInt_ofU32]
  rw [h.steady.tsf_syncOnce hc hne, hthr]
  -- with one threshold the filter of the kernel never stops an adjustment
  refine if_congr ⟨fun hand => hand.1, fun hlt => ⟨hlt, hlt.le⟩⟩ rfl rfl

/-- **Modes B and C leave the same TSFs** if and only if the threshold is zero or no card is off by exactly the
threshold. -/
theorem modes_agree_iff (h : Comparable self s primary) :
    (∀ c ∈ s.cardsList.ptrs, ((tsfSyncWorkFn.run s).2.card c).hw.tsf =
      (((self.syncOnce (devTsfSync (pure ()))).run s).2.card c).hw.tsf) ↔
    s.adjtimeThresholdNs = 0 ∨ ∀ c ∈ s.cardsList.ptrs, offBy s primary c ≠ s.adjtimeThresholdNs.toNat := by
  have hprimary : ((tsfSyncWorkFn.run s).2.card primary).hw.tsf =
      (((self.syncOnce (devTsfSync (pure ()))).run s).2.card primary).hw.tsf := by
    obtain ⟨vif, hv⟩ := Option.isSome_iff_exists.mp (h.vif primary h.steady.primary_mem)
    rw [tsf_workFn_primary h.chosen hv, h.steady.card_primary]
  have hzero : s.adjtimeThresholdNs = 0 ↔ s.adjtimeThresholdNs.toNat = 0 := by
    rw [← UInt32.toNat_inj]; rfl
  constructor
  · intro hall
    rw [or_iff_not_imp_left]
    intro hthr c hc heq
    have hthr' : s.adjtimeThresholdNs.toNat ≠ 0 := fun e => hthr (hzero.mpr e)
    have hne : c ≠ primary := by
      rintro rfl
      simp [offBy] at heq
      omega
    have hsame := hall c hc
    rw [h.tsf_modeB hc hne, h.tsf_modeC hc hne, if_pos (Or.inr (by omega)), if_neg (by omega)] at hsame
    simp [offBy, hsame] at heq
    omega
  · intro hcond c hc
    by_cases hne : c = primary
    · subst hne; exact hprimary
    · rw [h.tsf_modeB hc hne, h.tsf_modeC hc hne]
      by_cases hthr : s.adjtimeThresholdNs = 0
      · rw [if_pos (Or.inl hthr), hzero.mp hthr]
        split
        · rfl
        · rename_i hnot
          -- without a threshold Mode B also writes cards that are on time
          have habs : |((s.card primary).hw.tsf.toNat : Int) - (s.card c).hw.tsf.toNat| = 0 := by
            have := abs_nonneg (((s.card primary).hw.tsf.toNat : Int) - (s.card c).hw.tsf.toNat)
            rw [offBy] at hnot
            omega
          exact (eq_of_offset_eq_zero habs).symm
      · have hoff := hcond.resolve_left hthr c hc
        simp only [hthr, false_or]
        split <;> split <;> first | rfl | omega

end Agree

/-- Two cards, the first of them the primary, with the default threshold of 5 µs. -/
theorem comparable_two {p c : UInt64} (hp : FitsNs p) (hc : FitsNs c) :
    Comparable ⟨0, 5000⟩ (.withCards [.upWith 0 p, .upWith 1 c]) (.card 0) where
  few := (by decide : 2 ≤ 128)
  listed := rfl
  chosen := rfl
  vif := by
    intro d hd
    rcases List.mem_pair.mp hd with rfl | rfl <;> rfl
  ops := by
    intro d hd
    rcases List.mem_pair.mp hd with rfl | rfl <;> rfl
  fits := by
    intro d hd
    rcases List.mem_pair.mp hd with rfl | rfl
    · exact hp
    · exact hc
  threshold := rfl

/-- Two cards that are 10 µs apart. -/
theorem modes_agree_ten :
    ((tsfSyncWorkFn.run (.withCards [.upWith 0 110, .upWith 1 100])).2.card (.card 0)).hw.tsf =
      ((((⟨0, 5000⟩ : IoUringSyncer).syncOnce (devTsfSync (pure ()))).run
        (.withCards [.upWith 0 110, .upWith 1 100])).2.card (.card 0)).hw.tsf ∧
    ((tsfSyncWorkFn.run (.withCards [.upWith 0 110, .upWith 1 100])).2.card (.card 1)).hw.tsf =
      ((((⟨0, 5000⟩ : IoUringSyncer).syncOnce (devTsfSync (pure ()))).run
        (.withCards [.upWith 0 110, .upWith 1 100])).2.card (.card 1)).hw.tsf := by
  have hmem : ∀ c ∈ [CardPtr.card 0, .card 1], c ∈ (Kernel.withCards [.upWith 0 110, .upWith 1 100]).cardsList.ptrs :=
    fun _ hc => hc
  have h := (modes_agree_iff (comparable_two (p := 110) (c := 100) (by unfold FitsNs; decide)
    (by unfold FitsNs; decide))).mpr (Or.inr fun c hc => by
      rcases List.mem_pair.mp hc with rfl | rfl <;> decide)
  exact ⟨h _ (hmem _ (by decide)), h _ (hmem _ (by decide))⟩

/-- Two cards that are off by exactly the threshold of 5 µs: Mode B sets the secondary to 105, Mode C leaves it at
100. -/
theorem modes_differ_counterexample :
    ((tsfSyncWorkFn.run (.withCards [.upWith 0 105, .upWith 1 100])).2.card (.card 1)).hw.tsf = 105 ∧
      ((((⟨0, 5000⟩ : IoUringSyncer).syncOnce (devTsfSync (pure ()))).run
        (.withCards [.upWith 0 105, .upWith 1 100])).2.card (.card 1)).hw.tsf = 100 := by
  have h := comparable_two (p := 105) (c := 100) (by unfold FitsNs; decide) (by unfold FitsNs; decide)
  have hmem : CardPtr.card 1 ∈ (Kernel.withCards [.upWith 0 105, .upWith 1 100]).cardsList.ptrs := by decide
  rw [h.tsf_modeB hmem (by decide), h.tsf_modeC hmem (by decide)]
  decide

end TsfSync
