import TsfSync.Kernel.CycleFrame

/-!
# When Mode B writes a secondary

The parameter `adjtime_threshold_ns` promises to skip a write if the absolute difference is below it. `tsf_sync_work_fn`
scales the difference to nanoseconds in 64 bits, so what it compares with the threshold is the true difference modulo
`2^64`. It decides as promised (`DecisionExact`) exactly if that wrap does not bring the difference near `0`
(`decisionExact_iff`).
-/

namespace TsfSync

open LockProg MachineWord

/-- The decision on a card in a cycle with the primary `p` is that on the true difference: the value of the primary is
written if and only if there is no threshold or the difference reaches it, and so none is left that reaches it. -/
structure DecisionExact (s : Kernel) (p c : CardPtr) (vif : DevId) : Prop where
  written_iff : .setTsf c vif (s.card p).hw.tsf ∈ s.cycleCalls ↔
    s.adjtimeThresholdNs = 0 ∨ (s.adjtimeThresholdNs.toNat : Int) ≤ 1000 * |s.diffUsec p c|
  left_below : (tsfSyncWorkFn.run s).2.diffUsec p c = 0 ∨
    1000 * |(tsfSyncWorkFn.run s).2.diffUsec p c| < s.adjtimeThresholdNs.toNat

/-- A difference in microseconds whose scaling to nanoseconds does not wrap to where it passes for a small one. -/
def ScalesSafely (threshold : UInt32) (diffUsec : Int) : Prop :=
  threshold = 0 ∨ ¬1000 * diffUsec ≡ 2 ^ 63 [ZMOD 2 ^ 64] ∧
    ∀ k : Int, k ≠ 0 → (threshold.toNat : Int) ≤ |1000 * diffUsec - 2 ^ 64 * k|

/-! ## The test -/

theorem toInt_offsetNs_modEq (s : Kernel) (p c : CardPtr) :
    (offsetNs (s.card p).hw.tsf (s.card c).hw.tsf).toInt ≡ 1000 * s.diffUsec p c [ZMOD 2 ^ 64] := by
  have h := toInt_mul_modEq ((s.card p).hw.tsf - (s.card c).hw.tsf).toInt64 nsecPerUsec
  rwa [toInt_nsecPerUsec, mul_comm _ (1000 : Int)] at h

theorem reachesThreshold_iff (threshold : UInt32) (deltaNs : Int64) :
    reachesThreshold threshold deltaNs = true ↔ threshold = 0 ∨ ofU32 threshold ≤ absW deltaNs := by
  rw [reachesThreshold, Bool.or_eq_true, beq_iff_eq, decide_eq_true_eq]

/-- The test of the cycle is that on the true difference exactly if the scaling is safe. -/
theorem reachesThreshold_exact_iff (s : Kernel) (p c : CardPtr) (threshold : UInt32) :
    (reachesThreshold threshold (offsetNs (s.card p).hw.tsf (s.card c).hw.tsf) = true ↔
      threshold = 0 ∨ (threshold.toNat : Int) ≤ 1000 * |s.diffUsec p c|) ↔
    ScalesSafely threshold (s.diffUsec p c) := by
  rw [reachesThreshold_iff, ScalesSafely]
  by_cases hzero : threshold = 0
  · simp [hzero]
  · have hpos : 0 < threshold.toNat := Nat.pos_of_ne_zero fun h => hzero (UInt32.toNat_inj.mp h)
    have habs : 1000 * |s.diffUsec p c| = |1000 * s.diffUsec p c| := by rw [abs_mul]; rfl
    simp only [hzero, false_or, habs]
    exact absW_exact_iff hpos (toInt_offsetNs_modEq s p c)

/-! ## The cycle -/

section Cycle

variable {s : Kernel} {p c : CardPtr} {vif : DevId}

/-- A cycle writes the value it read from the primary to a secondary exactly if the test says so. -/
theorem setTsf_mem_cycleCalls_iff {pvif : DevId} (hp : s.primary = some p) (hpv : (s.card p).vif = some pvif)
    (hc : c ∈ s.cardsList.ptrs) (hne : c ≠ p) (hv : (s.card c).vif = some vif)
    (hset : (s.card c).hw.ops.setTsf = true) :
    .setTsf c vif (s.card p).readTsf ∈ s.cycleCalls ↔
      reachesThreshold s.adjtimeThresholdNs (offsetNs (s.card p).readTsf (s.card c).readTsf) = true := by
  have hcalls : syncCalls s.adjtimeThresholdNs p (s.card p).readTsf c (s.card c) =
      getCalls c vif (s.card c) ++
        if reachesThreshold s.adjtimeThresholdNs (offsetNs (s.card p).readTsf (s.card c).readTsf)
        then [.setTsf c vif (s.card p).readTsf] else [] := by
    simp only [syncCalls, if_neg hne, hv, setCalls, if_pos hset]
  rw [cycleCalls_walks hp hpv]
  constructor
  · intro h
    rcases List.mem_append.mp h with h | h
    · cases of_mem_getCalls h
    · obtain ⟨d, -, hd⟩ := List.mem_flatMap.mp h
      obtain rfl : c = d := (of_mem_syncCalls hd).1
      rw [hcalls] at hd
      rcases List.mem_append.mp hd with h | h
      · cases of_mem_getCalls h
      · by_contra hr
        rw [if_neg hr] at h
        cases h
  · intro hr
    refine List.mem_append_right _ (List.mem_flatMap.mpr ⟨c, hc, ?_⟩)
    rw [hcalls, if_pos hr]
    exact List.mem_append_right _ (List.mem_singleton.mpr rfl)

/-- The difference after a cycle: none if the test says so, and else what it was. -/
theorem diffUsec_workFn {pvif : DevId} (hp : s.primary = some p) (hpv : (s.card p).vif = some pvif)
    (hc : c ∈ s.cardsList.ptrs) (hne : c ≠ p) (hv : (s.card c).vif = some vif)
    (hset : (s.card c).hw.ops.setTsf = true) (hpget : (s.card p).readTsf = (s.card p).hw.tsf) :
    (tsfSyncWorkFn.run s).2.diffUsec p c =
      if reachesThreshold s.adjtimeThresholdNs (offsetNs (s.card p).readTsf (s.card c).readTsf) then 0
      else s.diffUsec p c := by
  have htsf := tsf_workFn_other hp hpv hne
  have hprim := tsf_workFn_primary hp hpv
  rw [if_pos hc, Card.tsfAfterB, hv, hset] at htsf
  cases hr : reachesThreshold s.adjtimeThresholdNs (offsetNs (s.card p).readTsf (s.card c).readTsf) with
  | true =>
    rw [hr] at htsf
    exact diffUsec_of_eq (htsf.trans (hpget.trans hprim.symm))
  | false =>
    rw [hr] at htsf
    rw [Kernel.diffUsec, htsf, hprim]
    rfl

/-- **The decision of Mode B is exact if and only if the scaling of the difference is safe.** -/
theorem decisionExact_iff {pvif : DevId} (hp : s.primary = some p) (hpv : (s.card p).vif = some pvif)
    (hc : c ∈ s.cardsList.ptrs) (hne : c ≠ p) (hv : (s.card c).vif = some vif)
    (hset : (s.card c).hw.ops.setTsf = true) (hget : ∀ c ∈ s.cardsList.ptrs, (s.card c).hw.ops.getTsf = true) :
    DecisionExact s p c vif ↔ ScalesSafely s.adjtimeThresholdNs (s.diffUsec p c) := by
  have hread : (s.card c).readTsf = (s.card c).hw.tsf := if_pos (hget c hc)
  have hpread : (s.card p).readTsf = (s.card p).hw.tsf := if_pos (hget p (primary_listed hp))
  have hwritten := setTsf_mem_cycleCalls_iff hp hpv hc hne hv hset
  have hdiff := diffUsec_workFn hp hpv hc hne hv hset hpread
  rw [hread, hpread] at hwritten hdiff
  rw [← reachesThreshold_exact_iff, ← hwritten]
  refine ⟨fun h => h.written_iff, fun h => ⟨h, ?_⟩⟩
  rw [hdiff]
  split
  · exact Or.inl rfl
  · rename_i hr
    -- what the test lets pass is below the threshold
    have hbelow := mt h.mpr (mt hwritten.mp hr)
    exact Or.inr (by omega)

end Cycle

/-- A secondary 10 µs behind the primary is written. -/
theorem decisionExact_iff_near :
    DecisionExact (.withCards [.upWith 0 110, .upWith 1 100]) (.card 0) (.card 1) 1 := by
  have hpv : ((Kernel.withCards [.upWith 0 110, .upWith 1 100]).card (.card 0)).vif = some 0 := rfl
  have hv : ((Kernel.withCards [.upWith 0 110, .upWith 1 100]).card (.card 1)).vif = some 1 := rfl
  have hiff := decisionExact_iff rfl hpv (by decide) (by decide) hv rfl (by decide)
  refine hiff.mpr (Or.inr ⟨by decide, fun k hk => ?_⟩)
  have hdiff : (Kernel.withCards [.upWith 0 110, .upWith 1 100]).diffUsec (.card 0) (.card 1) = 10 := by decide
  have hthreshold : (Kernel.withCards [.upWith 0 110, .upWith 1 100]).adjtimeThresholdNs.toNat = 5000 := rfl
  rw [hdiff, hthreshold, le_abs]
  omega

/-- A secondary 585 years behind the primary passes for one that is 384 ns behind, and is skipped. -/
theorem decisionExact_counterexample :
    ¬DecisionExact (.withCards [.upWith 0 18446744073709552, .upWith 1 0]) (.card 0) (.card 1) 1 := by
  intro h
  exact absurd h.left_below (by decide)

end TsfSync
