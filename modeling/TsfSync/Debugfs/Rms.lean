import TsfSync.Debugfs.Welford

/-!
# What `rms` measures

In exact arithmetic, `WelfordStats` after some observations holds the running moments of their errors (`tracks_observed`);
`rms` is therefore the root mean square of their deviations from the mean, as the unit test `welford_accuracy` has it, and
that of the errors themselves only if they sum up to `0` (`rms_exact_iff`). An offset that does not change is not warned of
(`rms_exact_counterexample`).
-/

namespace TsfSync.Debugfs

open F64 RunningMoments

/-! ## The observations since a reset -/

/-- The errors of some observations. -/
def errors (obs : List (Int64 × Int64)) : List ℝ := obs.map fun o => (o.1.toInt : ℝ)

/-- The sum of the squares of their errors. -/
def sumOfSquares (obs : List (Int64 × Int64)) : ℝ := ((errors obs).map (· ^ 2)).sum

/-- The mean of their errors. -/
noncomputable def meanError (obs : List (Int64 × Int64)) : ℝ := (errors obs).sum / obs.length

/-- The sum of the squared deviations of their errors from the mean. -/
noncomputable def sumOfDeviations (obs : List (Int64 × Int64)) : ℝ :=
  ((errors obs).map fun x => (x - meanError obs) ^ 2).sum

variable {obs : List (Int64 × Int64)}

theorem tracks_observed (h : obs.length < 2 ^ 64) : (observed obs : WelfordStats ℝ).n.toNat = obs.length ∧
    Tracks (errors obs) (observed obs : WelfordStats ℝ).mean (observed obs : WelfordStats ℝ).m2 :=
  exact_real.tracks_observed h

/-- The errors have the second moment of `rms`. -/
theorem length_mul_rms_sq (hne : obs ≠ []) (h : obs.length < 2 ^ 64) :
    (obs.length : ℝ) * (observed obs : WelfordStats ℝ).rms ^ 2 = (observed obs : WelfordStats ℝ).m2 := by
  obtain ⟨hn, htracks⟩ := tracks_observed h
  have hlen : obs.length ≠ 0 := fun hz => hne (List.length_eq_zero_iff.mp hz)
  have hn0 : (observed obs : WelfordStats ℝ).n ≠ 0 := by
    intro hz
    rw [hz] at hn
    exact hlen hn.symm
  have hcast : (ofU64 (observed obs : WelfordStats ℝ).n : ℝ) = obs.length := congrArg Nat.cast hn
  have hrms : (observed obs : WelfordStats ℝ).rms = Real.sqrt ((observed obs : WelfordStats ℝ).m2 / obs.length) := by
    rw [WelfordStats.rms, if_neg hn0, hcast]
    rfl
  have hpos : (obs.length : ℝ) ≠ 0 := Nat.cast_ne_zero.mpr hlen
  rw [hrms, Real.sq_sqrt (div_nonneg htracks.nonneg (Nat.cast_nonneg _))]
  exact mul_div_cancel₀ _ hpos

theorem rms_nonneg (s : WelfordStats ℝ) : 0 ≤ s.rms := by
  unfold WelfordStats.rms
  split
  · exact le_of_eq (Nat.cast_zero (R := ℝ)).symm
  · exact Real.sqrt_nonneg _

/-! ## The root mean square -/

/-- The observations are counted, `n` times the square of `rms` is the sum `total` of some squares, and `check_stats` warns
if their root mean square exceeds the threshold. -/
structure Measures (obs : List (Int64 × Int64)) (total : ℝ) : Prop where
  counted : (observed obs : WelfordStats ℝ).n.toNat = obs.length
  rms : (obs.length : ℝ) * (observed obs : WelfordStats ℝ).rms ^ 2 = total
  warns : ∀ (cycle interval threshold : UInt64) (label : String), 0 < interval → cycle % interval = 0 →
    0 < threshold → (threshold.toNat : ℝ) < Real.sqrt (total / obs.length) →
    ∃ rmsUs, .rmsAboveThreshold rmsUs threshold ∈
      (checkStats (observed obs : WelfordStats ℝ) cycle interval threshold label).2

/-- `rms` is the root mean square of the error. -/
def RmsExact (obs : List (Int64 × Int64)) : Prop := Measures obs (sumOfSquares obs)

/-- `rms` is the root mean square deviation of the error from its mean. -/
def SpreadExact (obs : List (Int64 × Int64)) : Prop := Measures obs (sumOfDeviations obs)

/-- A report whose RMS exceeds the threshold ends with a warning. -/
theorem checkStats_warns_iff {s : WelfordStats ℝ} {cycle interval threshold : UInt64} {label : String}
    (hi : 0 < interval) (hc : cycle % interval = 0) (ht : 0 < threshold) :
    (∃ rmsUs, .rmsAboveThreshold rmsUs threshold ∈ (checkStats s cycle interval threshold label).2) ↔
      (threshold.toNat : ℝ) < s.rms := by
  unfold checkStats WelfordStats.printAndReset
  rw [if_pos ⟨hi, hc⟩]
  have hgt : gt s.rms (ofU64 threshold) = true ↔ (threshold.toNat : ℝ) < s.rms := decide_eq_true_iff
  by_cases hlt : (threshold.toNat : ℝ) < s.rms
  · have hwarned : (if 0 < threshold ∧ gt s.rms (ofU64 threshold) = true then
        ([.rmsAboveThreshold (toU64 s.rms) threshold] : List (Line ℝ)) else []) =
          [.rmsAboveThreshold (toU64 s.rms) threshold] := if_pos ⟨ht, hgt.mpr hlt⟩
    refine iff_of_true ⟨toU64 s.rms, ?_⟩ hlt
    dsimp only
    rw [hwarned]
    exact List.mem_append_right _ List.mem_cons_self
  · have hquiet : (if 0 < threshold ∧ gt s.rms (ofU64 threshold) = true then
        ([.rmsAboveThreshold (toU64 s.rms) threshold] : List (Line ℝ)) else []) = [] := if_neg fun h => hlt (hgt.mp h.2)
    refine iff_of_false ?_ hlt
    rintro ⟨rmsUs, hmem⟩
    dsimp only at hmem
    rw [hquiet, List.append_nil] at hmem
    split at hmem
    · cases List.mem_singleton.mp hmem
    · cases hmem

/-- What `rms` measures is the second moment of the errors. -/
theorem measures_iff (hne : obs ≠ []) {total : ℝ} :
    Measures obs total ↔ obs.length < 2 ^ 64 ∧ (observed obs : WelfordStats ℝ).m2 = total := by
  constructor
  · intro hexact
    have hlt : obs.length < 2 ^ 64 := by
      rw [← hexact.counted]
      exact UInt64.toNat_lt _
    exact ⟨hlt, (length_mul_rms_sq hne hlt).symm.trans hexact.rms⟩
  · rintro ⟨hlt, hm2⟩
    have hrms : (obs.length : ℝ) * (observed obs : WelfordStats ℝ).rms ^ 2 = total :=
      (length_mul_rms_sq hne hlt).trans hm2
    refine ⟨(tracks_observed hlt).1, hrms, ?_⟩
    intro cycle interval threshold label hi hc ht hexceeds
    rw [checkStats_warns_iff hi hc ht]
    have hpos : (obs.length : ℝ) ≠ 0 := by
      rw [Nat.cast_ne_zero]
      intro hz
      exact hne (List.length_eq_zero_iff.mp hz)
    rw [← hrms, mul_div_cancel_left₀ _ hpos, Real.sqrt_sq (rms_nonneg _)] at hexceeds
    exact hexceeds

/-- The second moment of the errors is the sum of their squared deviations. -/
theorem m2_eq_sumOfDeviations (hne : obs ≠ []) (h : obs.length < 2 ^ 64) :
    (observed obs : WelfordStats ℝ).m2 = sumOfDeviations obs := by
  obtain ⟨-, htracks⟩ := tracks_observed h
  have hmean : (observed obs : WelfordStats ℝ).mean = meanError obs := by
    rw [htracks.mean_eq fun hmap => hne (List.map_eq_nil_iff.mp hmap), errors, List.length_map, meanError, errors]
  rw [sumOfDeviations, ← hmean]
  exact htracks.m2_eq_deviations

/-- **`rms` is the root mean square deviation of the error** from its mean, as long as the observations can be counted, and
the root mean square of the error itself exactly when the errors sum up to `0`. -/
theorem rms_exact_iff (hne : obs ≠ []) : (SpreadExact obs ↔ obs.length < 2 ^ 64) ∧
    (RmsExact obs ↔ obs.length < 2 ^ 64 ∧ (errors obs).sum = 0) := by
  constructor
  · rw [SpreadExact, measures_iff hne]
    exact ⟨fun h => h.1, fun hlt => ⟨hlt, m2_eq_sumOfDeviations hne hlt⟩⟩
  · rw [RmsExact, measures_iff hne]
    exact and_congr_right fun hlt => (tracks_observed hlt).2.m2_eq_iff

/-- Three errors with another mean than 0, and one to either side. -/
theorem rms_exact_iff_three : SpreadExact [(2, 1), (4, 2), (6, 3)] ∧ RmsExact [(3, 1), (-3, -1)] := by
  refine ⟨(rms_exact_iff (by simp)).1.mpr (by simp), (rms_exact_iff (by simp)).2.mpr ⟨by simp, ?_⟩⟩
  have h3 : (3 : Int64).toInt = 3 := by decide
  have hneg : (-3 : Int64).toInt = -3 := by decide
  simp [errors, h3, hneg]

/-- A follower that is 1000 µs off in every cycle. -/
def constantOffset : List (Int64 × Int64) := [(1000, 200), (1000, 200), (1000, 200)]

/-- Its errors have the mean square `1000 ^ 2`, but `rms` is 0, which does not exceed a threshold of 500 µs. -/
theorem rms_exact_counterexample : (observed constantOffset : WelfordStats ℝ).rms = 0 ∧
    sumOfSquares constantOffset / constantOffset.length = 1000 ^ 2 ∧
    (¬∃ rmsUs, .rmsAboveThreshold rmsUs 500 ∈
      (checkStats (observed constantOffset : WelfordStats ℝ) 6 3 500 "sync").2) ∧
    ¬RmsExact constantOffset := by
  have h1000 : (1000 : Int64).toInt = 1000 := by decide
  have hlen : (constantOffset.length : ℝ) = 3 := by norm_num [constantOffset]
  have herrors : errors constantOffset = [1000, 1000, 1000] := by
    simp [errors, constantOffset, h1000]
  have hsquares : sumOfSquares constantOffset = 3 * 1000 ^ 2 := by
    rw [sumOfSquares, herrors]
    norm_num
  have hrms : (observed constantOffset : WelfordStats ℝ).rms = 0 := by
    have hm2 := (tracks_observed (by decide : constantOffset.length < 2 ^ 64)).2.m2_eq
    have hmul := (tracks_observed (by decide : constantOffset.length < 2 ^ 64)).2.mean_mul
    rw [← length_mul_rms_sq (by decide : constantOffset ≠ []) (by decide), hlen] at hm2
    rw [herrors] at hm2 hmul
    simp only [List.length_cons, List.length_nil, List.sum_cons, List.sum_nil, List.map_cons, List.map_nil] at hm2 hmul
    have hmean : (observed constantOffset : WelfordStats ℝ).mean = 1000 := by
      push_cast at hmul
      linarith
    rw [hmean] at hm2
    have hsq : (observed constantOffset : WelfordStats ℝ).rms ^ 2 = 0 := by linarith
    exact pow_eq_zero_iff (two_ne_zero) |>.mp hsq
  refine ⟨hrms, by rw [hsquares, hlen]; norm_num, ?_, ?_⟩
  · rw [checkStats_warns_iff (by decide) (by decide) (by decide), hrms, not_lt]
    exact Nat.cast_nonneg _
  · intro h
    have hexact := h.rms
    rw [hrms, hsquares] at hexact
    norm_num at hexact

end TsfSync.Debugfs
