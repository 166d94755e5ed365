import TsfSync.Debugfs.Exact
import TsfSync.Debugfs.Stats
import TsfSync.Lib.Moments
import TsfSync.Lib.Word

/-!
# What `WelfordStats` accumulates

Without rounding, the statistics after some observations hold their number, the mean of their errors, the squared
deviations from it and the largest absolute values, whatever the order in which they came (`observed_summarises`). The
number is a `u64`, so there must be fewer than `2^64` of them (`observed_counterexample`).
-/

namespace TsfSync.Debugfs

open MachineWord RunningMoments

variable {F K : Type} [F64 F] [Field K] {obs obs' : List (Int64 × Int64)}

/-! ## The moments -/

/-- The errors of some observations, as numbers. -/
def errorsIn (K : Type) [IntCast K] (obs : List (Int64 × Int64)) : List K := obs.map fun o => (o.1.toInt : K)

/-- The statistics count the observations and hold the running moments of their errors. -/
theorem Exact.tracks_observed [LinearOrder K] [IsStrictOrderedRing K] {value : F → K} (hvalue : Exact value)
    (h : obs.length < 2 ^ 64) : (observed obs : WelfordStats F).n.toNat = obs.length ∧
      Tracks (errorsIn K obs) (value (observed obs).mean) (value (observed obs).m2) := by
  induction obs using List.reverseRecOn with
  | nil =>
    refine ⟨rfl, ?_⟩
    have hzero : value (F64.lit 0) = 0 := by rw [hvalue.lit, Nat.cast_zero]
    show Tracks [] (value (F64.lit 0)) (value (F64.lit 0))
    rw [hzero]
    exact tracks_nil
  | append_singleton obs o ih =>
    rw [List.length_append, List.length_singleton] at h
    obtain ⟨hn, htracks⟩ := ih (by omega)
    have hn' : ((observed obs : WelfordStats F).n + 1).toNat = obs.length + 1 := by
      rw [UInt64.toNat_add, hn]
      show (obs.length + 1) % 2 ^ 64 = obs.length + 1
      omega
    have hcast : value (F64.ofU64 ((observed obs : WelfordStats F).n + 1)) = (errorsIn K obs).length + 1 := by
      rw [hvalue.ofU64, hn', errorsIn, List.length_map, Nat.cast_add, Nat.cast_one]
    have herrors : errorsIn K (obs ++ [o]) = errorsIn K obs ++ [value (F64.ofI64 o.1)] := by
      rw [hvalue.ofI64]
      exact List.map_append
    rw [observed_append, herrors, List.length_append, List.length_singleton]
    refine ⟨hn', ?_⟩
    have hstep := htracks.step (value (F64.ofI64 o.1))
    rw [← hcast] at hstep
    simp only [← hvalue.add, ← hvalue.sub, ← hvalue.mul, ← hvalue.div] at hstep
    exact hstep

/-! ## The largest absolute values -/

/-- `unsigned_abs` is `absW` read as a `u64`. -/
theorem toInt_unsignedAbs {x : Int64} (h : |x.toInt| < 2 ^ 63) : (unsignedAbs x).toInt64.toInt = |x.toInt| := by
  have hgt : -2 ^ 63 < x.toInt := (abs_lt.mp h).1
  have habs : (unsignedAbs x).toInt64 = absW x := by
    unfold unsignedAbs absW
    split <;> rfl
  rw [habs, toInt_absW hgt]

/-- How the statistics keep a maximum. -/
theorem toInt_keepMax {m x : Int64} (h : |x.toInt| < 2 ^ 63) :
    (if m < (unsignedAbs x).toInt64 then (unsignedAbs x).toInt64 else m).toInt = max m.toInt |x.toInt| := by
  rw [← toInt_unsignedAbs h]
  split
  · rename_i hlt
    rw [max_eq_right (Int64.lt_iff_toInt_lt.mp hlt).le]
  · rename_i hle
    rw [max_eq_left (not_lt.mp (mt Int64.lt_iff_toInt_lt.mpr hle))]

/-- The statistics hold the largest absolute values. -/
theorem largest_observed (h : ∀ o ∈ obs, |o.1.toInt| < 2 ^ 63 ∧ |o.2.toInt| < 2 ^ 63) :
    (observed obs : WelfordStats F).maxAbsErr.toInt = largest (obs.map (·.1.toInt)) ∧
    (observed obs : WelfordStats F).maxAbsStep.toInt = largest (obs.map (·.2.toInt)) := by
  induction obs using List.reverseRecOn with
  | nil => exact ⟨rfl, rfl⟩
  | append_singleton obs o ih =>
    obtain ⟨herr, hstep⟩ := ih fun o' ho' => h o' (List.mem_append_left _ ho')
    obtain ⟨herr', hstep'⟩ := h o (List.mem_append_right _ List.mem_cons_self)
    rw [observed_append, List.map_append, List.map_append, List.map_singleton, List.map_singleton, largest_append,
      largest_append, ← herr, ← hstep]
    exact ⟨toInt_keepMax herr', toInt_keepMax hstep'⟩

/-! ## The whole summary -/

attribute [ext] WelfordStats

/-- The statistics summarise the observations, in any order. -/
structure Summarises (obs : List (Int64 × Int64)) : Prop where
  counted : (observed obs : WelfordStats ℚ).n.toNat = obs.length
  mean : (observed obs : WelfordStats ℚ).mean = (errorsIn ℚ obs).sum / obs.length
  m2 : (observed obs : WelfordStats ℚ).m2 =
    ((errorsIn ℚ obs).map fun err => (err - (errorsIn ℚ obs).sum / obs.length) ^ 2).sum
  nonneg : 0 ≤ (observed obs : WelfordStats ℚ).m2
  maxAbsErr : (observed obs : WelfordStats ℚ).maxAbsErr.toInt = largest (obs.map (·.1.toInt))
  maxAbsStep : (observed obs : WelfordStats ℚ).maxAbsStep.toInt = largest (obs.map (·.2.toInt))
  order : ∀ obs' : List (Int64 × Int64), obs'.Perm obs → (observed obs' : WelfordStats ℚ) = observed obs

/-- The mean of fewer than `2^64` observations, 0 where there is none. -/
theorem mean_observed (h : obs.length < 2 ^ 64) :
    (observed obs : WelfordStats ℚ).mean = (errorsIn ℚ obs).sum / obs.length := by
  cases obs with
  | nil =>
    rw [errorsIn, List.map_nil, List.sum_nil, zero_div]
    exact Nat.cast_zero
  | cons o obs =>
    have hmean := (exact_rat.tracks_observed h).2.mean_eq (List.cons_ne_nil _ _)
    have hlen : (errorsIn ℚ (o :: obs)).length = (o :: obs).length := List.length_map _
    rw [hlen] at hmean
    exact hmean

/-- Observations in another order give the same statistics. -/
theorem observed_perm (hperm : obs'.Perm obs) (hlen : obs.length < 2 ^ 64)
    (h : ∀ o ∈ obs, |o.1.toInt| < 2 ^ 63 ∧ |o.2.toInt| < 2 ^ 63) :
    (observed obs' : WelfordStats ℚ) = observed obs := by
  have hlen' : obs'.length < 2 ^ 64 := hperm.length_eq ▸ hlen
  have h' : ∀ o ∈ obs', |o.1.toInt| < 2 ^ 63 ∧ |o.2.toInt| < 2 ^ 63 := fun o ho => h o (hperm.mem_iff.mp ho)
  obtain ⟨hn, htracks⟩ := exact_rat.tracks_observed hlen
  obtain ⟨hn', htracks'⟩ := exact_rat.tracks_observed hlen'
  obtain ⟨herr, hstep⟩ := largest_observed (F := ℚ) h
  obtain ⟨herr', hstep'⟩ := largest_observed (F := ℚ) h'
  by_cases hnil : obs' = []
  · subst hnil
    rw [hperm.nil_eq]
  · have herrors : (errorsIn ℚ obs').Perm (errorsIn ℚ obs) := hperm.map _
    obtain ⟨hmean, hm2⟩ := htracks'.perm htracks (fun hmap => hnil (List.map_eq_nil_iff.mp hmap)) herrors
    have hcount : (observed obs' : WelfordStats ℚ).n = (observed obs : WelfordStats ℚ).n :=
      UInt64.toNat_inj.mp (by rw [hn, hn', hperm.length_eq])
    have hmaxErr : (observed obs' : WelfordStats ℚ).maxAbsErr = (observed obs : WelfordStats ℚ).maxAbsErr :=
      Int64.toInt_inj.mp (by rw [herr, herr', largest_perm (hperm.map _)])
    have hmaxStep : (observed obs' : WelfordStats ℚ).maxAbsStep = (observed obs : WelfordStats ℚ).maxAbsStep :=
      Int64.toInt_inj.mp (by rw [hstep, hstep', largest_perm (hperm.map _)])
    exact WelfordStats.ext hcount hmean hm2 hmaxErr hmaxStep

/-- **The statistics summarise any number of observations that the counter can count**, if no error and no step is the
least `i64`. -/
theorem observed_summarises (hlen : obs.length < 2 ^ 64)
    (h : ∀ o ∈ obs, |o.1.toInt| < 2 ^ 63 ∧ |o.2.toInt| < 2 ^ 63) : Summarises obs := by
  obtain ⟨hn, htracks⟩ := exact_rat.tracks_observed hlen
  obtain ⟨herr, hstep⟩ := largest_observed (F := ℚ) h
  refine ⟨hn, mean_observed hlen, ?_, htracks.nonneg, herr, hstep, fun obs' hperm => observed_perm hperm hlen h⟩
  rw [← mean_observed hlen]
  exact htracks.m2_eq_deviations

/-- Three observations, one of them to the other side. -/
theorem observed_summarises_three : Summarises [(2, 1), (-4, -2), (6, 3)] := by
  refine observed_summarises (by decide) fun o ho => ?_
  simp only [List.mem_cons, List.not_mem_nil, or_false] at ho
  rcases ho with rfl | rfl | rfl <;> decide

/-- `2^64` observations: the counter is 0 again. -/
theorem observed_counterexample : (∀ o ∈ List.replicate (2 ^ 64) ((1, 1) : Int64 × Int64),
      |o.1.toInt| < 2 ^ 63 ∧ |o.2.toInt| < 2 ^ 63) ∧
    ¬Summarises (List.replicate (2 ^ 64) (1, 1)) := by
  refine ⟨fun o ho => ?_, fun h => ?_⟩
  · rw [List.eq_of_mem_replicate ho]
    decide
  · have hn := h.counted
    have hlt := (observed (List.replicate (2 ^ 64) (1, 1)) : WelfordStats ℚ).n.toNat_lt
    rw [hn, List.length_replicate] at hlt
    exact absurd hlt (lt_irrefl _)

end TsfSync.Debugfs
