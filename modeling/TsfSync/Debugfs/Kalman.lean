import TsfSync.Debugfs.Exact
import TsfSync.Lib.Kalman
import TsfSync.Lib.Moments
import TsfSync.Lib.Word

/-!
# The Kalman filter of the controller

Without rounding, `KalmanFilter1D` is a scalar Kalman filter (`Exact.toEstimate_update`). Its gain therefore stays between 0
and 1, its covariance below `r`, and its estimate among 0 and the measurements; the error that `apply` computes its step
from has the sign of the raw errors, if they have one, and is no larger than they are (`kalman_bounded`).
-/

namespace TsfSync.Debugfs

open MachineWord RunningMoments ScalarKalman

variable {F K : Type} [F64 F] [Field K]

namespace KalmanFilter1D

/-- `k` of the next update. -/
def gain (kf : KalmanFilter1D F) : F := (kf.p + kf.q) / (kf.p + kf.q + kf.r)

theorem update_eq (kf : KalmanFilter1D F) (z : F) : kf.update z =
    { kf with x := kf.x + kf.gain * (z - kf.x), p := (kf.p + kf.q) * (F64.lit 1 - kf.gain) } := rfl

/-- A new filter after some measurements. -/
def measured (zs : List F) : KalmanFilter1D F := zs.foldl update new

theorem measured_append (zs : List F) (z : F) : measured (zs ++ [z]) = (measured zs).update z := by
  rw [measured, List.foldl_append]
  rfl

/-- An update changes neither noise. -/
theorem noise_measured (zs : List F) : (measured zs).q = F64.lit 50 ∧ (measured zs).r = F64.lit 4000 := by
  induction zs using List.reverseRecOn with
  | nil => exact ⟨rfl, rfl⟩
  | append_singleton zs z ih =>
    rw [measured_append]
    exact ih

/-- The estimate and the covariance, as numbers. -/
def toEstimate (value : F → K) (kf : KalmanFilter1D F) : Estimate K := ⟨value kf.x, value kf.p⟩

end KalmanFilter1D

open KalmanFilter1D

section Exact

variable {value : F → K}

theorem Exact.gain_eq (hvalue : Exact value) (kf : KalmanFilter1D F) :
    value kf.gain = ScalarKalman.gain (value kf.p + value kf.q) (value kf.r) := by
  rw [KalmanFilter1D.gain, hvalue.div, hvalue.add, hvalue.add, hvalue.add]
  rfl

/-- Without rounding an update is that of a scalar Kalman filter. -/
theorem Exact.toEstimate_update (hvalue : Exact value) (kf : KalmanFilter1D F) (z : F) :
    (kf.update z).toEstimate value = (kf.toEstimate value).update (value kf.q) (value kf.r) (value z) := by
  refine Estimate.ext ?_ ?_
  · rw [update_eq]
    show value (kf.x + kf.gain * (z - kf.x)) = _
    rw [hvalue.add, hvalue.mul, hvalue.sub, hvalue.gain_eq]
    rfl
  · rw [update_eq]
    show value ((kf.p + kf.q) * (F64.lit 1 - kf.gain)) = _
    rw [hvalue.mul, hvalue.add, hvalue.sub, hvalue.lit, hvalue.gain_eq, Nat.cast_one]
    rfl

/-- The filter after some measurements is that of a run from 0 with the covariance 1. -/
theorem Exact.toEstimate_measured (hvalue : Exact value) (zs : List F) :
    (measured zs).toEstimate value = Estimate.run 50 4000 ⟨0, 1⟩ (zs.map value) := by
  induction zs using List.reverseRecOn with
  | nil =>
    have hx : value (F64.lit 0) = 0 := by rw [hvalue.lit, Nat.cast_zero]
    have hp : value (F64.lit 1) = 1 := by rw [hvalue.lit, Nat.cast_one]
    exact Estimate.ext hx hp
  | append_singleton zs z ih =>
    have hq : value (measured zs).q = 50 := by rw [(noise_measured zs).1, hvalue.lit, Nat.cast_ofNat]
    have hr : value (measured zs).r = 4000 := by rw [(noise_measured zs).2, hvalue.lit, Nat.cast_ofNat]
    rw [measured_append, hvalue.toEstimate_update, ih, hq, hr, List.map_append, List.map_singleton, Estimate.run_append]

end Exact

/-! ## The bounds -/

/-- What an update with `z` does after the measurements `zs`. -/
structure Bounded (zs : List ℚ) (z : ℚ) : Prop where
  gain : 0 < (measured zs).gain ∧ (measured zs).gain < 1
  covariance : 0 < (measured (zs ++ [z])).p ∧ (measured (zs ++ [z])).p < (measured (zs ++ [z])).r
  estimate : (0 :: (zs ++ [z])).min (List.cons_ne_nil _ _) ≤ (measured (zs ++ [z])).x ∧
    (measured (zs ++ [z])).x ≤ (0 :: (zs ++ [z])).max (List.cons_ne_nil _ _)

section Rational

variable {zs : List ℚ} {z : ℚ}

/-- With rationals the filter is the run itself. -/
theorem toEstimate_measured (zs : List ℚ) : (measured zs).toEstimate id = Estimate.run 50 4000 ⟨0, 1⟩ zs := by
  rw [exact_rat.toEstimate_measured, List.map_id]

theorem p_measured (zs : List ℚ) : (measured zs).p = (Estimate.run 50 4000 ⟨0, 1⟩ zs).p :=
  congrArg Estimate.p (toEstimate_measured zs)

theorem x_measured (zs : List ℚ) : (measured zs).x = (Estimate.run 50 4000 ⟨0, 1⟩ zs).x :=
  congrArg Estimate.x (toEstimate_measured zs)

theorem p_measured_pos (zs : List ℚ) : 0 < (measured zs).p := by
  rw [p_measured]
  exact p_run_pos (by norm_num) (by norm_num) one_pos zs

/-- The estimate lies in an interval that holds 0 and the measurements. -/
theorem x_measured_mem {low high : ℚ} (hzero : low ≤ 0 ∧ 0 ≤ high) (hzs : ∀ z ∈ zs, low ≤ z ∧ z ≤ high) :
    low ≤ (measured zs).x ∧ (measured zs).x ≤ high := by
  have hstart : (⟨0, 1⟩ : Estimate ℚ).x ∈ Set.Icc low high := hzero
  rw [x_measured]
  exact x_run_mem (by norm_num) (by norm_num) one_pos (convex_Icc low high) hstart hzs

/-- Every update of a new filter is bounded. -/
theorem bounded_measured (zs : List ℚ) (z : ℚ) : Bounded zs z := by
  have hq : (measured zs).q = 50 := (noise_measured zs).1
  have hr : (measured zs).r = 4000 := (noise_measured zs).2
  have hr' : (measured (zs ++ [z])).r = 4000 := (noise_measured _).2
  have hpq : 0 < (measured zs).p + 50 := add_pos (p_measured_pos zs) (by norm_num)
  have hgain : (measured zs).gain = ScalarKalman.gain ((measured zs).p + (measured zs).q) (measured zs).r :=
    exact_rat.gain_eq (measured zs)
  refine ⟨?_, ⟨p_measured_pos _, ?_⟩, ?_⟩
  · rw [hgain, hq, hr]
    exact ⟨gain_pos hpq (by norm_num), gain_lt_one hpq (by norm_num)⟩
  · rw [hr', p_measured]
    exact p_run_lt (by norm_num) (by norm_num) one_pos zs z
  · refine x_measured_mem ⟨?_, ?_⟩ fun z' hz' => ⟨?_, ?_⟩
    · exact List.min_le_of_mem List.mem_cons_self
    · exact List.le_max_of_mem List.mem_cons_self
    · exact List.min_le_of_mem (List.mem_cons_of_mem _ hz')
    · exact List.le_max_of_mem (List.mem_cons_of_mem _ hz')

end Rational

/-! ## The filtered errors -/

/-- The raw error of a call of `apply` with these TSFs of the master and of the follower. -/
def rawErr (tsfs : UInt64 × UInt64) : Int64 := tsfs.1.toInt64 - tsfs.2.toInt64

namespace Controller

/-- The controller after calls of `apply` with these TSFs; none if one of them panics. -/
def applyAll (c : Controller F) : List (UInt64 × UInt64) → Option (Controller F)
  | [] => some c
  | tsfs :: calls => do
    let (c, _, _) ← c.apply tsfs.1 tsfs.2
    c.applyAll calls

variable {c c' : Controller F} {tsfs : UInt64 × UInt64} {step err : Int64}

/-- A call of `apply` leaves the filter that `filtered` does. -/
theorem kalman_apply (h : c.apply tsfs.1 tsfs.2 = some (c', step, err)) :
    c'.kalman = (filtered c.kalman (rawErr tsfs)).2 := by
  simp only [apply] at h
  split at h
  · cases h
  · cases h
    rfl

/-- With the filter on, calls of `apply` measure their raw errors. -/
theorem kalman_applyAll {kf : KalmanFilter1D F} (hkalman : c.kalman = some kf) {calls : List (UInt64 × UInt64)}
    (h : c.applyAll calls = some c') :
    c'.kalman = some ((calls.map fun tsfs => F64.ofI64 (rawErr tsfs)).foldl update kf) := by
  induction calls generalizing c kf with
  | nil =>
    cases h
    exact hkalman
  | cons tsfs calls ih =>
    simp only [applyAll, Option.bind_eq_bind, Option.bind_eq_some_iff] at h
    obtain ⟨⟨next, step, err⟩, happly, hrest⟩ := h
    have hnext := kalman_apply happly
    rw [hkalman] at hnext
    exact ih hnext hrest

end Controller

/-- A filtered error is on the side of the raw errors, where they are on one, and is no larger than they are. -/
structure Smoothed (raw : List Int64) (err : Int64) : Prop where
  nonneg : (∀ e ∈ raw, 0 ≤ e.toInt) → 0 ≤ err.toInt
  nonpos : (∀ e ∈ raw, e.toInt ≤ 0) → err.toInt ≤ 0
  magnitude : |err.toInt| ≤ largest (raw.map (·.toInt))

/-- The estimate as an `i64` lies between bounds of the raw errors. -/
theorem toI64_measured_between (raw : List Int64) (low high : Int) (hlow : -2 ^ 63 ≤ low ∧ low ≤ 0)
    (hhigh : 0 ≤ high ∧ high < 2 ^ 63) (h : ∀ e ∈ raw, low ≤ e.toInt ∧ e.toInt ≤ high) :
    low ≤ (F64.toI64 (measured (raw.map F64.ofI64) : KalmanFilter1D ℚ).x).toInt ∧
      (F64.toI64 (measured (raw.map F64.ofI64) : KalmanFilter1D ℚ).x).toInt ≤ high := by
  refine toI64_between hlow hhigh (x_measured_mem ⟨?_, ?_⟩ ?_)
  · exact_mod_cast hlow.2
  · exact_mod_cast hhigh.1
  · intro z hz
    obtain ⟨e, he, rfl⟩ := List.mem_map.mp hz
    exact ⟨Int.cast_le.mpr (h e he).1, Int.cast_le.mpr (h e he).2⟩

/-- No error is larger than the least word. -/
theorem largest_toInt_le (raw : List Int64) : largest (raw.map (·.toInt)) ≤ 2 ^ 63 := by
  refine largest_le_iff.mpr ⟨by decide, fun x hx => ?_⟩
  obtain ⟨e, -, rfl⟩ := List.mem_map.mp hx
  have hrange := toInt_range e
  exact abs_le.mpr (by omega)

/-- The estimate after some raw errors is smoothed. -/
theorem smoothed_measured (raw : List Int64) :
    Smoothed raw (F64.toI64 (measured (raw.map F64.ofI64) : KalmanFilter1D ℚ).x) := by
  refine ⟨fun h => ?_, fun h => ?_, ?_⟩
  · exact (toI64_measured_between raw 0 (2 ^ 63 - 1) (by decide) (by decide) fun e he =>
      ⟨h e he, Int.le_sub_one_of_lt e.toInt_lt⟩).1
  · exact (toI64_measured_between raw (-2 ^ 63) 0 (by decide) (by decide) fun e he => ⟨e.le_toInt, h e he⟩).2
  · have hmax := largest_toInt_le raw
    have hnonneg : 0 ≤ largest (raw.map (·.toInt)) := largest_nonneg
    have hraw : ∀ e ∈ raw, |e.toInt| ≤ largest (raw.map (·.toInt)) := fun e he =>
      abs_le_largest (List.mem_map_of_mem he)
    generalize largest (raw.map (·.toInt)) = bound at *
    obtain ⟨hlow, hhigh⟩ :=
      toI64_measured_between raw (-bound) (min bound (2 ^ 63 - 1)) (by omega) (by omega) fun e he => by
        have habs := abs_le.mp (hraw e he)
        have hrange := toInt_range e
        omega
    exact abs_le.mpr ⟨hlow, hhigh.trans (min_le_left _ _)⟩

/-- **The filter cannot blow up**: every update is bounded, and every error that a controller with the filter on computes
its step from is smoothed. -/
theorem kalman_bounded : (∀ (zs : List ℚ) (z : ℚ), Bounded zs z) ∧
    ∀ (kpPpm maxStepUs : Int64) (calls : List (UInt64 × UInt64)) (tsfs : UInt64 × UInt64) (c : Controller ℚ),
      (Controller.new kpPpm maxStepUs true).applyAll calls = some c →
      Smoothed ((calls ++ [tsfs]).map rawErr) (Controller.filtered c.kalman (rawErr tsfs)).1 := by
  refine ⟨bounded_measured, fun kpPpm maxStepUs calls tsfs c h => ?_⟩
  have hkalman : c.kalman = some (measured ((calls.map rawErr).map F64.ofI64)) := by
    rw [Controller.kalman_applyAll rfl h, List.map_map]
    rfl
  have hfiltered : (Controller.filtered c.kalman (rawErr tsfs)).1 =
      F64.toI64 (measured (((calls ++ [tsfs]).map rawErr).map F64.ofI64) : KalmanFilter1D ℚ).x := by
    rw [hkalman, List.map_append, List.map_append, List.map_singleton, List.map_singleton, measured_append]
    rfl
  rw [hfiltered]
  exact smoothed_measured _

/-- A follower that is 100 µs behind, then 40 µs. -/
theorem kalman_bounded_two : Bounded [100] 40 ∧
    ∃ c : Controller ℚ, (Controller.new 1000000 200 true).applyAll [(1000100, 1000000)] = some c ∧
      Smoothed [100, 40] (Controller.filtered c.kalman 40).1 := by
  obtain ⟨c, hc⟩ : ∃ c : Controller ℚ, (Controller.new 1000000 200 true).applyAll [(1000100, 1000000)] = some c :=
    Option.isSome_iff_exists.mp (by decide)
  exact ⟨kalman_bounded.1 [100] 40, c, hc, kalman_bounded.2 _ _ _ (1000040, 1000000) c hc⟩

end TsfSync.Debugfs
