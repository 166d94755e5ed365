import Mathlib.Analysis.Convex.Basic
import Mathlib.Tactic.LinearCombination

/-!
# A scalar Kalman filter

A filter keeps an estimate and its covariance. When a measurement comes in, the process noise `q` is added to the
covariance; the estimate then moves toward the measurement by the share that the covariance has in its sum with the
measurement noise `r`, the gain, and the covariance shrinks by as much. From a positive covariance on, the gains stay
between `0` and `1` and the covariance below `r` (`p_run_lt`), so that the estimate never leaves a convex set that holds
where it began and the measurements (`x_run_mem`).
-/

namespace ScalarKalman

/-- An estimate and its covariance. -/
@[ext]
structure Estimate (K : Type) where
  x : K
  p : K

section Field

variable {K : Type} [Field K]

/-- The gain at a covariance, with the process noise added, and a measurement noise. -/
def gain (p r : K) : K := p / (p + r)

/-- The filter after a measurement. -/
def Estimate.update (q r : K) (f : Estimate K) (z : K) : Estimate K :=
  ⟨f.x + gain (f.p + q) r * (z - f.x), (f.p + q) * (1 - gain (f.p + q) r)⟩

/-- The filter after some measurements. -/
def Estimate.run (q r : K) (f : Estimate K) (zs : List K) : Estimate K := zs.foldl (Estimate.update q r) f

variable {q r p : K} {f : Estimate K}

theorem Estimate.run_append (zs : List K) (z : K) : f.run q r (zs ++ [z]) = (f.run q r zs).update q r z := by
  rw [Estimate.run, List.foldl_append]
  rfl

/-- What a covariance shrinks to. -/
theorem mul_one_sub_gain (h : p + r ≠ 0) : p * (1 - gain p r) = r * gain p r := by
  have hgain : gain p r * (p + r) = p := div_mul_cancel₀ p h
  linear_combination -hgain

end Field

variable {K : Type} [Field K] [LinearOrder K] [IsStrictOrderedRing K] {q r p : K} {f : Estimate K}

/-! ## One measurement -/

theorem gain_pos (hp : 0 < p) (hr : 0 < r) : 0 < gain p r := div_pos hp (add_pos hp hr)

theorem gain_lt_one (hp : 0 < p) (hr : 0 < r) : gain p r < 1 := by
  rw [gain, div_lt_one (add_pos hp hr)]
  exact lt_add_of_pos_right p hr

/-- The covariance stays positive. -/
theorem p_update_pos (hq : 0 ≤ q) (hr : 0 < r) (hp : 0 < f.p) (z : K) : 0 < (f.update q r z).p := by
  have hpq : 0 < f.p + q := add_pos_of_pos_of_nonneg hp hq
  exact mul_pos hpq (sub_pos.mpr (gain_lt_one hpq hr))

/-- The covariance is less than the measurement noise. -/
theorem p_update_lt (hq : 0 ≤ q) (hr : 0 < r) (hp : 0 < f.p) (z : K) : (f.update q r z).p < r := by
  have hpq : 0 < f.p + q := add_pos_of_pos_of_nonneg hp hq
  have hshrinks : (f.update q r z).p = r * gain (f.p + q) r := mul_one_sub_gain (add_pos hpq hr).ne'
  rw [hshrinks]
  exact mul_lt_of_lt_one_right hr (gain_lt_one hpq hr)

/-- The estimate stays in a convex set. -/
theorem x_update_mem (hq : 0 ≤ q) (hr : 0 < r) (hp : 0 < f.p) {s : Set K} (hs : Convex K s) (hx : f.x ∈ s) {z : K}
    (hz : z ∈ s) : (f.update q r z).x ∈ s := by
  have hpq : 0 < f.p + q := add_pos_of_pos_of_nonneg hp hq
  exact hs.add_smul_sub_mem hx hz ⟨(gain_pos hpq hr).le, (gain_lt_one hpq hr).le⟩

/-! ## Any number of measurements -/

theorem p_run_pos (hq : 0 ≤ q) (hr : 0 < r) (hp : 0 < f.p) (zs : List K) : 0 < (f.run q r zs).p := by
  induction zs generalizing f with
  | nil => exact hp
  | cons z zs ih => exact ih (p_update_pos hq hr hp z)

/-- After every measurement the covariance is less than the measurement noise. -/
theorem p_run_lt (hq : 0 ≤ q) (hr : 0 < r) (hp : 0 < f.p) (zs : List K) (z : K) : (f.run q r (zs ++ [z])).p < r := by
  rw [Estimate.run_append]
  exact p_update_lt hq hr (p_run_pos hq hr hp zs) z

/-- **The estimate never leaves a convex set that holds where it began and the measurements.** -/
theorem x_run_mem (hq : 0 ≤ q) (hr : 0 < r) (hp : 0 < f.p) {s : Set K} (hs : Convex K s) (hx : f.x ∈ s) {zs : List K}
    (hzs : ∀ z ∈ zs, z ∈ s) : (f.run q r zs).x ∈ s := by
  induction zs generalizing f with
  | nil => exact hx
  | cons z zs ih =>
    rw [List.forall_mem_cons] at hzs
    exact ih (p_update_pos hq hr hp z) (x_update_mem hq hr hp hs hx hzs.1) hzs.2

end ScalarKalman
