import TsfSync.Debugfs.Threading
import TsfSync.Lib.Word

/-!
# The step of the proportional controller

Without the Kalman filter `Controller::apply` computes a fixed part of the error, at most `max_step_us` and at least one
microsecond (`stepUs`), which never passes the master (`stepUs_pos`, `stepUs_neg`). The code computes it in `i64`: it
does so without overflow, and on the right side, exactly if both TSFs lie on the same side of `2^63` and the product of
their difference and the gain fits `i64` (`stepsSafely_iff`).
-/

namespace TsfSync.Debugfs

open MachineWord

/-! ## The step over the integers -/

/-- The step for an error: its `kp_ppm` millionth part, truncated, clamped, and never `0` for an error. -/
def stepUs (kpPpm maxStepUs err : Int) : Int :=
  let clamped := max (-maxStepUs) (min ((err * kpPpm).tdiv 1000000) maxStepUs)
  if clamped = 0 ∧ err ≠ 0 then err.sign else clamped

section Integers

variable {kpPpm maxStepUs err : Int}

@[simp] theorem stepUs_zero (hmax : 1 ≤ maxStepUs) : stepUs kpPpm maxStepUs 0 = 0 := by
  unfold stepUs
  rw [Int.zero_mul, Int.zero_tdiv, min_eq_left (by omega), max_eq_right (by omega)]
  simp

theorem stepUs_neg (hmax : 1 ≤ maxStepUs) : stepUs kpPpm maxStepUs (-err) = -stepUs kpPpm maxStepUs err := by
  unfold stepUs
  rw [Int.neg_mul, Int.neg_tdiv, Int.sign_neg]
  dsimp only
  split <;> split <;> omega

/-- A gain of at most one takes at most the error. -/
theorem tdiv_gain (hkp : 0 ≤ kpPpm ∧ kpPpm ≤ 1000000) (herr : 0 < err) :
    0 ≤ (err * kpPpm).tdiv 1000000 ∧ (err * kpPpm).tdiv 1000000 ≤ err := by
  have hnonneg : 0 ≤ err * kpPpm := mul_nonneg (by omega) hkp.1
  have hle : err * kpPpm ≤ err * 1000000 := mul_le_mul_of_nonneg_left hkp.2 (by omega)
  rw [Int.tdiv_eq_ediv_of_nonneg hnonneg]
  omega

/-- The step for a positive error is positive and passes neither the bound nor the error. -/
theorem stepUs_pos (hkp : 0 ≤ kpPpm ∧ kpPpm ≤ 1000000) (hmax : 1 ≤ maxStepUs) (herr : 0 < err) :
    1 ≤ stepUs kpPpm maxStepUs err ∧ stepUs kpPpm maxStepUs err ≤ maxStepUs ∧ stepUs kpPpm maxStepUs err ≤ err := by
  have hgain := tdiv_gain hkp herr
  unfold stepUs
  rw [Int.sign_eq_one_of_pos herr]
  dsimp only
  split <;> omega

/-- What the steps for all errors have in common. -/
theorem stepUs_spec (hkp : 0 ≤ kpPpm ∧ kpPpm ≤ 1000000) (hmax : 1 ≤ maxStepUs) (herr : err ≠ 0) :
    (stepUs kpPpm maxStepUs err).sign = err.sign ∧ 1 ≤ |stepUs kpPpm maxStepUs err| ∧
      |stepUs kpPpm maxStepUs err| ≤ min maxStepUs |err| := by
  rcases Int.lt_or_gt_of_ne herr with hneg | hpos
  · obtain ⟨h1, hm, he⟩ := stepUs_pos hkp hmax (show 0 < -err by omega)
    rw [stepUs_neg hmax] at h1 hm he
    rw [Int.sign_eq_neg_one_of_neg hneg, Int.sign_eq_neg_one_of_neg (by omega), abs_of_neg hneg,
      abs_of_neg (by omega), le_min_iff]
    exact ⟨rfl, h1, hm, he⟩
  · obtain ⟨h1, hm, he⟩ := stepUs_pos hkp hmax hpos
    rw [Int.sign_eq_one_of_pos hpos, Int.sign_eq_one_of_pos (by omega), abs_of_pos hpos, abs_of_pos (by omega),
      le_min_iff]
    exact ⟨rfl, h1, hm, he⟩

/-- The step leads from the follower towards the master and not past it. -/
theorem stepUs_between (hkp : 0 ≤ kpPpm ∧ kpPpm ≤ 1000000) (hmax : 1 ≤ maxStepUs) (err : Int) :
    min 0 err ≤ stepUs kpPpm maxStepUs err ∧ stepUs kpPpm maxStepUs err ≤ max 0 err := by
  rcases Int.lt_trichotomy err 0 with hneg | rfl | hpos
  · have h := stepUs_pos hkp hmax (show 0 < -err by omega)
    rw [stepUs_neg hmax] at h
    omega
  · rw [stepUs_zero hmax]
    omega
  · have h := stepUs_pos hkp hmax hpos
    omega

end Integers

/-! ## The step of the code -/

section Code

variable {F : Type} [F64 F]

/-- `Controller::apply` where an overflow is a panic. -/
def Controller.applyChecked (c : Controller F) (masterTsf followerTsf : UInt64) :
    Option (Controller F × Int64 × Int64) := do
  let rawErr ← subChecked masterTsf.toInt64 followerTsf.toInt64
  let (err, kalman) := filtered c.kalman rawErr
  let product ← mulChecked err c.kpPpm
  let quotient ← divChecked product 1_000_000
  let _ ← negChecked c.maxStepUs
  let step ← clampStep quotient c.maxStepUs err
  return ({ c with kalman }, step, rawErr)

/-- A gain of at most one, a positive bound, no Kalman filter. -/
structure Controller.Proportional (c : Controller F) : Prop where
  kpPpm : 0 ≤ c.kpPpm.toInt ∧ c.kpPpm.toInt ≤ 1000000
  maxStepUs : 1 ≤ c.maxStepUs.toInt
  kalman : c.kalman = none

/-- A step towards the master, bounded by `max_step_us` and by the error, and what it writes to the follower. -/
structure SafeStep (maxStepUs : Int64) (masterTsf followerTsf : UInt64) (step : Int64) (written : UInt64) : Prop where
  zero_iff : step = 0 ↔ masterTsf = followerTsf
  sign : step.toInt.sign = ((masterTsf.toNat : Int) - followerTsf.toNat).sign
  one_le : masterTsf ≠ followerTsf → 1 ≤ |step.toInt|
  le : |step.toInt| ≤ min maxStepUs.toInt |(masterTsf.toNat : Int) - followerTsf.toNat|
  between : min followerTsf.toNat masterTsf.toNat ≤ written.toNat ∧
    written.toNat ≤ max followerTsf.toNat masterTsf.toNat

/-- `apply` and `correct_follower` evaluate without overflow, to a safe step. -/
def StepsSafely (c : Controller F) (masterTsf followerTsf : UInt64) : Prop :=
  ∃ c' step err written, c.applyChecked masterTsf followerTsf = some (c', step, err) ∧
    c.apply masterTsf followerTsf = some (c', step, err) ∧
    (addChecked followerTsf.toInt64 step).isSome ∧
    correctFollower (some followerTsf) c masterTsf = some ⟨c', some written, some (step, err)⟩ ∧
    SafeStep c.maxStepUs masterTsf followerTsf step written

/-- Both TSFs read alike as signed numbers, and the gain applied to their difference fits `i64`. -/
def GainFits (kpPpm : Int64) (masterTsf followerTsf : UInt64) : Prop :=
  (masterTsf.toNat < 2 ^ 63 ↔ followerTsf.toNat < 2 ^ 63) ∧
    -2 ^ 63 ≤ ((masterTsf.toNat : Int) - followerTsf.toNat) * kpPpm.toInt ∧
    ((masterTsf.toNat : Int) - followerTsf.toNat) * kpPpm.toInt < 2 ^ 63

variable {c : Controller F} {masterTsf followerTsf : UInt64}

/-- The forced step of one microsecond. -/
theorem toInt_forced (clamped err : Int64) :
    (if clamped = 0 ∧ err ≠ 0 then if 0 < err then 1 else -1 else clamped).toInt =
      if clamped.toInt = 0 ∧ err.toInt ≠ 0 then err.toInt.sign else clamped.toInt := by
  have hzero : ∀ d : Int64, d.toInt = 0 ↔ d = 0 := fun d => by
    rw [← Int64.toInt_zero, Int64.toInt_inj]
  simp only [ne_eq, hzero, Int64.lt_iff_toInt_lt, Int64.toInt_zero]
  split
  · rename_i hforced
    have hne : err.toInt ≠ 0 := mt (hzero err).mp hforced.2
    split
    · rename_i hpos
      rw [Int.sign_eq_one_of_pos hpos]
      rfl
    · rw [Int.sign_eq_neg_one_of_neg (by omega)]
      rfl
  · rfl

omit [F64 F] in
theorem Controller.Proportional.neg_maxStepUs (hc : c.Proportional) : (-c.maxStepUs).toInt = -c.maxStepUs.toInt := by
  have hmax := hc.maxStepUs
  exact toInt_neg_of_gt (by omega)

omit [F64 F] in
/-- `clamp` finds its bounds in order. -/
theorem Controller.Proportional.clamps (hc : c.Proportional) : clampPanics c.maxStepUs = false := by
  have hmax := hc.maxStepUs
  rw [clampPanics, decide_eq_false_iff_not, Int64.lt_iff_toInt_lt, hc.neg_maxStepUs]
  omega

omit [F64 F] in
/-- `clamp_step` of a quotient that is exact gives the step. -/
theorem clampStep_eq (hc : c.Proportional) {quotient err : Int64}
    (hq : quotient.toInt = (err.toInt * c.kpPpm.toInt).tdiv 1000000) :
    ∃ step, clampStep quotient c.maxStepUs err = some step ∧
      step.toInt = stepUs c.kpPpm.toInt c.maxStepUs.toInt err.toInt := by
  have hmax := hc.maxStepUs
  have hclamped := toInt_clamp (show (-c.maxStepUs).toInt ≤ c.maxStepUs.toInt by rw [hc.neg_maxStepUs]; omega) quotient
  rw [hc.neg_maxStepUs, hq] at hclamped
  rw [clampStep, if_neg (by rw [hc.clamps]; decide)]
  exact ⟨_, rfl, by rw [toInt_forced, hclamped, stepUs]⟩

/-- `apply` without overflow gives the step for the signed difference. -/
theorem applyChecked_eq (hc : c.Proportional) {err : Int64}
    (hsub : err.toInt = masterTsf.toInt64.toInt - followerTsf.toInt64.toInt)
    (hmul : -2 ^ 63 ≤ err.toInt * c.kpPpm.toInt ∧ err.toInt * c.kpPpm.toInt < 2 ^ 63) :
    ∃ step, c.applyChecked masterTsf followerTsf = some (c, step, err) ∧
      c.apply masterTsf followerTsf = some (c, step, err) ∧
      step.toInt = stepUs c.kpPpm.toInt c.maxStepUs.toInt err.toInt := by
  have hsame : { c with kalman := none } = c := by rw [← hc.kalman]
  have herr : masterTsf.toInt64 - followerTsf.toInt64 = err := by
    have hr := toInt_range err
    exact Int64.toInt_inj.mp (by rw [toInt_sub_of_range] <;> omega)
  have hprod : (err * c.kpPpm).toInt = err.toInt * c.kpPpm.toInt := toInt_mul_of_range hmul.1 hmul.2
  have hquot : (err * c.kpPpm / 1_000_000).toInt = (err.toInt * c.kpPpm.toInt).tdiv 1000000 := by
    rw [Int64.toInt_div_of_ne_right _ _ (by decide), hprod]
    rfl
  have hdiv : divChecked (err * c.kpPpm) 1_000_000 = some (err * c.kpPpm / 1_000_000) := by
    rw [divChecked, if_neg (by decide)]
    exact ofIntChecked_of_eq (Int64.toInt_div_of_ne_right _ _ (by decide))
  obtain ⟨neg, hneg, -⟩ := ofIntChecked_of_range (x := -c.maxStepUs.toInt) (by
    have hr := toInt_range c.maxStepUs
    have hmax := hc.maxStepUs
    omega)
  obtain ⟨step, hstep, hval⟩ := clampStep_eq hc hquot
  have hsubc : subChecked masterTsf.toInt64 followerTsf.toInt64 = some err := ofIntChecked_of_eq hsub
  have hmulc : mulChecked err c.kpPpm = some (err * c.kpPpm) := ofIntChecked_of_eq hprod
  refine ⟨step, ?_, ?_, hval⟩
  · simp only [Controller.applyChecked, hsubc, hc.kalman, Controller.filtered, hmulc, hdiv, negChecked, hneg, hstep,
      hsame, Option.bind_eq_bind, Option.bind_some]
    rfl
  · simp only [Controller.apply, herr, hc.kalman, Controller.filtered, hstep, hsame]

/-- Where `apply` does not overflow, its difference and its product are in range. -/
theorem range_of_applyChecked (hc : c.Proportional) {r : Controller F × Int64 × Int64}
    (h : c.applyChecked masterTsf followerTsf = some r) : ∃ err : Int64,
    err.toInt = masterTsf.toInt64.toInt - followerTsf.toInt64.toInt ∧
      -2 ^ 63 ≤ err.toInt * c.kpPpm.toInt ∧ err.toInt * c.kpPpm.toInt < 2 ^ 63 := by
  simp only [Controller.applyChecked, hc.kalman, Controller.filtered, Option.bind_eq_bind] at h
  obtain ⟨err, hsub, h⟩ := Option.bind_eq_some_iff.mp h
  obtain ⟨product, hmul, -⟩ := Option.bind_eq_some_iff.mp h
  have hprod := ofIntChecked_eq_some_iff.mp hmul
  exact ⟨err, ofIntChecked_eq_some_iff.mp hsub, hprod ▸ toInt_range product⟩

/-! ## When the step is safe -/

/-- TSFs on the same side of `2^63` have the difference of the numbers they stand for. -/
theorem toInt64_sub_of_same (h : masterTsf.toNat < 2 ^ 63 ↔ followerTsf.toNat < 2 ^ 63) :
    masterTsf.toInt64.toInt - followerTsf.toInt64.toInt = (masterTsf.toNat : Int) - followerTsf.toNat := by
  by_cases hm : masterTsf.toNat < 2 ^ 63
  · rw [toInt_toInt64_of_lt hm, toInt_toInt64_of_lt (h.mp hm)]
  · have hf : ¬followerTsf.toNat < 2 ^ 63 := mt h.mpr hm
    rw [toInt_toInt64_of_ge (by omega), toInt_toInt64_of_ge (by omega)]
    omega

/-- TSFs on different sides of `2^63` have a signed difference of the wrong sign. -/
theorem sign_sub_of_not_same (h : ¬(masterTsf.toNat < 2 ^ 63 ↔ followerTsf.toNat < 2 ^ 63)) :
    (masterTsf.toInt64.toInt - followerTsf.toInt64.toInt).sign ≠
      ((masterTsf.toNat : Int) - followerTsf.toNat).sign := by
  have hm := masterTsf.toNat_lt
  have hf := followerTsf.toNat_lt
  rcases Nat.lt_or_ge masterTsf.toNat (2 ^ 63) with hlt | hge
  · have hge' : 2 ^ 63 ≤ followerTsf.toNat := by omega
    rw [toInt_toInt64_of_lt hlt, toInt_toInt64_of_ge hge', Int.sign_eq_one_of_pos (by omega),
      Int.sign_eq_neg_one_of_neg (by omega)]
    decide
  · have hlt' : followerTsf.toNat < 2 ^ 63 := by omega
    rw [toInt_toInt64_of_ge hge, toInt_toInt64_of_lt hlt', Int.sign_eq_neg_one_of_neg (by omega),
      Int.sign_eq_one_of_pos (by omega)]
    decide

omit [F64 F] in
/-- The step for the true difference is safe, and what it writes is the follower moved by it. -/
theorem safeStep_of_stepUs (hc : c.Proportional) {step : Int64}
    (h : step.toInt = stepUs c.kpPpm.toInt c.maxStepUs.toInt ((masterTsf.toNat : Int) - followerTsf.toNat)) :
    SafeStep c.maxStepUs masterTsf followerTsf step (followerTsf.toInt64 + step).toUInt64 := by
  have hm := masterTsf.toNat_lt
  have hf := followerTsf.toNat_lt
  have hbetween := stepUs_between hc.kpPpm hc.maxStepUs ((masterTsf.toNat : Int) - followerTsf.toNat)
  rw [← h] at hbetween
  have hwritten := toNat_add_signed (x := followerTsf) (d := step) (by omega)
  have hne : masterTsf ≠ followerTsf ↔ (masterTsf.toNat : Int) - followerTsf.toNat ≠ 0 := by
    rw [ne_eq, ← UInt64.toNat_inj]
    omega
  have hstep : step = 0 ↔ step.toInt = 0 := by rw [← Int64.toInt_zero, Int64.toInt_inj]
  by_cases heq : (masterTsf.toNat : Int) - followerTsf.toNat = 0
  · have hzero : step.toInt = 0 := by rw [h, heq, stepUs_zero hc.maxStepUs]
    have hmax := hc.maxStepUs
    refine ⟨iff_of_true (hstep.mpr hzero) (by_contra fun hn => hne.mp hn heq), by rw [hzero, heq],
      fun hn => absurd heq (hne.mp hn), ?_, by omega⟩
    rw [hzero, heq, abs_zero, le_min_iff]
    omega
  · obtain ⟨hsign, hone, hle⟩ := stepUs_spec hc.kpPpm hc.maxStepUs heq
    rw [← h] at hsign hone hle
    refine ⟨iff_of_false (fun hz => ?_) (hne.mpr heq), hsign, fun _ => hone, hle, by omega⟩
    rw [hstep.mp hz, abs_zero] at hone
    omega

/-- Where the gain fits, `apply` gives the step for the true difference, without overflow, and keeps the controller. -/
theorem apply_of_gainFits (hc : c.Proportional) (h : GainFits c.kpPpm masterTsf followerTsf) :
    ∃ step err, c.applyChecked masterTsf followerTsf = some (c, step, err) ∧
      c.apply masterTsf followerTsf = some (c, step, err) ∧
      step.toInt = stepUs c.kpPpm.toInt c.maxStepUs.toInt ((masterTsf.toNat : Int) - followerTsf.toNat) := by
  obtain ⟨hsame, hmul⟩ := h
  have hm := masterTsf.toNat_lt
  have hf := followerTsf.toNat_lt
  obtain ⟨err, -, herr⟩ := ofIntChecked_of_range (x := (masterTsf.toNat : Int) - followerTsf.toNat) (by omega)
  rw [← herr] at hmul
  obtain ⟨step, hchecked, happly, hstep⟩ := applyChecked_eq hc (by rw [herr, toInt64_sub_of_same hsame]) hmul
  exact ⟨step, err, hchecked, happly, by rw [hstep, herr]⟩

/-- **The step is safe if and only if the gain applied to the difference fits `i64`.** -/
theorem stepsSafely_iff (hc : c.Proportional) (masterTsf followerTsf : UInt64) :
    StepsSafely c masterTsf followerTsf ↔ GainFits c.kpPpm masterTsf followerTsf := by
  constructor
  · rintro ⟨c', step, err, written, hchecked, -, -, -, hsafe⟩
    obtain ⟨err', hsub, hmul⟩ := range_of_applyChecked hc hchecked
    obtain ⟨step', hchecked', -, hstep⟩ := applyChecked_eq hc hsub hmul
    rw [hchecked] at hchecked'
    cases hchecked'
    have hsame : masterTsf.toNat < 2 ^ 63 ↔ followerTsf.toNat < 2 ^ 63 := by
      by_contra hn
      refine sign_sub_of_not_same hn ?_
      rw [← hsafe.sign, hstep, hsub]
      refine (stepUs_spec hc.kpPpm hc.maxStepUs fun hzero => ?_).1.symm
      -- equal as signed numbers, so on the same side
      have heq : masterTsf.toInt64 = followerTsf.toInt64 := Int64.toInt_inj.mp (by omega)
      have heq' := congrArg Int64.toUInt64 heq
      rw [UInt64.toUInt64_toInt64, UInt64.toUInt64_toInt64] at heq'
      exact hn (by rw [heq'])
    rw [hsub, toInt64_sub_of_same hsame] at hmul
    exact ⟨hsame, hmul⟩
  · intro h
    obtain ⟨step, err, hchecked, happly, hstep⟩ := apply_of_gainFits hc h
    have hbetween := stepUs_between hc.kpPpm hc.maxStepUs ((masterTsf.toNat : Int) - followerTsf.toNat)
    rw [← hstep, ← toInt64_sub_of_same h.1] at hbetween
    have hF := toInt_range followerTsf.toInt64
    have hM := toInt_range masterTsf.toInt64
    obtain ⟨sum, hsum, -⟩ := ofIntChecked_of_range (x := followerTsf.toInt64.toInt + step.toInt) (by omega)
    refine ⟨c, step, err, _, hchecked, happly, by rw [addChecked, hsum]; rfl, ?_, safeStep_of_stepUs hc hstep⟩
    simp only [correctFollower, happly]

end Code

/-- The default options. -/
def Controller.default : Controller Float := .new 1_000_000 200 false

theorem Controller.proportional_default : Controller.default.Proportional := ⟨by decide, by decide, rfl⟩

/-- A follower a second behind is stepped safely. -/
theorem stepsSafely_iff_second : StepsSafely .default 2000000 1000000 :=
  (stepsSafely_iff Controller.proportional_default 2000000 1000000).mpr (by unfold GainFits; decide)

/-- A follower that was started 107 days after the master overflows the product of its error and the default gain, and
is stepped the wrong way. -/
theorem stepsSafely_counterexample : ¬StepsSafely .default 9223372036855 0 := by
  rintro ⟨c', step, err, written, hchecked, -⟩
  obtain ⟨err', hsub, hmul⟩ := range_of_applyChecked Controller.proportional_default hchecked
  rw [hsub] at hmul
  exact absurd hmul (by decide)

end TsfSync.Debugfs
