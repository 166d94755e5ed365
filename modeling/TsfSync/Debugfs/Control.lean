import Mathlib.Order.Basic

/-!
# The step controller of `tsf-sync-debugfs`

`KalmanFilter1D`, `Controller` and `clamp_step` of `control.rs`, over what the code asks of `f64` (`F64`), with `i64`
arithmetic that wraps as in a release build. `clamp` panics when its bounds are out of order: then there is no result.
-/

namespace TsfSync.Debugfs

/-- What the code asks of `f64`: literals, arithmetic, `as` conversions, `sqrt` and `>`. -/
class F64 (F : Type) extends Add F, Sub F, Mul F, Div F where
  lit : Nat → F
  ofI64 : Int64 → F
  ofU64 : UInt64 → F
  toI64 : F → Int64
  toU64 : F → UInt64
  sqrt : F → F
  gt : F → F → Bool

instance : F64 Float where
  lit := Float.ofNat
  ofI64 := Int64.toFloat
  ofU64 := UInt64.toFloat
  toI64 := Float.toInt64
  toU64 := Float.toUInt64
  sqrt := Float.sqrt
  gt a b := decide (b < a)

open F64

/-- `KalmanFilter1D`. -/
structure KalmanFilter1D (F : Type) where
  x : F
  p : F
  q : F
  r : F

section Kalman

variable {F : Type} [F64 F]

/-- `KalmanFilter1D::new`. -/
def KalmanFilter1D.new : KalmanFilter1D F := ⟨lit 0, lit 1, lit 50, lit 4000⟩

/-- `KalmanFilter1D::update`: the filter after a measurement; its `x` is the estimate returned. -/
def KalmanFilter1D.update (kf : KalmanFilter1D F) (z : F) : KalmanFilter1D F :=
  let p := kf.p + kf.q
  let k := p / (p + kf.r)
  { kf with x := kf.x + k * (z - kf.x), p := p * (lit 1 - k) }

end Kalman

/-- `Controller`. -/
structure Controller (F : Type) where
  kpPpm : Int64
  maxStepUs : Int64
  kalman : Option (KalmanFilter1D F)

/-- `clamp(-max_step_us, max_step_us)` finds its bounds out of order. -/
def clampPanics (maxStepUs : Int64) : Bool := maxStepUs < -maxStepUs

/-- `clamp_step`; none if `clamp` panics. -/
def clampStep (step maxStepUs err : Int64) : Option Int64 :=
  if clampPanics maxStepUs then none
  else
    let clamped := if step < -maxStepUs then -maxStepUs else if maxStepUs < step then maxStepUs else step
    some (if clamped = 0 ∧ err ≠ 0 then if 0 < err then 1 else -1 else clamped)

/-- `clamp_step` has a result unless `clamp` panics. -/
theorem clampStep_eq_none {step maxStepUs err : Int64} :
    clampStep step maxStepUs err = none ↔ clampPanics maxStepUs = true := by
  unfold clampStep
  split <;> simp_all

namespace Controller

variable {F : Type} [F64 F]

/-- `Controller::new`. -/
def new (kpPpm maxStepUs : Int64) (useKalman : Bool) : Controller F :=
  ⟨kpPpm, maxStepUs, if useKalman then some .new else none⟩

/-- The error that the step is computed from, and the filter after it. -/
def filtered (kalman : Option (KalmanFilter1D F)) (rawErr : Int64) : Int64 × Option (KalmanFilter1D F) :=
  match kalman with
  | some kf => (toI64 (kf.update (ofI64 rawErr)).x, some (kf.update (ofI64 rawErr)))
  | none => (rawErr, none)

/-- `Controller::apply`: the controller afterwards, the step and the raw error; none if `clamp` panics. -/
def apply (c : Controller F) (masterTsf followerTsf : UInt64) : Option (Controller F × Int64 × Int64) :=
  let rawErr := masterTsf.toInt64 - followerTsf.toInt64
  let (err, kalman) := filtered c.kalman rawErr
  match clampStep (err * c.kpPpm / 1_000_000) c.maxStepUs err with
  | none => none
  | some step => some ({ c with kalman }, step, rawErr)

/-- `apply` panics just when `clamp` does, whatever the TSFs are. -/
theorem apply_eq_none {c : Controller F} {masterTsf followerTsf : UInt64} :
    c.apply masterTsf followerTsf = none ↔ clampPanics c.maxStepUs = true := by
  simp only [apply]
  split
  · rename_i h; simp [clampStep_eq_none.mp h]
  · rename_i step h
    have hne : ¬clampPanics c.maxStepUs = true := fun hp => by rw [clampStep_eq_none.mpr hp] at h; cases h
    simp [hne]

/-- A correction leaves the bound of the steps. -/
theorem maxStepUs_apply {c c' : Controller F} {masterTsf followerTsf : UInt64} {step err : Int64}
    (h : c.apply masterTsf followerTsf = some (c', step, err)) : c'.maxStepUs = c.maxStepUs := by
  simp only [apply] at h
  split at h
  · cases h
  · cases h; rfl

end Controller

end TsfSync.Debugfs
