import TsfSync.Debugfs.Cycles
import TsfSync.Debugfs.Step
import TsfSync.Lib.Approach

/-!
# The closed loop of `run_single`

Between two cycles all clocks advance by the same amount, so the error of a follower changes by what a cycle writes
(`ClosedLoop`). Each cycle takes it strictly closer to `0` and not past it (`approaches_cycle`); the error of every
follower therefore converges (`closedLoop_converges`).
-/

namespace TsfSync.Debugfs

open MachineWord Approach

/-- The TSFs of the master and of the followers when each cycle begins. -/
structure Clocks (n : Nat) where
  master : Nat → UInt64
  follower : Fin n → Nat → UInt64

/-- The error of a follower when a cycle begins. -/
def Clocks.err {n : Nat} (clocks : Clocks n) (i : Fin n) (k : Nat) : Int :=
  (clocks.master k).toNat - (clocks.follower i k).toNat

variable {F : Type} [F64 F] {n : Nat}

/-- So many cycles of `run_single` in a closed loop: the reads give the clocks, a write sets the clock of its follower,
between two cycles all clocks advance by the same amount, and they stay below `2^63`. -/
structure ClosedLoop (files : Files n) (controllers : Fin n → Controller F) (clocks : Clocks n) (cycles : Nat) :
    Prop where
  reads : ∀ k < cycles, files.master k = some (clocks.master k) ∧
    ∀ i, files.follower i k = some (clocks.follower i k)
  advances : ∀ k < cycles, ∃ adv : Nat, (clocks.master (k + 1)).toNat = (clocks.master k).toNat + adv ∧
    ∀ i, (clocks.follower i (k + 1)).toNat =
      (((Single.loop files controllers (k + 1)).written i).getD (clocks.follower i k)).toNat + adv
  bound : ∀ k ≤ cycles, (clocks.master k).toNat < 2 ^ 63 ∧ ∀ i, (clocks.follower i k).toNat < 2 ^ 63

/-! ## One cycle -/

/-- Over the integers a step approaches the master. -/
theorem approaches_stepUs {kpPpm maxStepUs : Int} (hkp : 0 ≤ kpPpm ∧ kpPpm ≤ 1000000) (hmax : 1 ≤ maxStepUs)
    (err : Int) : Approaches err (err - stepUs kpPpm maxStepUs err) := by
  refine ⟨fun hpos => ?_, fun hneg => ?_, fun hzero => ?_⟩
  · have h := stepUs_pos hkp hmax hpos
    omega
  · have h := stepUs_pos hkp hmax (show 0 < -err by omega)
    rw [stepUs_neg hmax] at h
    omega
  · rw [hzero, stepUs_zero hmax]
    rfl

section Cycle

variable {c : Controller F} {masterTsf followerTsf : UInt64}

/-- A gain that fits a larger error fits a smaller one. -/
theorem gainFits_of_abs_le {kpPpm : Int64} (hkp : 0 ≤ kpPpm.toInt) (hm : masterTsf.toNat < 2 ^ 63)
    (hf : followerTsf.toNat < 2 ^ 63) {bound : Int} (hle : |(masterTsf.toNat : Int) - followerTsf.toNat| ≤ bound)
    (hbound : bound * kpPpm.toInt < 2 ^ 63) : GainFits kpPpm masterTsf followerTsf := by
  have hprod : |((masterTsf.toNat : Int) - followerTsf.toNat) * kpPpm.toInt| ≤ bound * kpPpm.toInt := by
    rw [abs_mul, abs_of_nonneg hkp]
    exact mul_le_mul_of_nonneg_right hle hkp
  have habs := abs_le.mp (hprod.trans (Int.le_of_lt hbound))
  exact ⟨iff_of_true hm hf, by omega, lt_of_le_of_lt (le_of_abs_le hprod) hbound⟩

/-- A cycle that reads both TSFs moves the follower by the step for their difference. -/
theorem followerCycle_of_gainFits (hc : c.Proportional) (h : GainFits c.kpPpm masterTsf followerTsf) :
    ∃ written, followerCycle (some masterTsf) (some followerTsf) c = (c, some written) ∧ (written.toNat : Int) =
      followerTsf.toNat +
        stepUs c.kpPpm.toInt c.maxStepUs.toInt ((masterTsf.toNat : Int) - followerTsf.toNat) := by
  obtain ⟨step, err, -, happly, hstep⟩ := apply_of_gainFits hc h
  have hbetween := stepUs_between hc.kpPpm hc.maxStepUs ((masterTsf.toNat : Int) - followerTsf.toNat)
  rw [← hstep] at hbetween
  have hm := masterTsf.toNat_lt
  have hf := followerTsf.toNat_lt
  refine ⟨(followerTsf.toInt64 + step).toUInt64, ?_, ?_⟩
  · simp only [followerCycle, correctFollower, happly]
  · rw [toNat_add_signed (by omega), hstep]

/-- Without the Kalman filter a cycle keeps the controller. -/
theorem followerCycle_controller (hk : c.kalman = none) (master read : Option UInt64) :
    (followerCycle master read c).1 = c := by
  cases master with
  | none => rfl
  | some masterTsf =>
    cases read with
    | none => simp
    | some followerTsf =>
      simp only [followerCycle, correctFollower]
      cases happly : c.apply masterTsf followerTsf with
      | none => rfl
      | some r =>
        simp only [Controller.apply, hk, Controller.filtered] at happly
        split at happly
        · cases happly
        · cases happly
          rw [← hk]

theorem controllerAfter_of_proportional (hc : c.Proportional) (master read : Nat → Option UInt64) (k : Nat) :
    controllerAfter master read c k = c := by
  induction k with
  | zero => rfl
  | succ k ih => rw [controllerAfter, ih, followerCycle_controller hc.kalman]

end Cycle

/-! ## The closed loop -/

section Loop

variable {files : Files n} {controllers : Fin n → Controller F} {clocks : Clocks n} {cycles : Nat}

/-- In a closed loop a cycle takes the error of a follower closer to `0`, if the gain fits it. -/
theorem approaches_cycle (hc : ∀ i, (controllers i).Proportional) (h : ClosedLoop files controllers clocks cycles)
    {i : Fin n} {k : Nat} (hk : k < cycles)
    (hfit : GainFits (controllers i).kpPpm (clocks.master k) (clocks.follower i k)) :
    Approaches (clocks.err i k) (clocks.err i (k + 1)) := by
  obtain ⟨written, hcycle, hval⟩ := followerCycle_of_gainFits (hc i) hfit
  obtain ⟨adv, hmaster, hfollower⟩ := h.advances k hk
  have hwritten : (Single.loop files controllers (k + 1)).written i = some written := by
    rw [Single.loop_written (fun i => (hc i).clamps), writtenIn, controllerAfter_of_proportional (hc i),
      (h.reads k hk).1, (h.reads k hk).2 i, hcycle]
  have hnext := hfollower i
  rw [hwritten, Option.getD_some] at hnext
  have herr : clocks.err i (k + 1) = clocks.err i k -
      stepUs (controllers i).kpPpm.toInt (controllers i).maxStepUs.toInt (clocks.err i k) := by
    have hcast : ((clocks.follower i (k + 1)).toNat : Int) = written.toNat + adv := by exact_mod_cast hnext
    rw [Clocks.err, hmaster, hcast, hval]
    show _ = ((clocks.master k).toNat : Int) - (clocks.follower i k).toNat - _
    rw [Clocks.err]
    push_cast
    omega
  rw [herr]
  exact approaches_stepUs (hc i).kpPpm (hc i).maxStepUs _

/-- **In a closed loop the error of a follower converges**: it gets smaller in every cycle until it is `0`, keeps its
sign, is `0` after as many cycles as it is large, and stays there. -/
theorem closedLoop_converges (hc : ∀ i, (controllers i).Proportional)
    (h : ClosedLoop files controllers clocks cycles) {i : Fin n}
    (hinit : |clocks.err i 0| * (controllers i).kpPpm.toInt < 2 ^ 63) : Converges (clocks.err i) cycles := by
  refine converges_of_approaches fun k hk => ?_
  -- the error has not grown since the first cycle, so the gain still fits it
  have hle : ∀ j ≤ cycles, |clocks.err i j| ≤ |clocks.err i 0| := by
    intro j
    induction j with
    | zero => exact fun _ => le_refl _
    | succ j ih =>
      intro hj
      obtain ⟨hm, hf⟩ := h.bound j (by omega)
      have hstep := approaches_cycle hc h (i := i) (k := j) (by omega)
        (gainFits_of_abs_le (hc i).kpPpm.1 hm (hf i) (ih (by omega)) hinit)
      exact hstep.abs_le.trans (ih (by omega))
  obtain ⟨hm, hf⟩ := h.bound k (by omega)
  exact approaches_cycle hc h hk (gainFits_of_abs_le (hc i).kpPpm.1 hm (hf i) (hle k (by omega)) hinit)

end Loop

/-- A follower 300 µs behind is corrected by 200 µs and then by 100 µs, while all clocks go on. -/
theorem closedLoop_converges_two : Converges
    (Clocks.err (n := 1) ⟨fun k => [1000, 1010, 1020].getD k 0, fun _ k => [700, 910, 1020].getD k 0⟩ 0) 2 := by
  have hloop : ClosedLoop (n := 1)
      ⟨fun k => some ([1000, 1010, 1020].getD k 0), fun _ k => some ([700, 910, 1020].getD k 0), 0, 0⟩
      (fun _ => Controller.default) ⟨fun k => [1000, 1010, 1020].getD k 0, fun _ k => [700, 910, 1020].getD k 0⟩ 2 := by
    refine ⟨fun k _ => ⟨rfl, fun _ => rfl⟩, fun k hk => ⟨10, ?_⟩, by decide⟩
    rcases (by omega : k = 0 ∨ k = 1) with rfl | rfl
    · exact ⟨rfl, fun i => by rw [Subsingleton.elim i 0]; rfl⟩
    · exact ⟨rfl, fun i => by rw [Subsingleton.elim i 0]; rfl⟩
  exact closedLoop_converges (fun _ => Controller.proportional_default) hloop (by decide)

end TsfSync.Debugfs
