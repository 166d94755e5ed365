import TsfSync.Debugfs.Convergence
import TsfSync.Lib.Disturbed

/-!
# The closed loop of `run_single` among drift and failed reads

The clocks need not advance alike, and reads may fail (`DriftingLoop`): between two cycles a follower drifts from the
master by at most `D` microseconds, the time between its read and its write included. Each cycle that reads both takes
an error above a bound down by at least one, and leaves one below it below, as soon as the step for the bound outweighs
the drift (`abs_disturbed_le`). So the error of every follower comes below the bound within as many cycles as it is
large, and stays there up to what drifts in cycles whose reads fail (`driftingLoop_bounded`).
-/

namespace TsfSync.Debugfs

open MachineWord

/-! ## The step over the integers -/

section Integers

variable {kpPpm maxStepUs a b D : Int}

/-- Of a larger error a gain of at most one takes more, and leaves more. -/
theorem tdiv_gain_mono (hkp : 0 ≤ kpPpm ∧ kpPpm ≤ 1000000) (ha : 0 ≤ a) (hab : a ≤ b) :
    (a * kpPpm).tdiv 1000000 ≤ (b * kpPpm).tdiv 1000000 ∧
      (b * kpPpm).tdiv 1000000 ≤ (a * kpPpm).tdiv 1000000 + (b - a) := by
  have hna : 0 ≤ a * kpPpm := mul_nonneg ha hkp.1
  have hnb : 0 ≤ b * kpPpm := mul_nonneg (ha.trans hab) hkp.1
  have hle : a * kpPpm ≤ b * kpPpm := mul_le_mul_of_nonneg_right hab hkp.1
  have hgain : (b - a) * kpPpm ≤ (b - a) * 1000000 := mul_le_mul_of_nonneg_left hkp.2 (by omega)
  have hdiff : b * kpPpm = a * kpPpm + (b - a) * kpPpm := by ring
  rw [Int.tdiv_eq_ediv_of_nonneg hna, Int.tdiv_eq_ediv_of_nonneg hnb]
  omega

/-- The step for a larger error is larger, and leaves more. -/
theorem stepUs_mono (hkp : 0 ≤ kpPpm ∧ kpPpm ≤ 1000000) (hmax : 1 ≤ maxStepUs) (ha : 0 ≤ a) (hab : a ≤ b) :
    stepUs kpPpm maxStepUs a ≤ stepUs kpPpm maxStepUs b ∧
      a - stepUs kpPpm maxStepUs a ≤ b - stepUs kpPpm maxStepUs b := by
  rcases ha.eq_or_lt with rfl | hpos
  · have hb := stepUs_between hkp hmax b
    rw [stepUs_zero hmax]
    omega
  · have hgain := tdiv_gain_mono hkp ha hab
    have hga := tdiv_gain hkp hpos
    unfold stepUs
    rw [Int.sign_eq_one_of_pos hpos, Int.sign_eq_one_of_pos (by omega)]
    dsimp only
    split <;> split <;> omega

/-- **A step that outweighs the drift at a bound** takes a larger error down, and leaves a smaller one below the bound. -/
theorem abs_disturbed_le (err : Int) {d bound : Int} (hkp : 0 ≤ kpPpm ∧ kpPpm ≤ 1000000) (hmax : 1 ≤ maxStepUs)
    (hbound : 0 ≤ bound) (hstep : D + 1 ≤ stepUs kpPpm maxStepUs bound) (hd : |d| ≤ D) :
    |err - stepUs kpPpm maxStepUs err + d| ≤ max bound (|err| - 1) := by
  have hdrift := abs_le.mp hd
  -- the step is odd, so only errors ahead of the follower matter
  have key : ∀ {e d : Int}, 0 ≤ e → -D ≤ d → d ≤ D →
      |e - stepUs kpPpm maxStepUs e + d| ≤ max bound (e - 1) := by
    intro e d he hlow hhigh
    have hbe := stepUs_between hkp hmax e
    have hbb := stepUs_between hkp hmax bound
    rw [abs_le]
    rcases le_total e bound with hle | hge
    · have hmono := stepUs_mono hkp hmax he hle
      omega
    · have hmono := stepUs_mono hkp hmax hbound hge
      omega
  rcases le_total 0 err with hpos | hneg
  · rw [abs_of_nonneg hpos]
    exact key hpos hdrift.1 hdrift.2
  · have hflip := key (e := -err) (d := -d) (by omega) (by omega) (by omega)
    rw [stepUs_neg hmax] at hflip
    rw [abs_of_nonpos hneg, ← abs_neg]
    have heq : -(err - stepUs kpPpm maxStepUs err + d) = -err - -stepUs kpPpm maxStepUs err + -d := by ring
    rw [heq]
    exact hflip

end Integers

/-! ## The loop -/

variable {F : Type} [F64 F] {n : Nat}

/-- So many cycles of `run_single` among drift: a read gives the clock or fails, a write sets the clock of its follower,
between two cycles a follower drifts from the master by at most `D`, and the clocks stay below `2^63`. -/
structure DriftingLoop (files : Files n) (controllers : Fin n → Controller F) (clocks : Clocks n) (D cycles : Nat) :
    Prop where
  reads : ∀ k < cycles, (∀ m, files.master k = some m → m = clocks.master k) ∧
    ∀ i f, files.follower i k = some f → f = clocks.follower i k
  drifts : ∀ k < cycles, ∀ i, |(((clocks.master (k + 1)).toNat : Int) - (clocks.master k).toNat) -
    ((clocks.follower i (k + 1)).toNat -
      (((Single.loop files controllers (k + 1)).written i).getD (clocks.follower i k)).toNat)| ≤ D
  bound : ∀ k ≤ cycles, (clocks.master k).toNat < 2 ^ 63 ∧ ∀ i, (clocks.follower i k).toNat < 2 ^ 63

/-- A read that a correction of the follower needs fails in a cycle. -/
def Files.fails (files : Files n) (i : Fin n) (k : Nat) : Bool := (files.master k).isNone || (files.follower i k).isNone

section Loop

variable {files : Files n} {controllers : Fin n → Controller F} {clocks : Clocks n} {D cycles : Nat} {i : Fin n}
  {k : Nat}

/-- A cycle whose reads fail leaves a follower to drift. -/
theorem abs_err_of_fails (hc : ∀ i, (controllers i).Proportional) (h : DriftingLoop files controllers clocks D cycles)
    (hk : k < cycles) (hfails : files.fails i k = true) : |clocks.err i (k + 1)| ≤ |clocks.err i k| + D := by
  have hwritten : (Single.loop files controllers (k + 1)).written i = none := by
    rw [Single.loop_written (fun i => (hc i).clamps), writtenIn]
    rw [Files.fails, Bool.or_eq_true, Option.isNone_iff_eq_none, Option.isNone_iff_eq_none] at hfails
    rcases hfails with hm | hf
    · rw [hm, followerCycle_skip]
    · rw [hf, followerCycle_unread]
  have hdrift := abs_le.mp (h.drifts k hk i)
  rw [hwritten, Option.getD_none] at hdrift
  have habs := abs_le.mp (le_refl |clocks.err i k|)
  rw [abs_le]
  unfold Clocks.err at *
  omega

/-- A cycle that reads both TSFs corrects the follower, which drifts on from there. -/
theorem abs_err_of_reads (hc : ∀ i, (controllers i).Proportional) (h : DriftingLoop files controllers clocks D cycles)
    {bound : Int} (hbound : 0 ≤ bound)
    (hstep : D + 1 ≤ stepUs (controllers i).kpPpm.toInt (controllers i).maxStepUs.toInt bound) (hk : k < cycles)
    (hreads : files.fails i k = false) (hfit : GainFits (controllers i).kpPpm (clocks.master k) (clocks.follower i k)) :
    |clocks.err i (k + 1)| ≤ max bound (|clocks.err i k| - 1) := by
  obtain ⟨written, hcycle, hval⟩ := followerCycle_of_gainFits (hc i) hfit
  have hwritten : (Single.loop files controllers (k + 1)).written i = some written := by
    rw [Single.loop_written (fun i => (hc i).clamps), writtenIn, controllerAfter_of_proportional (hc i)]
    rw [Files.fails, Bool.or_eq_false_iff, Option.isNone_eq_false_iff, Option.isNone_eq_false_iff] at hreads
    obtain ⟨m, hm⟩ := Option.isSome_iff_exists.mp hreads.1
    obtain ⟨f, hf⟩ := Option.isSome_iff_exists.mp hreads.2
    rw [hm, hf, (h.reads k hk).1 m hm, (h.reads k hk).2 i f hf, hcycle]
  have hdrift := h.drifts k hk i
  rw [hwritten, Option.getD_some, hval] at hdrift
  have hstepped := abs_disturbed_le (clocks.err i k) (hc i).kpPpm (hc i).maxStepUs hbound hstep hdrift
  refine le_trans (le_of_eq (congrArg abs ?_)) hstepped
  unfold Clocks.err
  ring

/-- The error grows by at most the drift of every cycle, so the gain fits it if it fits so much. -/
theorem gainFits_drifting (hc : ∀ i, (controllers i).Proportional) (h : DriftingLoop files controllers clocks D cycles)
    {bound : Int} (hbound : 0 ≤ bound)
    (hstep : D + 1 ≤ stepUs (controllers i).kpPpm.toInt (controllers i).maxStepUs.toInt bound)
    (hfit : (max bound |clocks.err i 0| + D * cycles) * (controllers i).kpPpm.toInt < 2 ^ 63) : ∀ k ≤ cycles,
    |clocks.err i k| ≤ max bound |clocks.err i 0| + D * k ∧
      GainFits (controllers i).kpPpm (clocks.master k) (clocks.follower i k) := by
  have hfits : ∀ k ≤ cycles, |clocks.err i k| ≤ max bound |clocks.err i 0| + D * k →
      GainFits (controllers i).kpPpm (clocks.master k) (clocks.follower i k) := by
    intro k hk hle
    obtain ⟨hm, hf⟩ := h.bound k hk
    refine gainFits_of_abs_le (hc i).kpPpm.1 hm (hf i) (hle.trans ?_) hfit
    have hmul : (D : Int) * k ≤ D * cycles := mul_le_mul_of_nonneg_left (by omega) (by omega)
    omega
  intro k
  induction k with
  | zero =>
    intro hk
    have hzero : |clocks.err i 0| ≤ max bound |clocks.err i 0| + D * (0 : Nat) := by simp
    exact ⟨hzero, hfits 0 hk hzero⟩
  | succ k ih =>
    intro hk
    obtain ⟨hle, hgain⟩ := ih (by omega)
    have hnext : |clocks.err i (k + 1)| ≤ max bound |clocks.err i 0| + D * (k + 1 : Nat) := by
      have hmul : (D : Int) * (k + 1 : Nat) = D * k + D := by push_cast; ring
      have hnonneg : (0 : Int) ≤ D * k := mul_nonneg (by omega) (by omega)
      rw [hmul]
      cases hfails : files.fails i k with
      | true =>
        have hdrifted := abs_err_of_fails hc h (by omega) hfails
        omega
      | false =>
        have hcorrected := abs_err_of_reads hc h hbound hstep (by omega) hfails hgain
        omega
    exact ⟨hnext, hfits (k + 1) hk hnext⟩

/-- **Among drift the error of a follower comes below the bound and stays there**: from any cycle on it loses at least one
in every cycle until it is within the bound, up to `D + 1` for each cycle whose reads fail. -/
theorem driftingLoop_bounded (hc : ∀ i, (controllers i).Proportional)
    (h : DriftingLoop files controllers clocks D cycles) {bound : Int} (hbound : 0 ≤ bound)
    (hstep : D + 1 ≤ stepUs (controllers i).kpPpm.toInt (controllers i).maxStepUs.toInt bound)
    (hfit : (max bound |clocks.err i 0| + D * cycles) * (controllers i).kpPpm.toInt < 2 ^ 63) {j : Nat} (hjk : j ≤ k)
    (hk : k ≤ cycles) :
    |clocks.err i k| ≤ max bound (|clocks.err i j| - (k - j)) +
      (D + 1) * ((List.range' j (k - j)).countP (files.fails i) : Nat) := by
  have hgood : ∀ m < k, files.fails i m = false → |clocks.err i (m + 1)| ≤ max bound (|clocks.err i m| - 1) := by
    intro m hm hok
    exact abs_err_of_reads hc h hbound hstep (by omega) hok (gainFits_drifting hc h hbound hstep hfit m (by omega)).2
  have hbad : ∀ m < k, files.fails i m = true → |clocks.err i (m + 1)| ≤ |clocks.err i m| + D := by
    intro m hm hfails
    exact abs_err_of_fails hc h (by omega) hfails
  exact Disturbed.abs_le_of_recovers hgood hbad hjk

end Loop

/-- A follower 3 µs behind that drifts by 1 µs in each of two cycles; the second cannot read the master. -/
def driftingClocks : Clocks 1 := ⟨fun k => [1000, 1010, 1020].getD k 0, fun _ k => [997, 1009, 1018].getD k 0⟩

theorem driftingLoop_bounded_two : |driftingClocks.err 0 2| ≤ max 2 (|driftingClocks.err 0 0| - 2) + 2 := by
  have hloop : DriftingLoop (n := 1)
      ⟨fun k => [some 1000, none].getD k none, fun _ k => [some 997, some 1009].getD k none, 0, 0⟩
      (fun _ => Controller.default) driftingClocks 1 2 := by
    refine ⟨fun k hk => ?_, fun k hk i => ?_, by decide⟩
    · rcases (by omega : k = 0 ∨ k = 1) with rfl | rfl
      · exact ⟨by rintro m ⟨⟩; rfl, by rintro i f ⟨⟩; rfl⟩
      · exact ⟨by rintro m ⟨⟩, by rintro i f ⟨⟩; rfl⟩
    · rw [Subsingleton.elim i 0]
      rcases (by omega : k = 0 ∨ k = 1) with rfl | rfl
      · decide
      · decide
  exact driftingLoop_bounded (i := 0) (fun _ => Controller.proportional_default) hloop (show (0 : Int) ≤ 2 by decide)
    (by decide) (by decide) (Nat.zero_le 2) (Nat.le_refl 2)

end TsfSync.Debugfs
