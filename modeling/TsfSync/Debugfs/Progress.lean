import Mathlib.Tactic.Ring
import TsfSync.Debugfs.Cycles
import TsfSync.Debugfs.Shutdown

/-!
# Progress of `run_parallel`

While `RUNNING` is true and no correction panics, the threads cannot come to a halt (`Standing.Going.not_waits`): at
either barrier somebody has not arrived, and who has not arrived does not wait. Each thread counts its steps: it takes
seven or eight in every round (`Standing.taken`). As no thread is more than a round ahead of another, every schedule, a
fair one or not, goes through as many rounds as it has steps for, and corrects every follower in each (`keeps_going`).
-/

namespace TsfSync.Debugfs

open Function CyclicBarrier StepSystem

variable {F : Type} {n : Nat}

/-- The steps of the sampler since its last arrival at barrier2. -/
def SamplerPc.taken : SamplerPc → Nat
  | .inBarrier2 _ => 0
  | .report => 1
  | .top => 2
  | .read => 3
  | .atBarrier1 => 4
  | .inBarrier1 _ => 5
  | .atBarrier2 => 6
  | .atFinalBarrier1 | .inFinalBarrier1 _ | .join | .done => 0

/-- The steps of a worker since its last arrival at barrier2. -/
def WorkerPc.taken : WorkerPc → Nat
  | .inBarrier2 _ => 0
  | .top => 1
  | .atBarrier1 => 2
  | .inBarrier1 _ => 3
  | .recheck => 4
  | .load => 5
  | .correct _ => 6
  | .atBarrier2 => 7
  | .done | .panicked => 0

namespace Standing

variable {c c' : Standing n} {t : Thread n} {i : Fin n}

/-- The steps of all threads, as if each had begun where it passes barrier2. -/
def taken (c : Standing n) : Nat :=
  7 * c.barrier2.arrived none + c.sampler.taken + ∑ i, (8 * c.barrier2.arrived (some i) + (c.worker i).taken)

/-- `RUNNING` is true and every worker is in its loop. -/
structure Going (c : Standing n) : Prop where
  sound : c.Sound
  running : c.running = true
  worker : ∀ i, (c.worker i).exited = false

/-! ## Nobody waits forever -/

/-- **The threads do not all wait.** -/
theorem Going.not_waits (h : c.Going) (hw : ∀ i, c.Waits (.worker i)) : ¬c.Waits .sampler := by
  have hleft := h.sound.loops h.running
  obtain ⟨hfs, hs₁, hs₂⟩ := h.sound.bounds none
  rintro (hpc | hpc | hpc)
  · -- somebody has not arrived at barrier1
    simp only [phase, hpc, SamplerPc.phase, Phase.Fits] at hfs
    obtain ⟨u, hu : c.barrier1.arrived u = c.barrier1.generation⟩ := h.sound.meeting.counts1.behind
    cases u with
    | none => omega
    | some i =>
      obtain ⟨hf, hb₁, hb₂⟩ := h.sound.bounds (some i)
      rcases hw i with hwait | hwait <;> simp only [phase, hwait, WorkerPc.phase, Phase.Fits] at hf <;> omega
  · simp only [phase, hpc, SamplerPc.phase, Phase.Fits] at hfs
    obtain ⟨u, hu : c.barrier2.arrived u = c.barrier2.generation⟩ := h.sound.meeting.counts2.behind
    cases u with
    | none => omega
    | some i =>
      obtain ⟨hf, hb₁, hb₂⟩ := h.sound.bounds (some i)
      rcases hw i with hwait | hwait <;> simp only [phase, hwait, WorkerPc.phase, Phase.Fits] at hf <;> omega
  · rw [hpc] at hleft
    cases hleft

/-! ## Each step counts -/

theorem sum_succ {g g' : Fin n → Nat} (hi : g' i = g i + 1) (hother : ∀ j, j ≠ i → g' j = g j) :
    ∑ j, g' j = ∑ j, g j + 1 := by
  have hrest : ∑ j ∈ Finset.univ.erase i, g' j = ∑ j ∈ Finset.univ.erase i, g j :=
    Finset.sum_congr rfl fun j hj => hother j (Finset.ne_of_mem_erase hj)
  rw [← Finset.add_sum_erase _ g' (Finset.mem_univ i), ← Finset.add_sum_erase _ g (Finset.mem_univ i), hi, hrest]
  omega

/-- A worker that steps elsewhere than at barrier2. -/
theorem taken_worker {pc : WorkerPc} (hpc : pc.taken = (c.worker i).taken + 1) (b : Barrier (Option (Fin n))) :
    taken { c with worker := update c.worker i pc, barrier1 := b } = c.taken + 1 := by
  have hsum : ∑ j, (8 * c.barrier2.arrived (some j) + (update c.worker i pc j).taken) =
      ∑ j, (8 * c.barrier2.arrived (some j) + (c.worker j).taken) + 1 := by
    refine sum_succ (i := i) ?_ fun j hj => by rw [update_of_ne hj]
    rw [update_self, hpc]
    omega
  simp only [taken, hsum]
  omega

/-- **Every step counts**, but the signal, one that finds `RUNNING` false and one that panics. -/
theorem Step.taken (h : c.Step t c') (hr : c.running = true) (hleft : c.sampler.left = false)
    (ht : t ≠ .signalHandler) (hpanic : ∀ i, c'.worker i ≠ .panicked) : c'.taken = c.taken + 1 := by
  cases h with
  | enter hpc _ => simp only [Standing.taken, hpc, SamplerPc.taken]; omega
  | leave _ hr' => rw [hr] at hr'; cases hr'
  | publish hpc => simp only [Standing.taken, hpc, SamplerPc.taken]; omega
  | arrive1 hpc => simp only [Standing.taken, hpc, SamplerPc.taken]; omega
  | pass1 hpc _ => simp only [Standing.taken, hpc, SamplerPc.taken]; omega
  | arrive2 hpc => simp [Standing.taken, hpc, SamplerPc.taken]; omega
  | pass2 hpc _ => simp only [Standing.taken, hpc, SamplerPc.taken]; omega
  | report hpc => simp only [Standing.taken, hpc, SamplerPc.taken]; omega
  | arriveFinal1 hpc => rw [hpc] at hleft; cases hleft
  | passFinal1 hpc _ => rw [hpc] at hleft; cases hleft
  | join hpc _ => rw [hpc] at hleft; cases hleft
  | workerEnter hpc _ => exact taken_worker (by rw [hpc]; rfl) _
  | workerLeave _ hr' => rw [hr] at hr'; cases hr'
  | workerArrive1 hpc => exact taken_worker (by rw [hpc]; rfl) _
  | workerPass1 hpc _ => exact taken_worker (by rw [hpc]; rfl) _
  | workerRecheck hpc _ => exact taken_worker (by rw [hpc]; rfl) _
  | workerLoad m hpc => exact taken_worker (by rw [hpc]; rfl) _
  | @workerCorrect i m pc hpc hor =>
    rcases hor with rfl | rfl
    · exact taken_worker (by rw [hpc]; rfl) _
    · exact absurd (update_self i WorkerPc.panicked c.worker) (hpanic i)
  | @workerArrive2 i hpc =>
    have hsum : ∑ j, (8 * (c.barrier2.arrive (some i)).arrived (some j) +
        (update c.worker i (.inBarrier2 c.barrier2.generation) j).taken) =
        ∑ j, (8 * c.barrier2.arrived (some j) + (c.worker j).taken) + 1 := by
      refine sum_succ (i := i) ?_ fun j hj => by simp [hj]
      simp [hpc, WorkerPc.taken]
      omega
    simp only [Standing.taken, hsum]
    simp
    omega
  | workerPass2 hpc _ => exact taken_worker (by rw [hpc]; rfl) _
  | signal _ => exact absurd rfl ht

/-- `RUNNING` stays true until the signal, and then workers leave their loops by a panic only. -/
theorem Going.step (h : c.Going) (hs : c.Step t c') (ht : t ≠ .signalHandler) (hpanic : ∀ i, c'.worker i ≠ .panicked) :
    c'.Going := by
  have hsound := h.sound.step hs
  have hr := h.running
  have hmoved : ∀ {i : Fin n} {pc : WorkerPc}, pc.exited = false → ∀ j, (update c.worker i pc j).exited = false := by
    intro i pc hpc j
    by_cases hj : j = i
    · subst hj; simpa using hpc
    · simpa [hj] using h.worker j
  cases hs with
  | leave _ hr' => rw [hr] at hr'; cases hr'
  | workerLeave _ hr' => rw [hr] at hr'; cases hr'
  | signal _ => exact absurd rfl ht
  | @workerCorrect i m pc hpc hor =>
    rcases hor with rfl | rfl
    · exact ⟨hsound, hr, hmoved rfl⟩
    · exact absurd (update_self i WorkerPc.panicked c.worker) (hpanic i)
  | workerEnter | workerArrive1 | workerPass1 | workerRecheck | workerLoad | workerArrive2 | workerPass2 =>
    exact ⟨hsound, hr, hmoved rfl⟩
  | _ => exact ⟨hsound, hr, h.worker⟩

end Standing

/-! ## What a step keeps of the data -/

section Data

variable {s : Parallel F n} {i : Fin n}

/-- Everybody goes on, and no correction can panic. -/
structure Going (s : Parallel F n) : Prop where
  standing : s.standing.Going
  clamps : ∀ i, clampPanics (s.worker i).controller.maxStepUs = false

/-- A worker keeps the bound of its steps, and its thread does not panic. -/
structure KeepsUp (w w' : Worker F) : Prop where
  maxStepUs : w'.controller.maxStepUs = w.controller.maxStepUs
  pc : w.pc ≠ .panicked → w'.pc ≠ .panicked

theorem KeepsUp.refl (w : Worker F) : KeepsUp w w := ⟨rfl, id⟩

theorem keepsUp_update {w : Worker F} (h : KeepsUp (s.worker i) w) (j : Fin n) :
    KeepsUp (s.worker j) (update s.worker i w j) := by
  by_cases hj : j = i
  · subst hj; simpa using h
  · rw [update_of_ne hj]
    exact .refl _

/-- The steps of the threads, next to the rounds that the sampler has begun. -/
theorem InStep.taken_le (h : InStep s) : s.standing.taken ≤ (7 + 8 * n) * s.sampler.published.length + 3 + 5 * n := by
  have hsampler : 7 * s.barrier2.arrived none + s.sampler.pc.taken ≤ 7 * s.sampler.published.length + 3 := by
    have hlen := h.sampler.length
    cases hpc : s.sampler.pc <;> rw [hpc] at hlen <;> simp only [SamplerPc.storing, SamplerPc.taken] at hlen ⊢ <;> omega
  have hworker : ∀ i, 8 * s.barrier2.arrived (some i) + (s.worker i).pc.taken ≤ 8 * s.sampler.published.length + 5 := by
    intro i
    obtain ⟨hloaded, -, horder, -⟩ := h.worker i
    have hle := horder.length_le
    cases hpc : (s.worker i).pc <;> rw [hpc] at hloaded <;> simp only [WorkerPc.loading, WorkerPc.taken] at hloaded ⊢ <;>
      omega
  have hsum := Finset.sum_le_sum fun i (_ : i ∈ Finset.univ) => hworker i
  rw [Finset.sum_const_nat fun _ _ => rfl, Finset.card_univ, Fintype.card_fin] at hsum
  have hrest : (7 + 8 * n) * s.sampler.published.length + 3 + 5 * n =
      7 * s.sampler.published.length + 3 + n * (8 * s.sampler.published.length + 5) := by ring
  rw [hrest]
  exact Nat.add_le_add hsampler hsum

/-- A worker has written for all rounds that the sampler has begun but the last. -/
theorem InStep.written_of_published (h : InStep s) (hs : s.standing.Sound) (i : Fin n) :
    s.sampler.published.length ≤ (s.worker i).written.length + 1 := by
  obtain ⟨-, -, hb₂⟩ := hs.bounds (some i)
  obtain ⟨hfs, hs₁, hs₂⟩ := hs.bounds none
  have hwritten := (h.worker i).written
  have hlen := h.sampler.length
  have hlow : s.barrier2.generation ≤ s.barrier2.arrived (some i) := hb₂.1
  have hup : s.barrier2.arrived none ≤ s.barrier2.generation + 1 := hs₂.2
  cases hpc : s.sampler.pc <;>
    simp only [Standing.phase, Parallel.standing, hpc, SamplerPc.phase, SamplerPc.storing, Phase.Fits] at hfs hlen <;>
    omega

end Data

/-! ## Every run -/

section Runs

variable [F64 F] {files : Files n} {controllers : Fin n → Controller F} {s s' : Parallel F n} {sched : List (Thread n)}
  {t : Thread n}

theorem going_start (hc : ∀ i, clampPanics (controllers i).maxStepUs = false) : Going (.start controllers) :=
  ⟨⟨sound_start controllers, rfl, fun _ => rfl⟩, hc⟩

theorem keepsUp_correct {i : Fin n} {m : UInt64} (hp : clampPanics (s.worker i).controller.maxStepUs = false)
    (j : Fin n) : KeepsUp (s.worker j) ((s.correctWorker files i m).worker j) := by
  have hne : correctFollower (files.follower i (s.worker i).written.length) (s.worker i).controller m ≠ none := fun h => by
    rw [(correctFollower_eq_none.mp h).2] at hp
    cases hp
  obtain ⟨r, hr⟩ := Option.ne_none_iff_exists'.mp hne
  have hmax : r.controller.maxStepUs = (s.worker i).controller.maxStepUs := by
    have hcycle : (followerCycle (some m) (files.follower i (s.worker i).written.length)
        (s.worker i).controller).1.maxStepUs = (s.worker i).controller.maxStepUs := maxStepUs_followerCycle
    simpa only [followerCycle, hr] using hcycle
  simp only [Parallel.correctWorker, hr]
  exact keepsUp_update ⟨hmax, fun _ => by simp⟩ j

/-- No step makes a thread panic. -/
theorem keepsUp_step (h : Going s) (hs : Parallel.step files t s = some s') (i : Fin n) :
    KeepsUp (s.worker i) (s'.worker i) := by
  cases t with
  | signalHandler =>
    simp only [Parallel.step] at hs
    split at hs
    · cases hs; exact .refl _
    · cases hs
  | sampler =>
    have hw : s'.worker = s.worker := by
      simp only [Parallel.step, Parallel.samplerStep] at hs
      split at hs <;> (try split at hs) <;> cases hs <;> rfl
    rw [hw]
    exact .refl _
  | worker j =>
    simp only [Parallel.step, Parallel.workerStep] at hs
    have hto : ∀ {pc : WorkerPc} {b₁ b₂ : Barrier (Option (Fin n))}, pc ≠ .panicked → KeepsUp (s.worker i)
        ((Parallel.workerTo j pc { s with barrier1 := b₁, barrier2 := b₂ }).worker i) := by
      intro pc _ _ hpc
      exact keepsUp_update (w := { s.worker j with pc }) ⟨rfl, fun _ => hpc⟩ i
    have hexit : KeepsUp (s.worker i) ((s.exitWorker j).worker i) := by
      refine keepsUp_update (w := { s.worker j with
        pc := .done, stats := ((s.worker j).stats.printAndReset s!"follower-{j.val}").2.1 }) ⟨rfl, ?_⟩ i
      exact fun _ => by simp
    split at hs
    · cases hs
      split
      · exact hto (by simp)
      · exact hexit
    · cases hs; exact hto (by simp)
    · split at hs
      · cases hs; exact hto (by simp)
      · cases hs
    · cases hs
      split
      · exact hto (by simp)
      · exact hexit
    · cases hs
      refine keepsUp_update (w := { s.worker j with
        pc := .correct s.masterTsf, loaded := (s.worker j).loaded ++ [s.masterTsf] }) ⟨rfl, ?_⟩ i
      exact fun _ => by simp
    · cases hs; exact keepsUp_correct (h.clamps j) i
    · cases hs; exact hto (by simp)
    · split at hs
      · cases hs; exact hto (by simp)
      · cases hs
    · cases hs
    · cases hs

/-- A step other than the signal counts, and everybody goes on. -/
theorem Going.step (h : Going s) (ht : t ≠ .signalHandler) (hs : Parallel.step files t s = some s') :
    Going s' ∧ s'.standing.taken = s.standing.taken + 1 := by
  have hkeeps := keepsUp_step h hs
  have hpanic : ∀ i, s'.standing.worker i ≠ .panicked := by
    intro i
    refine (hkeeps i).pc fun hpc => ?_
    have hin := h.standing.worker i
    rw [show s.standing.worker i = .panicked from hpc] at hin
    cases hin
  have hstep := step_standing hs
  have hleft := h.standing.sound.loops h.standing.running
  refine ⟨⟨h.standing.step hstep ht hpanic, fun i => ?_⟩, hstep.taken h.standing.running hleft ht hpanic⟩
  rw [(hkeeps i).maxStepUs]
  exact h.clamps i

/-- So does a run without the signal. -/
theorem Going.runs (sched : List (Thread n)) : ∀ {s : Parallel F n}, Going s → .signalHandler ∉ sched →
    runs (Parallel.step files) sched s = some s' → Going s' ∧ s'.standing.taken = s.standing.taken + sched.length := by
  induction sched with
  | nil =>
    rintro s h - ⟨⟩
    exact ⟨h, rfl⟩
  | cons t sched ih =>
    intro s h hsig hrun
    obtain ⟨s₁, hs, hrest⟩ := Option.bind_eq_some_iff.mp hrun
    obtain ⟨h₁, htaken₁⟩ := h.step (fun e => hsig (e ▸ List.mem_cons_self)) hs
    obtain ⟨h', htaken⟩ := ih h₁ (fun hmem => hsig (List.mem_cons_of_mem _ hmem)) hrest
    refine ⟨h', ?_⟩
    rw [htaken, htaken₁, List.length_cons]
    omega

/-- Somebody but the signal handler can take a step. -/
theorem Going.exists_step (h : Going s) (files : Files n) :
    ∃ t, t ≠ .signalHandler ∧ (Parallel.step files t s).isSome = true := by
  by_contra hnone
  have hstuck : ∀ t, t ≠ .signalHandler → Parallel.step files t s = none := by
    intro t ht
    by_contra hsome
    exact hnone ⟨t, ht, Option.isSome_iff_ne_none.mpr hsome⟩
  have hw : ∀ i, s.standing.Waits (.worker i) := by
    intro i
    refine (workerStep_eq_none (hstuck (.worker i) (by simp))).resolve_left fun hexited => ?_
    have hin := h.standing.worker i
    rw [show (s.standing.worker i).exited = true from hexited] at hin
    cases hin
  have hleft := h.standing.sound.loops h.standing.running
  rcases samplerStep_eq_none (hstuck .sampler (by simp)) with hpc | ⟨hpc, -⟩ | hwait
  · rw [show s.standing.sampler = .done from hpc] at hleft
    cases hleft
  · rw [show s.standing.sampler = .join from hpc] at hleft
    cases hleft
  · exact h.standing.not_waits hw hwait

/-- **While `RUNNING` is true `run_parallel` keeps going**: after every schedule some thread can take a step, and the
rounds that the sampler has begun are in proportion to the steps, with a correction of every follower in each. -/
theorem keeps_going (hc : ∀ i, clampPanics (controllers i).maxStepUs = false) (hsig : .signalHandler ∉ sched)
    (hrun : runs (Parallel.step files) sched (.start controllers) = some s) :
    (∃ t, t ≠ .signalHandler ∧ (Parallel.step files t s).isSome = true) ∧
      sched.length ≤ (7 + 8 * n) * (s.sampler.published.length + 1) ∧
      ∀ i, s.sampler.published.length ≤ (s.worker i).written.length + 1 := by
  obtain ⟨hgoing, htaken⟩ := (going_start hc).runs sched hsig hrun
  have hstep := inStep_runs hrun
  refine ⟨hgoing.exists_step files, ?_, hstep.written_of_published hgoing.standing.sound⟩
  have hle := hstep.taken_le
  rw [htaken] at hle
  rw [Nat.mul_add, Nat.mul_one]
  omega

/-- A sampler that published one reading, and a worker that waits for it at barrier1. -/
theorem keeps_going_one : ∃ s : Parallel Float 1,
    runs (Parallel.step (lateFollower fun _ => some 1000)) [lateWorker, .sampler, .sampler, .sampler, lateWorker]
      (.start lateController) = some s ∧
    (∃ t, t ≠ .signalHandler ∧ (Parallel.step (lateFollower fun _ => some 1000) t s).isSome = true) ∧
      5 ≤ (7 + 8 * 1) * (s.sampler.published.length + 1) ∧
      ∀ i, s.sampler.published.length ≤ (s.worker i).written.length + 1 := by
  have h : runs (Parallel.step (lateFollower fun _ => some 1000))
      [lateWorker, .sampler, .sampler, .sampler, lateWorker] (.start lateController) = some _ := rfl
  exact ⟨_, h, keeps_going (fun _ => rfl) (by decide) h⟩

end Runs

end TsfSync.Debugfs
