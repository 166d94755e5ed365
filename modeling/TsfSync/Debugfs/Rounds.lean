import TsfSync.Debugfs.Standing

/-!
# The rounds of `run_parallel`

How much each thread has recorded follows from how often it has arrived at barrier2 and where it stands
(`Sampler.Publishes`, `Worker.Follows`), and every step keeps that (`InStep.step`). A worker about to load is one round
short of the sampler's records (`InStep.published_of_load`), because the threads are between the two barriers in the
same round; so what the workers load is what the sampler published in the same round, in order (`rounds_apart`).
-/

namespace TsfSync.Debugfs

open Function CyclicBarrier StepSystem

variable {F : Type} {n : Nat}

/-- Records the sampler has beyond its arrivals at barrier2. -/
def SamplerPc.storing : SamplerPc → Nat
  | .atBarrier1 | .inBarrier1 _ | .atBarrier2 => 1
  | _ => 0

/-- Loads a worker has recorded beyond its arrivals at barrier2. -/
def WorkerPc.loading : WorkerPc → Nat
  | .correct _ | .atBarrier2 | .panicked => 1
  | .top | .atBarrier1 | .inBarrier1 _ | .recheck | .load | .inBarrier2 _ | .done => 0

/-- Corrections a worker has recorded beyond its arrivals at barrier2. -/
def WorkerPc.writing : WorkerPc → Nat
  | .atBarrier2 => 1
  | _ => 0

/-- The sampler's records after so many arrivals at barrier2; the last is the shared TSF. -/
structure Sampler.Publishes (passed : Nat) (masterTsf : UInt64) (p : Sampler F) : Prop where
  length : p.published.length = passed + p.pc.storing
  last : masterTsf = p.published.getLastD 0

/-- A worker's records after so many arrivals at barrier2, next to those of the sampler. -/
structure Worker.Follows (passed : Nat) (published : List UInt64) (w : Worker F) : Prop where
  loaded : w.loaded.length = passed + w.pc.loading
  written : w.written.length = passed + w.pc.writing
  order : w.loaded <+: published
  current : ∀ m, w.pc = .correct m → published[w.written.length]? = some m

/-- All threads keep their records in step. -/
structure InStep (s : Parallel F n) : Prop where
  sampler : s.sampler.Publishes (s.barrier2.arrived none) s.masterTsf
  worker : ∀ i, (s.worker i).Follows (s.barrier2.arrived (some i)) s.sampler.published

/-- More records of the sampler leave a worker where it is. -/
theorem Worker.Follows.append {passed : Nat} {published : List UInt64} {w : Worker F} (h : w.Follows passed published)
    (v : UInt64) : w.Follows passed (published ++ [v]) where
  loaded := h.loaded
  written := h.written
  order := h.order.trans (List.prefix_append _ _)
  current := fun m hm => List.getElem?_append_left (List.getElem?_eq_some_iff.mp (h.current m hm)).1 ▸ h.current m hm

/-- A worker that goes on without a record. -/
theorem Worker.Follows.goTo {passed passed' : Nat} {published : List UInt64} {w : Worker F}
    (h : w.Follows passed published) {pc : WorkerPc} (hl : passed + w.pc.loading = passed' + pc.loading)
    (hw : passed + w.pc.writing = passed' + pc.writing) (hpc : ∀ m, pc ≠ .correct m) (stats : WelfordStats F) :
    Worker.Follows passed' published { w with pc, stats } where
  loaded := h.loaded.trans hl
  written := h.written.trans hw
  order := h.order
  current := fun m hm => absurd hm (hpc m)

/-! ## Each step -/

section Step

variable {s s' : Parallel F n} {i : Fin n}

/-- The sampler goes on without a record. -/
theorem InStep.samplerTo (h : InStep s) {pc : SamplerPc} (hpc : s.sampler.pc.storing = pc.storing)
    (b : Barrier (Option (Fin n))) : InStep ({ s with barrier1 := b }.samplerTo pc) :=
  ⟨⟨h.sampler.length.trans (by rw [hpc]; rfl), h.sampler.last⟩, h.worker⟩

/-- A step of one worker keeps the others in step. -/
theorem InStep.update (h : InStep s) {w : Worker F} {b₁ : Barrier (Option (Fin n))} (b₂ : Barrier (Option (Fin n)))
    {lines : List (Line F)} (hsampler : b₂.arrived none = s.barrier2.arrived none)
    (hothers : ∀ j, j ≠ i → b₂.arrived (some j) = s.barrier2.arrived (some j))
    (hw : w.Follows (b₂.arrived (some i)) s.sampler.published) :
    InStep { s with worker := Function.update s.worker i w, barrier1 := b₁, barrier2 := b₂, lines } := by
  refine ⟨hsampler ▸ h.sampler, fun j => ?_⟩
  by_cases hj : j = i
  · subst hj; simpa using hw
  · simpa [hj, hothers j hj] using h.worker j

/-- A worker that steps without an arrival at barrier2. -/
theorem InStep.update_same (h : InStep s) {w : Worker F} {b : Barrier (Option (Fin n))} {lines : List (Line F)}
    (hw : w.Follows (s.barrier2.arrived (some i)) s.sampler.published) :
    InStep { s with worker := Function.update s.worker i w, barrier1 := b, lines } :=
  h.update s.barrier2 rfl (fun _ _ => rfl) hw

/-- **A worker about to load is one round short of the sampler's records.** -/
theorem InStep.published_of_load (h : InStep s) (hs : s.standing.Sound) (hpc : (s.worker i).pc = .load) :
    s.sampler.published.length = s.barrier2.arrived (some i) + 1 := by
  have hw : s.standing.worker i = .load := hpc
  obtain ⟨hf, hb₁, hb₂⟩ := hs.bounds (some i)
  obtain ⟨hfs, hs₁, hs₂⟩ := hs.bounds none
  have hspare := hs.spare i (by rw [hw]; rfl)
  have hlen := h.sampler.length
  simp only [Standing.phase, hw, WorkerPc.phase, Phase.Fits] at hf
  cases hsp : s.sampler.pc <;>
    simp only [Standing.phase, Standing.lastArrival, Parallel.standing, hsp, SamplerPc.phase, SamplerPc.remaining,
      SamplerPc.storing, Phase.Fits] at * <;> omega

/-- A load records what the sampler published last. -/
theorem InStep.load (h : InStep s) (hs : s.standing.Sound) (hpc : (s.worker i).pc = .load) :
    Worker.Follows (s.barrier2.arrived (some i)) s.sampler.published
      { s.worker i with pc := .correct s.masterTsf, loaded := (s.worker i).loaded ++ [s.masterTsf] } := by
  have hlen := h.published_of_load hs hpc
  obtain ⟨hl, hw, ⟨rest, hrest⟩, -⟩ := h.worker i
  rw [hpc] at hl hw
  -- the sampler has one record that the worker has not loaded
  obtain ⟨v, rfl⟩ : ∃ v, rest = [v] := by
    rw [← List.length_eq_one_iff]
    have := congrArg List.length hrest
    simp only [List.length_append, hl, WorkerPc.loading] at this
    omega
  have hv : s.masterTsf = v := by rw [h.sampler.last, ← hrest]; simp
  rw [hv, ← hrest]
  refine ⟨by simp [hl, WorkerPc.loading], hw, List.prefix_rfl, fun m hm => ?_⟩
  cases hm
  simp [hw, hl, WorkerPc.loading, WorkerPc.writing]

variable [F64 F] {files : Files n}

theorem InStep.samplerStep (h : InStep s) (hstep : s.samplerStep files = some s') : InStep s' := by
  unfold Parallel.samplerStep at hstep
  split at hstep <;> rename_i hpc
  · cases hstep
    refine h.samplerTo ?_ s.barrier1
    rw [hpc]
    split <;> rfl
  · cases hstep
    refine ⟨⟨?_, by simp [Parallel.samplerTo, Parallel.publish]⟩, fun i => (h.worker i).append _⟩
    simpa [Parallel.samplerTo, Parallel.publish, hpc, SamplerPc.storing] using h.sampler.length
  · cases hstep; exact h.samplerTo (by rw [hpc]; rfl) _
  · split at hstep
    · cases hstep; exact h.samplerTo (by rw [hpc]; rfl) s.barrier1
    · cases hstep
  · cases hstep
    refine ⟨⟨?_, h.sampler.last⟩, fun i => ?_⟩
    · simpa [Parallel.samplerTo, hpc, SamplerPc.storing] using h.sampler.length
    · simpa [Parallel.samplerTo] using h.worker i
  · split at hstep
    · cases hstep; exact h.samplerTo (by rw [hpc]; rfl) s.barrier1
    · cases hstep
  · cases hstep
    refine ⟨⟨?_, h.sampler.last⟩, h.worker⟩
    simpa [Parallel.samplerTo, Parallel.report, hpc, SamplerPc.storing] using h.sampler.length
  · cases hstep; exact h.samplerTo (by rw [hpc]; rfl) _
  · split at hstep
    · cases hstep; exact h.samplerTo (by rw [hpc]; rfl) s.barrier1
    · cases hstep
  · split at hstep
    · cases hstep; exact h.samplerTo (by rw [hpc]; rfl) s.barrier1
    · cases hstep
  · cases hstep

/-- A correction records what it wrote, unless the thread panics. -/
theorem InStep.correct {m : UInt64} (h : InStep s) (hpc : (s.worker i).pc = .correct m) :
    InStep (s.correctWorker files i m) := by
  obtain ⟨hl, hw, hord, -⟩ := h.worker i
  rw [hpc] at hl hw
  cases hc : correctFollower (files.follower i (s.worker i).written.length) (s.worker i).controller m with
  | none =>
    simp only [Parallel.correctWorker, hc]
    exact h.update_same ⟨hl, hw, hord, fun _ hm => by cases hm⟩
  | some r =>
    simp only [Parallel.correctWorker, hc]
    exact h.update_same ⟨hl, by simp [hw, WorkerPc.writing], hord, fun _ hm => by cases hm⟩

theorem InStep.workerStep (h : InStep s) (hs : s.standing.Sound) (hstep : s.workerStep files i = some s') :
    InStep s' := by
  have hi := h.worker i
  have hexit : (s.worker i).pc.loading = 0 → (s.worker i).pc.writing = 0 → InStep (s.exitWorker i) := fun hl hw =>
    h.update_same (hi.goTo (by rw [hl]; rfl) (by rw [hw]; rfl) (by nofun) _)
  unfold Parallel.workerStep at hstep
  split at hstep <;> rename_i hpc
  · cases hstep
    split
    · exact h.update_same (hi.goTo (by rw [hpc]; rfl) (by rw [hpc]; rfl) (by nofun) _)
    · exact hexit (by rw [hpc]; rfl) (by rw [hpc]; rfl)
  · cases hstep; exact h.update_same (hi.goTo (by rw [hpc]; rfl) (by rw [hpc]; rfl) (by nofun) _)
  · split at hstep
    · cases hstep; exact h.update_same (hi.goTo (by rw [hpc]; rfl) (by rw [hpc]; rfl) (by nofun) _)
    · cases hstep
  · cases hstep
    split
    · exact h.update_same (hi.goTo (by rw [hpc]; rfl) (by rw [hpc]; rfl) (by nofun) _)
    · exact hexit (by rw [hpc]; rfl) (by rw [hpc]; rfl)
  · cases hstep; exact h.update_same (h.load hs hpc)
  · cases hstep; exact h.correct hpc
  · cases hstep
    refine h.update _ (by simp) (fun j hj => by simp [hj]) (hi.goTo ?_ ?_ (by nofun) _) <;>
      simp [hpc, WorkerPc.loading, WorkerPc.writing]
  · split at hstep
    · cases hstep; exact h.update_same (hi.goTo (by rw [hpc]; rfl) (by rw [hpc]; rfl) (by nofun) _)
    · cases hstep
  · cases hstep
  · cases hstep

/-- **Every step keeps the records in step.** -/
theorem InStep.step {t : Thread n} (h : InStep s) (hs : s.standing.Sound) (hstep : Parallel.step files t s = some s') :
    InStep s' := by
  cases t with
  | sampler => exact h.samplerStep hstep
  | worker i => exact h.workerStep hs hstep
  | signalHandler =>
    simp only [Parallel.step] at hstep
    split at hstep
    · cases hstep; exact ⟨h.sampler, h.worker⟩
    · cases hstep

end Step

/-! ## Every run -/

section Runs

variable [F64 F] {files : Files n} {controllers : Fin n → Controller F} {s : Parallel F n} {sched : List (Thread n)}

theorem inStep_start (controllers : Fin n → Controller F) : InStep (Parallel.start controllers) :=
  ⟨⟨rfl, rfl⟩, fun _ => ⟨rfl, rfl, List.prefix_rfl, nofun⟩⟩

/-- After every run the threads are sound and in step. -/
theorem inStep_runs (h : runs (Parallel.step files) sched (.start controllers) = some s) : InStep s :=
  (runs_inv (P := fun s => s.standing.Sound ∧ InStep s)
    (fun _ _ _ hs hstep => ⟨hs.1.step (step_standing hstep), hs.2.step hs.1 hstep⟩) sched
    ⟨sound_start controllers, inStep_start controllers⟩ h).2

/-- **Rounds never mix**: the shared TSF is what the sampler published last; a worker about to load in a round finds the
sampler's store of that round done and not the next; what it has loaded is, round by round, what the sampler published;
and when the sampler has passed barrier2 every worker has made as many corrections as the sampler has passed it. -/
theorem rounds_apart (h : runs (Parallel.step files) sched (.start controllers) = some s) :
    s.masterTsf = s.sampler.published.getLastD 0 ∧
    (∀ i, (s.worker i).pc = .load → s.sampler.published.length = (s.worker i).loaded.length + 1) ∧
    (∀ i, (s.worker i).loaded <+: s.sampler.published) ∧
    (s.sampler.pc = .report → ∀ i, (s.worker i).written.length = s.barrier2.arrived none) := by
  have hs := sound_runs h
  have hrec := inStep_runs h
  refine ⟨hrec.sampler.last, fun i hpc => ?_, fun i => (hrec.worker i).order, fun hpc i => ?_⟩
  · rw [hrec.published_of_load hs hpc, (hrec.worker i).loaded, hpc]
    rfl
  · have hout : s.standing.meeting.phase none = .outside := by
      show s.sampler.pc.phase = .outside
      rw [hpc]
      rfl
    have hin : s.standing.meeting.phase (some i) ≠ .inside := fun hi => hs.meeting.not_outside hi hout
    have hwriting : (s.worker i).pc.writing = 0 := by
      unfold WorkerPc.writing
      split
      · rename_i hw; exact absurd (congrArg WorkerPc.phase hw) hin
      · rfl
    rw [(hrec.worker i).written, hwriting]
    exact hs.meeting.arrived_of_outside hout (some i)

end Runs

/-- The sampler and one worker, which is about to load, in their first round. -/
theorem rounds_apart_first : ∃ s : Parallel Float 1,
    runs (Parallel.step (lateFollower fun _ => some 1000))
      [.sampler, .sampler, .sampler, lateWorker, lateWorker, lateWorker, lateWorker] (.start lateController) = some s ∧
    (s.worker 0).pc = .load ∧ s.sampler.published.length = (s.worker 0).loaded.length + 1 := by
  have h : runs (Parallel.step (lateFollower fun _ => some 1000))
      [.sampler, .sampler, .sampler, lateWorker, lateWorker, lateWorker, lateWorker]
      (.start lateController) = some _ := rfl
  exact ⟨_, h, rfl, (rounds_apart h).2.1 0 rfl⟩

end TsfSync.Debugfs
