import Mathlib.Algebra.Order.BigOperators.Group.Finset
import TsfSync.Debugfs.Standing

/-!
# Shutdown of `run_parallel`

Once `RUNNING` is false the threads take finitely many steps (`Standing.Step.rank_lt`), the sampler arrives at barrier1
for the last time with a fixed number (`lastArrival`), and no worker can arrive there more often than `reach` says; both
are settled by the state that the signal meets (`Standing.Step.fixed`). When every worker reaches the sampler's last
arrival all threads exit (`Standing.Sound.allExited`), and otherwise some thread is left at a barrier: the last
`barrier1.wait()`, which is there so that the workers can exit, waits for a worker that has left.

The workers reach it just when the signal comes while all of them are at barrier1 and the sampler has passed barrier2
and not yet checked `RUNNING` again (`reach_iff_signalSafe`), so just then the shutdown cannot deadlock
(`shutdown_iff`). The first signal that comes otherwise can leave everybody waiting (`shutdown_counterexample`).
-/

namespace TsfSync.Debugfs

open Function CyclicBarrier StepSystem

variable {F : Type} {n : Nat}

/-! ## The property -/

namespace Standing

/-- The thread waits at a barrier whose generation has not changed. -/
def Waits (c : Standing n) : Thread n → Prop
  | .sampler => c.sampler = .inBarrier1 c.barrier1.generation ∨ c.sampler = .inBarrier2 c.barrier2.generation ∨
      c.sampler = .inFinalBarrier1 c.barrier1.generation
  | .worker i => c.worker i = .inBarrier1 c.barrier1.generation ∨ c.worker i = .inBarrier2 c.barrier2.generation
  | .signalHandler => False

/-- Every thread has ended. -/
def AllExited (c : Standing n) : Prop := c.sampler = .done ∧ ∀ i, (c.worker i).exited = true

/-- **A state the signal may meet**: the sampler has passed barrier2 and not yet checked `RUNNING` again, and every
worker is at barrier1. -/
structure SignalSafe (c : Standing n) : Prop where
  sampler : c.sampler = .top ∨ c.sampler = .report ∨ ∃ g, c.sampler = .inBarrier2 g ∧ c.barrier2.generation ≠ g
  worker : ∀ i, c.worker i = .atBarrier1 ∨ ∃ g, c.worker i = .inBarrier1 g

end Standing

namespace Parallel

variable [F64 F]

/-- `RUNNING` is false, some thread waits at a barrier, and no thread can take a step. -/
def Deadlock (files : Files n) (s : Parallel F n) : Prop :=
  s.running = false ∧ (∃ t, s.standing.Waits t) ∧ Stuck (step files) s

/-- All threads can still exit. -/
def CanExit (files : Files n) (s : Parallel F n) : Prop :=
  ∃ sched s', runs (step files) sched s = some s' ∧ s'.standing.AllExited

end Parallel

/-! ## Finitely many steps -/

/-- The steps that the sampler has left, at most, once `RUNNING` is false. -/
def SamplerPc.rank : SamplerPc → Nat
  | .read => 10
  | .atBarrier1 => 9
  | .inBarrier1 _ => 8
  | .atBarrier2 => 7
  | .inBarrier2 _ => 6
  | .report => 5
  | .top => 4
  | .atFinalBarrier1 => 3
  | .inFinalBarrier1 _ => 2
  | .join => 1
  | .done => 0

/-- The steps that a worker has left, at most, once `RUNNING` is false. -/
def WorkerPc.rank : WorkerPc → Nat
  | .load => 5
  | .correct _ => 4
  | .atBarrier1 | .atBarrier2 => 3
  | .inBarrier1 _ | .inBarrier2 _ => 2
  | .top | .recheck => 1
  | .done | .panicked => 0

namespace Standing

variable {c c' : Standing n} {t : Thread n} {i : Fin n}

/-- The steps left, at most, once `RUNNING` is false. -/
def rank (c : Standing n) : Nat := c.sampler.rank + ∑ i, (c.worker i).rank

theorem sum_rank_update {pc : WorkerPc} (h : pc.rank < (c.worker i).rank) :
    ∑ j, (update c.worker i pc j).rank < ∑ j, (c.worker j).rank := by
  refine Finset.sum_lt_sum (fun j _ => ?_) ⟨i, Finset.mem_univ i, by simpa using h⟩
  by_cases hji : j = i
  · subst hji; simpa using h.le
  · simp [hji]

/-- With `RUNNING` false every step lowers the rank. -/
theorem Step.rank_lt (h : c.Step t c') (hr : c.running = false) : c'.rank < c.rank := by
  cases h with
  | enter hpc hr' => rw [hr] at hr'; cases hr'
  | leave hpc _ => simp [rank, hpc, SamplerPc.rank]
  | publish hpc => simp [rank, hpc, SamplerPc.rank]
  | arrive1 hpc => simp [rank, hpc, SamplerPc.rank]
  | pass1 hpc _ => simp [rank, hpc, SamplerPc.rank]
  | arrive2 hpc => simp [rank, hpc, SamplerPc.rank]
  | pass2 hpc _ => simp [rank, hpc, SamplerPc.rank]
  | report hpc => simp [rank, hpc, SamplerPc.rank]
  | arriveFinal1 hpc => simp [rank, hpc, SamplerPc.rank]
  | passFinal1 hpc _ => simp [rank, hpc, SamplerPc.rank]
  | join hpc _ => simp [rank, hpc, SamplerPc.rank]
  | workerEnter _ hr' => rw [hr] at hr'; cases hr'
  | workerRecheck _ hr' => rw [hr] at hr'; cases hr'
  | workerLeave hpc _ =>
    refine Nat.add_lt_add_left (sum_rank_update ?_) _
    rcases hpc with hpc | hpc <;> simp [hpc, WorkerPc.rank]
  | workerArrive1 hpc => exact Nat.add_lt_add_left (sum_rank_update (by simp [hpc, WorkerPc.rank])) _
  | workerPass1 hpc _ => exact Nat.add_lt_add_left (sum_rank_update (by simp [hpc, WorkerPc.rank])) _
  | workerLoad m hpc => exact Nat.add_lt_add_left (sum_rank_update (by simp [hpc, WorkerPc.rank])) _
  | workerCorrect pc hpc hor =>
    refine Nat.add_lt_add_left (sum_rank_update ?_) _
    rcases hor with rfl | rfl <;> simp [hpc, WorkerPc.rank]
  | workerArrive2 hpc => exact Nat.add_lt_add_left (sum_rank_update (by simp [hpc, WorkerPc.rank])) _
  | workerPass2 hpc _ => exact Nat.add_lt_add_left (sum_rank_update (by simp [hpc, WorkerPc.rank])) _
  | signal hr' => rw [hr] at hr'; cases hr'

/-! ## What the signal settles -/

/-- The most arrivals at barrier1 that worker `i` can have in the end, if `RUNNING` stays false. -/
def reach (c : Standing n) (i : Fin n) : Nat := c.barrier1.arrived (some i) + if c.worker i = .atBarrier1 then 1 else 0

/-- A worker that steps elsewhere reaches the same. -/
theorem reach_update {pc : WorkerPc} (hpc : pc ≠ .atBarrier1) (hi : c.worker i ≠ .atBarrier1)
    (b : Barrier (Option (Fin n))) :
    reach { c with worker := update c.worker i pc, barrier2 := b } = c.reach := by
  funext j
  by_cases hji : j = i
  · subst hji; simp [reach, hpc, hi]
  · simp [reach, hji]

/-- With `RUNNING` false no step changes what a worker reaches. -/
theorem Step.reach (h : c.Step t c') (hr : c.running = false) : c'.reach = c.reach := by
  cases h with
  | enter _ hr' => rw [hr] at hr'; cases hr'
  | leave _ _ => rfl
  | publish _ => rfl
  | arrive1 _ => funext i; simp [Standing.reach]
  | pass1 _ _ => rfl
  | arrive2 _ => rfl
  | pass2 _ _ => rfl
  | report _ => rfl
  | arriveFinal1 _ => funext i; simp [Standing.reach]
  | passFinal1 _ _ => rfl
  | join _ _ => rfl
  | workerEnter _ hr' => rw [hr] at hr'; cases hr'
  | workerRecheck _ hr' => rw [hr] at hr'; cases hr'
  | workerLeave hpc _ => exact reach_update (by nofun) (by rcases hpc with hpc | hpc <;> simp [hpc]) _
  | @workerArrive1 i hpc =>
    funext j
    by_cases hji : j = i
    · subst hji; simp [Standing.reach, hpc]
    · simp [Standing.reach, hji]
  | workerPass1 hpc _ => exact reach_update (by nofun) (by simp [hpc]) _
  | workerLoad m hpc => exact reach_update (by nofun) (by simp [hpc]) _
  | workerCorrect pc hpc hor => exact reach_update (by rcases hor with rfl | rfl <;> nofun) (by simp [hpc]) _
  | workerArrive2 hpc => exact reach_update (by nofun) (by simp [hpc]) _
  | workerPass2 hpc _ => exact reach_update (by nofun) (by simp [hpc]) _
  | signal hr' => rw [hr] at hr'; cases hr'

/-- `RUNNING` stays false. -/
theorem Step.running (h : c.Step t c') (hr : c.running = false) : c'.running = false := by
  cases h <;> first | exact hr | rfl

/-- **With `RUNNING` false no step changes who reaches what.** -/
theorem Step.fixed (h : c.Step t c') (hr : c.running = false) :
    c'.running = false ∧ c'.lastArrival = c.lastArrival ∧ c'.reach = c.reach := by
  refine ⟨h.running hr, h.lastArrival.resolve_right ?_, h.reach hr⟩
  rintro ⟨hr', -⟩
  rw [hr] at hr'
  cases hr'

/-! ## Where nobody steps -/

/-- Nobody can take a step: each worker has ended or waits, and the sampler has ended, waits, or joins a worker. -/
structure Halted (c : Standing n) : Prop where
  worker : ∀ i, (c.worker i).exited = true ∨ c.Waits (.worker i)
  sampler : c.sampler = .done ∨ (c.sampler = .join ∧ ¬∀ i, (c.worker i).exited = true) ∨ c.Waits .sampler

/-- Where nobody steps, all have ended or somebody waits. -/
theorem Halted.allExited_or_waits (h : c.Halted) : c.AllExited ∨ ∃ t, c.Waits t := by
  by_cases hall : ∀ i, (c.worker i).exited = true
  · rcases h.sampler with hd | ⟨-, hn⟩ | hw
    · exact Or.inl ⟨hd, hall⟩
    · exact absurd hall hn
    · exact Or.inr ⟨.sampler, hw⟩
  · obtain ⟨i, hi⟩ := not_forall.mp hall
    exact Or.inr ⟨.worker i, (h.worker i).resolve_left hi⟩

/-- Nobody waits where all have ended. -/
theorem AllExited.not_waits (h : c.AllExited) (t : Thread n) : ¬c.Waits t := by
  obtain ⟨hs, hw⟩ := h
  cases t with
  | sampler => simp [Waits, hs]
  | worker i =>
    have hi := hw i
    rintro (hpc | hpc) <;> simp [hpc, WorkerPc.exited] at hi
  | signalHandler => exact id

/-- A worker that waits or has ended reaches no more than its arrivals. -/
theorem reach_of_halted (hw : (c.worker i).exited = true ∨ c.Waits (.worker i)) :
    c.reach i = c.barrier1.arrived (some i) := by
  have hpc : c.worker i ≠ .atBarrier1 := by
    intro e
    rcases hw with hw | hw | hw <;> simp [e, WorkerPc.exited] at hw
  simp [reach, hpc]

/-- **When every worker reaches the sampler's last arrival, all threads exit.** -/
theorem Sound.allExited (h : c.Sound) (hreach : ∀ i, c.lastArrival ≤ c.reach i) (hh : c.Halted) : c.AllExited := by
  have hw : ∀ i, c.lastArrival ≤ c.barrier1.arrived (some i) := fun i => reach_of_halted (hh.worker i) ▸ hreach i
  obtain ⟨hfs, hs₁, hs₂⟩ := h.bounds none
  -- somebody has not arrived in the current generation; it is neither the sampler nor a worker
  have hsampler : ¬c.Waits .sampler := by
    rintro (hpc | hpc | hpc) <;>
      simp only [lastArrival, phase, hpc, SamplerPc.phase, SamplerPc.remaining, Phase.Fits] at hw hfs
    · obtain ⟨u, hu : c.barrier1.arrived u = c.barrier1.generation⟩ := h.meeting.counts1.behind
      cases u with
      | none => omega
      | some i => have := hw i; omega
    · obtain ⟨u, hu : c.barrier2.arrived u = c.barrier2.generation⟩ := h.meeting.counts2.behind
      cases u with
      | none => omega
      | some i =>
        have := hw i
        obtain ⟨hf, hb₁, hb₂⟩ := h.bounds (some i)
        cases hp : c.worker i <;> simp only [phase, hp, WorkerPc.phase, Phase.Fits] at hf <;> omega
    · obtain ⟨u, hu : c.barrier1.arrived u = c.barrier1.generation⟩ := h.meeting.counts1.behind
      cases u with
      | none => omega
      | some i => have := hw i; omega
  have hends : c.sampler = .done ∨ c.sampler = .join := by
    rcases hh.sampler with hd | ⟨hj, -⟩ | hwait
    · exact Or.inl hd
    · exact Or.inr hj
    · exact absurd hwait hsampler
  have hlast : c.lastArrival = c.barrier1.generation ∧ c.barrier2.generation + 1 ≤ c.lastArrival := by
    rcases hends with hpc | hpc <;>
      simp only [lastArrival, phase, hpc, SamplerPc.phase, SamplerPc.remaining, Phase.Fits] at hfs ⊢ <;> omega
  have hexit : ∀ i, (c.worker i).exited = true := by
    intro i
    refine (hh.worker i).resolve_right ?_
    obtain ⟨hf, hb₁, hb₂⟩ := h.bounds (some i)
    have hspare := h.spare i
    rintro (hpc | hpc) <;> simp only [phase, hpc, WorkerPc.phase, Phase.Fits, WorkerPc.busy] at hf hspare
    · omega
    · have := hspare trivial; omega
  rcases hends with hd | hj
  · exact ⟨hd, hexit⟩
  · rcases hh.sampler with hd | ⟨-, hn⟩ | hwait
    · exact ⟨hd, hexit⟩
    · exact absurd hexit hn
    · exact absurd hwait hsampler

/-- When a worker does not reach the sampler's last arrival, not all threads exit. -/
theorem Sound.not_allExited (h : c.Sound) (hi : c.reach i < c.lastArrival) : ¬c.AllExited := by
  rintro ⟨hpc, -⟩
  obtain ⟨hfs, -, -⟩ := h.bounds none
  obtain ⟨-, hb, -⟩ := h.bounds (some i)
  simp only [lastArrival, phase, hpc, SamplerPc.phase, SamplerPc.remaining, Phase.Fits, reach] at hfs hi
  omega

/-! ## Which states the signal may meet -/

/-- No worker reaches further than the round after the current generation. -/
theorem Sound.reach_le (h : c.Sound) (i : Fin n) : c.reach i ≤ c.barrier1.generation + 1 := by
  obtain ⟨hf, hb, -⟩ := h.bounds (some i)
  unfold reach
  split
  · rename_i hpc
    simp only [phase, hpc, WorkerPc.phase, Phase.Fits] at hf
    omega
  · omega

/-- Only a worker at barrier1 reaches that far, and then the last round was completed. -/
theorem Sound.atBarrier1_of_reach (h : c.Sound) (hi : c.barrier1.generation < c.reach i) :
    (c.worker i = .atBarrier1 ∨ ∃ g, c.worker i = .inBarrier1 g) ∧ c.barrier1.generation ≤ c.barrier2.generation := by
  obtain ⟨hf, -, -⟩ := h.bounds (some i)
  unfold reach at hi
  cases hpc : c.worker i <;> simp only [phase, hpc, WorkerPc.phase, Phase.Fits] at hf <;>
    simp [hpc] at hi ⊢ <;> omega

/-- A worker at barrier1 reaches that far once the sampler has passed barrier2. -/
theorem Sound.reach_of_atBarrier1 (h : c.Sound) (hpc : c.worker i = .atBarrier1 ∨ ∃ g, c.worker i = .inBarrier1 g)
    (hg : c.barrier1.generation ≤ c.barrier2.generation) : c.barrier1.generation < c.reach i := by
  obtain ⟨hf, hb₁, hb₂⟩ := h.bounds (some i)
  rcases hpc with hpc | ⟨g, hpc⟩ <;> simp only [phase, hpc, WorkerPc.phase, Phase.Fits] at hf <;>
    simp [reach, hpc] <;> omega

/-- In its loop the sampler has an arrival to come in the current generation, or later; just when it has passed
barrier2 and the workers have too, in no later one. -/
theorem Sound.lastArrival_loop (h : c.Sound) (hr : c.running = true) :
    c.barrier1.generation < c.lastArrival ∧
      (c.lastArrival ≤ c.barrier1.generation + 1 ∧ c.barrier1.generation ≤ c.barrier2.generation ↔
        c.sampler = .top ∨ c.sampler = .report ∨ ∃ g, c.sampler = .inBarrier2 g ∧ c.barrier2.generation ≠ g) := by
  obtain ⟨hf, hb₁, hb₂⟩ := h.bounds none
  have hleft := h.loops hr
  cases hpc : c.sampler <;>
    simp only [phase, lastArrival, hpc, SamplerPc.phase, SamplerPc.remaining, SamplerPc.left, Phase.Fits,
      Bool.true_eq_false] at hf hleft ⊢ <;>
    simp <;> omega

/-- **The workers reach the sampler's last arrival just when the signal meets a safe state.** -/
theorem Sound.reach_iff_signalSafe (h : c.Sound) (hn : 0 < n) (hr : c.running = true) :
    (∀ i, c.lastArrival ≤ c.reach i) ↔ c.SignalSafe := by
  obtain ⟨hlow, hiff⟩ := h.lastArrival_loop hr
  constructor
  · intro hall
    have hi : ∀ i, c.barrier1.generation < c.reach i := fun i => hlow.trans_le (hall i)
    have hg := (h.atBarrier1_of_reach (hi ⟨0, hn⟩)).2
    refine ⟨hiff.mp ⟨(hall ⟨0, hn⟩).trans (h.reach_le _), hg⟩, fun i => (h.atBarrier1_of_reach (hi i)).1⟩
  · rintro ⟨hs, hw⟩ i
    obtain ⟨hle, hg⟩ := hiff.mpr hs
    have := h.reach_of_atBarrier1 (hw i) hg
    omega

end Standing

/-! ## The shutdown -/

section Shutdown

variable [F64 F] {files : Files n} {controllers : Fin n → Controller F} {s s' : Parallel F n} {sched : List (Thread n)}

theorem workerStep_eq_none {i : Fin n} (h : s.workerStep files i = none) :
    (s.worker i).pc.exited = true ∨ s.standing.Waits (.worker i) := by
  unfold Parallel.workerStep at h
  split at h <;> rename_i hpc <;> first | cases h | skip
  · split at h
    · cases h
    · rename_i hg; exact Or.inr (Or.inl (by simpa [Parallel.standing, not_not.mp hg] using hpc))
  · split at h
    · cases h
    · rename_i hg; exact Or.inr (Or.inr (by simpa [Parallel.standing, not_not.mp hg] using hpc))
  · exact Or.inl (by simp [hpc, WorkerPc.exited])
  · exact Or.inl (by simp [hpc, WorkerPc.exited])

theorem samplerStep_eq_none (h : s.samplerStep files = none) :
    s.sampler.pc = .done ∨ (s.sampler.pc = .join ∧ ¬∀ i, (s.worker i).pc.exited = true) ∨ s.standing.Waits .sampler := by
  unfold Parallel.samplerStep at h
  split at h <;> rename_i hpc <;> first | cases h | skip
  · split at h
    · cases h
    · rename_i hg; exact Or.inr (Or.inr (Or.inl (by simpa [Parallel.standing, not_not.mp hg] using hpc)))
  · split at h
    · cases h
    · rename_i hg; exact Or.inr (Or.inr (Or.inr (Or.inl (by simpa [Parallel.standing, not_not.mp hg] using hpc))))
  · split at h
    · cases h
    · rename_i hg; exact Or.inr (Or.inr (Or.inr (Or.inr (by simpa [Parallel.standing, not_not.mp hg] using hpc))))
  · split at h
    · cases h
    · rename_i hn; exact Or.inr (Or.inl ⟨hpc, hn⟩)
  · exact Or.inl hpc

theorem halted_of_stuck (h : Stuck (Parallel.step files) s) : s.standing.Halted :=
  ⟨fun i => workerStep_eq_none (h (.worker i)), samplerStep_eq_none (h .sampler)⟩

/-- After the signal: `RUNNING` is false, and who reaches what is as the signal found it. -/
structure Signalled (lastArrival : Nat) (reach : Fin n → Nat) (s : Parallel F n) : Prop where
  sound : s.standing.Sound
  stopped : s.running = false
  last : s.standing.lastArrival = lastArrival
  reach : s.standing.reach = reach

/-- Every step after the signal keeps that. -/
theorem Signalled.step {l : Nat} {r : Fin n → Nat} {t : Thread n} (h : Signalled l r s)
    (hs : Parallel.step files t s = some s') : Signalled l r s' := by
  have hstep := step_standing hs
  obtain ⟨hr, hl, hre⟩ := hstep.fixed h.stopped
  exact ⟨h.sound.step hstep, hr, hl.trans h.last, hre.trans h.reach⟩

/-- After the signal the threads come to a halt. -/
theorem Signalled.exists_stuck {l : Nat} {r : Fin n → Nat} (files : Files n) (h : Signalled l r s) : ∃ more s',
    runs (Parallel.step files) more s = some s' ∧ Signalled l r s' ∧ Stuck (Parallel.step files) s' := by
  obtain ⟨more, s', hrun, hstuck⟩ := StepSystem.exists_stuck (P := Signalled l r)
    (fun _ _ _ hp (hs : Parallel.step files _ _ = _) => hp.step hs) (fun s => s.standing.rank)
    (fun _ _ _ hp hs => (step_standing hs).rank_lt hp.stopped) s h
  exact ⟨more, s', hrun, runs_inv (P := Signalled l r) (fun _ _ _ hp hs => hp.step hs) more h hrun, hstuck⟩

/-- A run that begins with the signal. -/
theorem runs_signal {after : List (Thread n)} (h : s.standing.Sound) (hr : s.running = true)
    (hrun : runs (Parallel.step files) (.signalHandler :: after) s = some s') :
    Signalled s.standing.lastArrival s.standing.reach s' := by
  have hsig : Parallel.step files .signalHandler s = some { s with running := false } := if_pos hr
  rw [runs, hsig, Option.bind_some] at hrun
  have hfirst : Signalled s.standing.lastArrival s.standing.reach { s with running := false } :=
    ⟨h.step (step_standing hsig), rfl, rfl, rfl⟩
  exact runs_inv (P := Signalled _ _) (fun _ _ _ hp hs => hp.step hs) after hfirst hrun

/-- When every worker reaches the sampler's last arrival there is no deadlock and all threads can exit. -/
theorem Signalled.safe {l : Nat} {r : Fin n → Nat} (h : Signalled l r s) (hreach : ∀ i, l ≤ r i) :
    ¬s.Deadlock files ∧ s.CanExit files := by
  have hexit : ∀ {s' : Parallel F n}, Signalled l r s' → Stuck (Parallel.step files) s' → s'.standing.AllExited := by
    intro s' h' hstuck
    refine h'.sound.allExited (fun i => ?_) (halted_of_stuck hstuck)
    rw [h'.last, h'.reach]
    exact hreach i
  constructor
  · rintro ⟨-, ⟨t, ht⟩, hstuck⟩
    exact (hexit h hstuck).not_waits t ht
  · obtain ⟨more, s', hrun, h', hstuck⟩ := h.exists_stuck files
    exact ⟨more, s', hrun, hexit h' hstuck⟩

/-- When some worker does not, the threads can come to a deadlock, and then they cannot exit. -/
theorem Signalled.deadlock {l : Nat} {r : Fin n → Nat} {i : Fin n} (files : Files n) (h : Signalled l r s)
    (hi : r i < l) :
    ∃ more s', runs (Parallel.step files) more s = some s' ∧ s'.Deadlock files ∧ ¬s'.CanExit files := by
  obtain ⟨more, s', hrun, h', hstuck⟩ := h.exists_stuck files
  have hnot : ¬s'.standing.AllExited := h'.sound.not_allExited (i := i) (by rw [h'.last, h'.reach]; exact hi)
  refine ⟨more, s', hrun, ⟨h'.stopped, ?_, hstuck⟩, ?_⟩
  · exact (halted_of_stuck hstuck).allExited_or_waits.resolve_left hnot
  · rintro ⟨more', s'', hrun', hall⟩
    rw [runs_of_stuck hstuck hrun'] at hall
    exact hnot hall

/-- **The shutdown cannot deadlock, and all threads can exit, just when the signal meets a safe state.** -/
theorem shutdown_iff (hn : 0 < n) (h : runs (Parallel.step files) sched (.start controllers) = some s)
    (hr : s.running = true) :
    ((∀ after s', runs (Parallel.step files) (.signalHandler :: after) s = some s' → ¬s'.Deadlock files) ↔
      s.standing.SignalSafe) ∧
    ((∀ after s', runs (Parallel.step files) (.signalHandler :: after) s = some s' → s'.CanExit files) ↔
      s.standing.SignalSafe) := by
  have hsound := sound_runs h
  rw [← hsound.reach_iff_signalSafe hn hr]
  have hsafe : (∀ i, s.standing.lastArrival ≤ s.standing.reach i) → ∀ after s',
      runs (Parallel.step files) (.signalHandler :: after) s = some s' → ¬s'.Deadlock files ∧ s'.CanExit files :=
    fun hall after s' hrun => (runs_signal hsound hr hrun).safe hall
  -- a worker that falls short gives a run from the signal to a deadlock
  have hshort : (¬∀ i, s.standing.lastArrival ≤ s.standing.reach i) → ∃ after s',
      runs (Parallel.step files) (.signalHandler :: after) s = some s' ∧ s'.Deadlock files ∧ ¬s'.CanExit files := by
    intro hnot
    obtain ⟨i, hi⟩ := not_forall.mp hnot
    have hsig : runs (Parallel.step files) [.signalHandler] s = some { s with running := false } := by
      simp [runs, Parallel.step, hr]
    obtain ⟨more, s', hrun, hd⟩ := (runs_signal hsound hr hsig).deadlock (i := i) files (by omega)
    exact ⟨more, s', runs_trans hsig hrun, hd⟩
  refine ⟨⟨fun hall => ?_, fun hall after s' hrun => (hsafe hall after s' hrun).1⟩,
    fun hall => ?_, fun hall after s' hrun => (hsafe hall after s' hrun).2⟩
  · by_contra hnot
    obtain ⟨after, s', hrun, hd, -⟩ := hshort hnot
    exact hall after s' hrun hd
  · by_contra hnot
    obtain ⟨after, s', hrun, -, hc⟩ := hshort hnot
    exact hc (hall after s' hrun)

end Shutdown

/-! ## One follower -/

/-- The worker is at barrier1 before the sampler's first iteration: a signal that comes now is safe. -/
theorem shutdown_iff_atBarrier1 :
    ∃ s, runs (Parallel.step (lateFollower fun _ => some 1000)) [lateWorker] (.start lateController) = some s ∧
      ∀ after s', runs (Parallel.step (lateFollower fun _ => some 1000)) (.signalHandler :: after) s = some s' →
        ¬s'.Deadlock (lateFollower fun _ => some 1000) := by
  have h : runs (Parallel.step (lateFollower fun _ => some 1000)) [lateWorker] (.start lateController) = some _ := rfl
  refine ⟨_, h, (shutdown_iff (by decide) h rfl).1.mpr ⟨Or.inl rfl, fun i => Or.inl ?_⟩⟩
  rw [Subsingleton.elim i ⟨0, Nat.one_pos⟩]
  rfl

/-- The signal comes while the worker corrects its follower: both pass barrier2, the worker sees `RUNNING` false at the
head of its loop and exits, and the sampler's last `barrier1.wait()` waits for it. -/
def signalInCorrection : List (Thread 1) :=
  [lateWorker, .sampler, .sampler, .sampler, lateWorker, lateWorker, lateWorker, .signalHandler, lateWorker, lateWorker,
    lateWorker, .sampler, .sampler, .sampler, .sampler, lateWorker, lateWorker, .sampler, .sampler]

/-- So the shutdown can deadlock. -/
theorem shutdown_counterexample : ¬∀ (n : Nat) (_ : 0 < n) (files : Files n) (controllers : Fin n → Controller Float)
    (sched : List (Thread n)) (s : Parallel Float n),
    runs (Parallel.step files) sched (.start controllers) = some s → ¬s.Deadlock files := by
  intro h
  refine h 1 (by decide) (lateFollower fun _ => some 1000) lateController signalInCorrection _ rfl
    ⟨rfl, ⟨.sampler, Or.inr (Or.inr rfl)⟩, ?_⟩
  intro t
  match t with
  | .sampler => rfl
  | .worker 0 => rfl
  | .signalHandler => rfl

end TsfSync.Debugfs
