import Mathlib.Data.Fintype.Option
import TsfSync.Debugfs.Threading
import TsfSync.Lib.Runs

/-!
# Where the threads of `run_parallel` stand

What decides how the threads go on is `RUNNING`, the two barriers and where everybody stands (`Standing`); the master
TSF, the followers and the controllers only decide whether a correction panics. Every step of `run_parallel` is one of
`Standing.Step` (`step_standing`), and the threads meet at the two barriers (`Standing.Step.move`).

The invariant adds to a sound meeting that a worker which corrects its follower, or has done so in this round, has a
round of the sampler left (`Standing.Sound.spare`). It holds after every run (`sound_runs`).
-/

namespace TsfSync.Debugfs

open Function CyclicBarrier StepSystem

variable {F : Type} {n : Nat}

/-- What decides how the threads go on. -/
structure Standing (n : Nat) where
  running : Bool
  barrier1 : Barrier (Option (Fin n))
  barrier2 : Barrier (Option (Fin n))
  sampler : SamplerPc
  worker : Fin n → WorkerPc

/-- Where the threads of `run_parallel` stand. -/
def Parallel.standing (s : Parallel F n) : Standing n :=
  ⟨s.running, s.barrier1, s.barrier2, s.sampler.pc, fun i => (s.worker i).pc⟩

namespace Standing

/-- The steps of the threads, without their data. -/
inductive Step (c : Standing n) : Thread n → Standing n → Prop
  | enter : c.sampler = .top → c.running = true → Step c .sampler { c with sampler := .read }
  | leave : c.sampler = .top → c.running = false → Step c .sampler { c with sampler := .atFinalBarrier1 }
  | publish : c.sampler = .read → Step c .sampler { c with sampler := .atBarrier1 }
  | arrive1 : c.sampler = .atBarrier1 →
      Step c .sampler { c with barrier1 := c.barrier1.arrive none, sampler := .inBarrier1 c.barrier1.generation }
  | pass1 {g : Nat} : c.sampler = .inBarrier1 g → c.barrier1.generation ≠ g →
      Step c .sampler { c with sampler := .atBarrier2 }
  | arrive2 : c.sampler = .atBarrier2 →
      Step c .sampler { c with barrier2 := c.barrier2.arrive none, sampler := .inBarrier2 c.barrier2.generation }
  | pass2 {g : Nat} : c.sampler = .inBarrier2 g → c.barrier2.generation ≠ g →
      Step c .sampler { c with sampler := .report }
  | report : c.sampler = .report → Step c .sampler { c with sampler := .top }
  | arriveFinal1 : c.sampler = .atFinalBarrier1 →
      Step c .sampler { c with barrier1 := c.barrier1.arrive none, sampler := .inFinalBarrier1 c.barrier1.generation }
  | passFinal1 {g : Nat} : c.sampler = .inFinalBarrier1 g → c.barrier1.generation ≠ g →
      Step c .sampler { c with sampler := .join }
  | join : c.sampler = .join → (∀ i, (c.worker i).exited = true) → Step c .sampler { c with sampler := .done }
  | workerEnter {i : Fin n} : c.worker i = .top → c.running = true →
      Step c (.worker i) { c with worker := update c.worker i .atBarrier1 }
  | workerLeave {i : Fin n} : c.worker i = .top ∨ c.worker i = .recheck → c.running = false →
      Step c (.worker i) { c with worker := update c.worker i .done }
  | workerArrive1 {i : Fin n} : c.worker i = .atBarrier1 →
      Step c (.worker i) { c with
        barrier1 := c.barrier1.arrive (some i), worker := update c.worker i (.inBarrier1 c.barrier1.generation) }
  | workerPass1 {i : Fin n} {g : Nat} : c.worker i = .inBarrier1 g → c.barrier1.generation ≠ g →
      Step c (.worker i) { c with worker := update c.worker i .recheck }
  | workerRecheck {i : Fin n} : c.worker i = .recheck → c.running = true →
      Step c (.worker i) { c with worker := update c.worker i .load }
  | workerLoad {i : Fin n} (m : UInt64) : c.worker i = .load →
      Step c (.worker i) { c with worker := update c.worker i (.correct m) }
  | workerCorrect {i : Fin n} {m : UInt64} (pc : WorkerPc) : c.worker i = .correct m → pc = .atBarrier2 ∨ pc = .panicked →
      Step c (.worker i) { c with worker := update c.worker i pc }
  | workerArrive2 {i : Fin n} : c.worker i = .atBarrier2 →
      Step c (.worker i) { c with
        barrier2 := c.barrier2.arrive (some i), worker := update c.worker i (.inBarrier2 c.barrier2.generation) }
  | workerPass2 {i : Fin n} {g : Nat} : c.worker i = .inBarrier2 g → c.barrier2.generation ≠ g →
      Step c (.worker i) { c with worker := update c.worker i .top }
  | signal : c.running = true → Step c .signalHandler { c with running := false }

end Standing

/-! ## The steps of `run_parallel` are these steps -/

section Refine

variable {s s' : Parallel F n} {i : Fin n}

/-- A change of one worker's data changes where only it stands. -/
theorem pc_update (worker : Fin n → Worker F) (w : Worker F) :
    (fun j => (update worker i w j).pc) = update (fun j => (worker j).pc) i w.pc := by
  funext j
  by_cases hj : j = i
  · subst hj; simp
  · simp [hj]

@[simp] theorem standing_samplerTo (pc : SamplerPc) :
    (s.samplerTo pc).standing = { s.standing with sampler := pc } := rfl

@[simp] theorem standing_workerTo (pc : WorkerPc) :
    (s.workerTo i pc).standing = { s.standing with worker := update s.standing.worker i pc } := by
  simp [Parallel.standing, Parallel.workerTo, pc_update]

variable [F64 F] {files : Files n}

@[simp] theorem standing_exitWorker :
    (s.exitWorker i).standing = { s.standing with worker := update s.standing.worker i .done } := by
  simp [Parallel.standing, Parallel.exitWorker, pc_update]

theorem standing_correctWorker (files : Files n) (m : UInt64) : ∃ pc, (pc = .atBarrier2 ∨ pc = .panicked) ∧
    (s.correctWorker files i m).standing = { s.standing with worker := update s.standing.worker i pc } := by
  simp only [Parallel.correctWorker]
  split
  · exact ⟨_, Or.inr rfl, standing_workerTo _⟩
  · exact ⟨_, Or.inl rfl, by simp [Parallel.standing, pc_update]⟩

theorem samplerStep_standing (h : s.samplerStep files = some s') : s.standing.Step .sampler s'.standing := by
  unfold Parallel.samplerStep at h
  split at h <;> rename_i hpc
  · cases h
    rw [standing_samplerTo]
    split
    · rename_i hr; exact .enter hpc hr
    · rename_i hr; exact .leave hpc (Bool.not_eq_true _ ▸ hr)
  · cases h; exact .publish hpc
  · cases h; exact .arrive1 hpc
  · split at h
    · rename_i hg; cases h; exact .pass1 hpc hg
    · cases h
  · cases h; exact .arrive2 hpc
  · split at h
    · rename_i hg; cases h; exact .pass2 hpc hg
    · cases h
  · cases h; exact .report hpc
  · cases h; exact .arriveFinal1 hpc
  · split at h
    · rename_i hg; cases h; exact .passFinal1 hpc hg
    · cases h
  · split at h
    · rename_i hall; cases h; exact .join hpc hall
    · cases h
  · cases h

theorem workerStep_standing (h : s.workerStep files i = some s') : s.standing.Step (.worker i) s'.standing := by
  unfold Parallel.workerStep at h
  split at h <;> rename_i hpc
  · cases h
    split
    · rename_i hr; rw [standing_workerTo]; exact .workerEnter hpc hr
    · rename_i hr; rw [standing_exitWorker]; exact .workerLeave (Or.inl hpc) (Bool.not_eq_true _ ▸ hr)
  · cases h; rw [standing_workerTo]; exact .workerArrive1 hpc
  · split at h
    · rename_i hg; cases h; rw [standing_workerTo]; exact .workerPass1 hpc hg
    · cases h
  · cases h
    split
    · rename_i hr; rw [standing_workerTo]; exact .workerRecheck hpc hr
    · rename_i hr; rw [standing_exitWorker]; exact .workerLeave (Or.inr hpc) (Bool.not_eq_true _ ▸ hr)
  · cases h
    simp only [Parallel.standing, pc_update]
    exact .workerLoad (c := s.standing) s.masterTsf hpc
  · rename_i m
    cases h
    obtain ⟨pc, hor, he⟩ := standing_correctWorker (s := s) (i := i) files m
    rw [he]
    exact .workerCorrect pc hpc hor
  · cases h; rw [standing_workerTo]; exact .workerArrive2 hpc
  · split at h
    · rename_i hg; cases h; rw [standing_workerTo]; exact .workerPass2 hpc hg
    · cases h
  · cases h
  · cases h

/-- **Every step of `run_parallel` is one of `Standing.Step`.** -/
theorem step_standing {t : Thread n} (h : Parallel.step files t s = some s') : s.standing.Step t s'.standing := by
  cases t with
  | sampler => exact samplerStep_standing h
  | worker i => exact workerStep_standing h
  | signalHandler =>
    simp only [Parallel.step] at h
    split at h
    · rename_i hr; cases h; exact .signal hr
    · cases h

end Refine

/-! ## The threads meet at the barriers -/

/-- Where the sampler is between the two barriers; after the loop it stays between them. -/
def SamplerPc.phase : SamplerPc → Phase
  | .top | .read | .atBarrier1 | .report | .atFinalBarrier1 => .outside
  | .inBarrier1 g | .inFinalBarrier1 g => .waiting1 g
  | .atBarrier2 | .join | .done => .inside
  | .inBarrier2 g => .waiting2 g

/-- Where a worker is between the two barriers. -/
def WorkerPc.phase : WorkerPc → Phase
  | .top | .atBarrier1 => .outside
  | .inBarrier1 g => .waiting1 g
  | .recheck | .load | .correct _ | .atBarrier2 | .panicked => .inside
  | .inBarrier2 g => .waiting2 g
  | .done => .ended

namespace Standing

variable {c c' : Standing n} {t : Thread n} {i : Fin n}

/-- Where each thread is between the two barriers. -/
def phase (c : Standing n) : Option (Fin n) → Phase
  | none => c.sampler.phase
  | some i => (c.worker i).phase

/-- The threads as parties of a meeting. -/
def meeting (c : Standing n) : Meeting (Option (Fin n)) := ⟨c.barrier1, c.barrier2, c.phase⟩

theorem phase_sampler (c : Standing n) (pc : SamplerPc) (b₁ b₂ : Barrier (Option (Fin n))) :
    phase { c with sampler := pc, barrier1 := b₁, barrier2 := b₂ } = update c.phase none pc.phase := by
  funext u
  cases u <;> rfl

theorem phase_worker (c : Standing n) (pc : WorkerPc) (b₁ b₂ : Barrier (Option (Fin n))) :
    phase { c with worker := update c.worker i pc, barrier1 := b₁, barrier2 := b₂ } =
      update c.phase (some i) pc.phase := by
  funext u
  cases u with
  | none => rfl
  | some j =>
    by_cases hj : j = i
    · subst hj; simp [phase]
    · simp [phase, hj]

/-- **The threads move as parties of the meeting.** -/
theorem Step.move (h : c.Step t c') : ∃ u, Meeting.Move u c.meeting c'.meeting := by
  -- a step that is not about the barriers leaves the phase
  have hsampler : ∀ pc : SamplerPc, pc.phase = c.sampler.phase → meeting { c with sampler := pc } = c.meeting := by
    intro pc hpc
    simp only [meeting, phase_sampler]
    rw [update_eq_self_iff.mpr hpc]
  have hworker : ∀ (i : Fin n) (pc : WorkerPc), pc.phase = (c.worker i).phase →
      meeting { c with worker := update c.worker i pc } = c.meeting := by
    intro i pc hpc
    simp only [meeting, phase_worker]
    rw [update_eq_self_iff.mpr hpc]
  cases h with
  | enter hpc _ => exact ⟨none, hsampler .read (by rw [hpc]; rfl) ▸ .stay⟩
  | leave hpc _ => exact ⟨none, hsampler .atFinalBarrier1 (by rw [hpc]; rfl) ▸ .stay⟩
  | publish hpc => exact ⟨none, hsampler .atBarrier1 (by rw [hpc]; rfl) ▸ .stay⟩
  | report hpc => exact ⟨none, hsampler .top (by rw [hpc]; rfl) ▸ .stay⟩
  | join hpc _ => exact ⟨none, hsampler .done (by rw [hpc]; rfl) ▸ .stay⟩
  | arrive1 hpc =>
    refine ⟨none, ?_⟩
    simp only [meeting, phase_sampler]
    exact .arrive1 (by simp [phase, hpc, SamplerPc.phase])
  | arriveFinal1 hpc =>
    refine ⟨none, ?_⟩
    simp only [meeting, phase_sampler]
    exact .arrive1 (by simp [phase, hpc, SamplerPc.phase])
  | pass1 hpc hg =>
    refine ⟨none, ?_⟩
    simp only [meeting, phase_sampler]
    exact .pass1 (by simp [phase, hpc, SamplerPc.phase]) hg
  | passFinal1 hpc hg =>
    refine ⟨none, ?_⟩
    simp only [meeting, phase_sampler]
    exact .pass1 (by simp [phase, hpc, SamplerPc.phase]) hg
  | arrive2 hpc =>
    refine ⟨none, ?_⟩
    simp only [meeting, phase_sampler]
    exact .arrive2 (by simp [phase, hpc, SamplerPc.phase])
  | pass2 hpc hg =>
    refine ⟨none, ?_⟩
    simp only [meeting, phase_sampler]
    exact .pass2 (by simp [phase, hpc, SamplerPc.phase]) hg
  | @workerEnter i hpc _ => exact ⟨none, hworker i .atBarrier1 (by rw [hpc]; rfl) ▸ .stay⟩
  | @workerRecheck i hpc _ => exact ⟨none, hworker i .load (by rw [hpc]; rfl) ▸ .stay⟩
  | @workerLoad i m hpc => exact ⟨none, hworker i (.correct m) (by rw [hpc]; rfl) ▸ .stay⟩
  | @workerCorrect i m pc hpc hor =>
    exact ⟨none, hworker i pc (by rw [hpc]; rcases hor with rfl | rfl <;> rfl) ▸ .stay⟩
  | @workerLeave i hpc _ =>
    refine ⟨some i, ?_⟩
    simp only [meeting, phase_worker]
    refine .leave ?_
    rcases hpc with hpc | hpc
    · exact Or.inl (by simp [phase, hpc, WorkerPc.phase])
    · exact Or.inr (by simp [phase, hpc, WorkerPc.phase])
  | @workerArrive1 i hpc =>
    refine ⟨some i, ?_⟩
    simp only [meeting, phase_worker]
    exact .arrive1 (by simp [phase, hpc, WorkerPc.phase])
  | @workerPass1 i g hpc hg =>
    refine ⟨some i, ?_⟩
    simp only [meeting, phase_worker]
    exact .pass1 (by simp [phase, hpc, WorkerPc.phase]) hg
  | @workerArrive2 i hpc =>
    refine ⟨some i, ?_⟩
    simp only [meeting, phase_worker]
    exact .arrive2 (by simp [phase, hpc, WorkerPc.phase])
  | @workerPass2 i g hpc hg =>
    refine ⟨some i, ?_⟩
    simp only [meeting, phase_worker]
    exact .pass2 (by simp [phase, hpc, WorkerPc.phase]) hg
  | signal _ => exact ⟨none, .stay⟩

end Standing

/-! ## The invariant -/

/-- The sampler's arrivals at barrier1 still to come, counted from its last at barrier2, if `RUNNING` stays false. -/
def SamplerPc.remaining : SamplerPc → Nat
  | .read | .atBarrier1 | .inBarrier1 _ | .atBarrier2 => 2
  | _ => 1

/-- The sampler has left its loop. -/
def SamplerPc.left : SamplerPc → Bool
  | .atFinalBarrier1 | .inFinalBarrier1 _ | .join | .done => true
  | _ => false

/-- The worker has seen `RUNNING` true in this round. -/
def WorkerPc.busy : WorkerPc → Bool
  | .load | .correct _ | .atBarrier2 | .inBarrier2 _ | .panicked => true
  | .top | .atBarrier1 | .inBarrier1 _ | .recheck | .done => false

namespace Standing

variable {c c' : Standing n} {t : Thread n} {i : Fin n}

/-- The number of the sampler's last arrival at barrier1 if `RUNNING` stays false. -/
def lastArrival (c : Standing n) : Nat := c.barrier2.arrived none + c.sampler.remaining

/-- A step changes when the sampler's last arrival comes only where the sampler sees `RUNNING` true: then it is later. -/
theorem Step.lastArrival (h : c.Step t c') :
    c'.lastArrival = c.lastArrival ∨ c.running = true ∧ c.lastArrival ≤ c'.lastArrival := by
  cases h with
  | enter hpc hr => exact Or.inr ⟨hr, by simp [Standing.lastArrival, hpc, SamplerPc.remaining]⟩
  | leave hpc _ => exact Or.inl (by simp [Standing.lastArrival, hpc, SamplerPc.remaining])
  | publish hpc => exact Or.inl (by simp [Standing.lastArrival, hpc, SamplerPc.remaining])
  | arrive1 hpc => exact Or.inl (by simp [Standing.lastArrival, hpc, SamplerPc.remaining])
  | pass1 hpc _ => exact Or.inl (by simp [Standing.lastArrival, hpc, SamplerPc.remaining])
  | arrive2 hpc => exact Or.inl (by simp [Standing.lastArrival, hpc, SamplerPc.remaining])
  | pass2 hpc _ => exact Or.inl (by simp [Standing.lastArrival, hpc, SamplerPc.remaining])
  | report hpc => exact Or.inl (by simp [Standing.lastArrival, hpc, SamplerPc.remaining])
  | arriveFinal1 hpc => exact Or.inl (by simp [Standing.lastArrival, hpc, SamplerPc.remaining])
  | passFinal1 hpc _ => exact Or.inl (by simp [Standing.lastArrival, hpc, SamplerPc.remaining])
  | join hpc _ => exact Or.inl (by simp [Standing.lastArrival, hpc, SamplerPc.remaining])
  | workerArrive2 _ => exact Or.inl (by simp [Standing.lastArrival])
  | workerEnter _ _ => exact Or.inl rfl
  | workerLeave _ _ => exact Or.inl rfl
  | workerArrive1 _ => exact Or.inl rfl
  | workerPass1 _ _ => exact Or.inl rfl
  | workerRecheck _ _ => exact Or.inl rfl
  | workerLoad _ _ => exact Or.inl rfl
  | workerCorrect _ _ _ => exact Or.inl rfl
  | workerPass2 _ _ => exact Or.inl rfl
  | signal _ => exact Or.inl rfl

/-- The threads meet soundly, a busy worker has a round of the sampler left, and the sampler stays in its loop while
`RUNNING` is true. -/
structure Sound (c : Standing n) : Prop where
  meeting : c.meeting.Sound
  spare : ∀ i, (c.worker i).busy = true → c.barrier1.arrived (some i) < c.lastArrival
  loops : c.running = true → c.sampler.left = false

/-- The arrivals of a thread fit where it stands, next to the generations. -/
theorem Sound.bounds (h : c.Sound) (u : Option (Fin n)) :
    (c.phase u).Fits c.barrier1.generation c.barrier2.generation (c.barrier1.arrived u) (c.barrier2.arrived u) ∧
      (c.barrier1.generation ≤ c.barrier1.arrived u ∧ c.barrier1.arrived u ≤ c.barrier1.generation + 1) ∧
      (c.barrier2.generation ≤ c.barrier2.arrived u ∧ c.barrier2.arrived u ≤ c.barrier2.generation + 1) :=
  ⟨h.meeting.fits u, ⟨h.meeting.counts1.lower u, h.meeting.counts1.upper u⟩,
    h.meeting.counts2.lower u, h.meeting.counts2.upper u⟩

/-- Workers that were busy keep a round left when the sampler's last arrival does not come earlier. -/
theorem Sound.spare_of (h : c.Sound) (hle : c.lastArrival ≤ c'.lastArrival)
    (hbusy : ∀ i, (c'.worker i).busy = true →
      (c.worker i).busy = true ∧ c'.barrier1.arrived (some i) = c.barrier1.arrived (some i)) (i : Fin n)
    (hi : (c'.worker i).busy = true) : c'.barrier1.arrived (some i) < c'.lastArrival := by
  obtain ⟨hb, he⟩ := hbusy i hi
  have := h.spare i hb
  omega

/-- A worker that steps is busy only if it was. -/
theorem busy_update {pc : WorkerPc} (hpc : pc.busy = true → (c.worker i).busy = true) (j : Fin n)
    (hj : (update c.worker i pc j).busy = true) : (c.worker j).busy = true := by
  by_cases hji : j = i
  · subst hji; exact hpc (by simpa using hj)
  · simpa [hji] using hj

/-- A worker that has just seen `RUNNING` true has a round of the sampler left. -/
theorem Sound.spare_recheck (h : c.Sound) (hpc : c.worker i = .recheck) (hr : c.running = true) :
    c.barrier1.arrived (some i) < c.lastArrival := by
  obtain ⟨hf, hb₁, hb₂⟩ := h.bounds (some i)
  obtain ⟨hfs, hs₁, hs₂⟩ := h.bounds none
  have hleft := h.loops hr
  simp only [phase, hpc, WorkerPc.phase, Phase.Fits] at hf
  cases hsp : c.sampler <;>
    simp only [phase, lastArrival, hsp, SamplerPc.phase, SamplerPc.remaining, SamplerPc.left, Phase.Fits,
      Bool.true_eq_false] at * <;> omega

/-- **Every step keeps the invariant.** -/
theorem Sound.step (h : c.Sound) (hs : c.Step t c') : c'.Sound := by
  obtain ⟨u, hm⟩ := hs.move
  have hmeet := h.meeting.move hm
  have hle : c.lastArrival ≤ c'.lastArrival := by
    rcases hs.lastArrival with he | ⟨-, hle⟩
    · exact he.ge
    · exact hle
  cases hs with
  | enter hpc _ => exact ⟨hmeet, h.spare_of hle fun _ hi => ⟨hi, rfl⟩, fun _ => rfl⟩
  | leave hpc hr =>
    refine ⟨hmeet, h.spare_of hle fun _ hi => ⟨hi, rfl⟩, fun hr' => ?_⟩
    rw [hr] at hr'
    cases hr'
  | publish hpc => exact ⟨hmeet, h.spare_of hle fun _ hi => ⟨hi, rfl⟩, fun _ => rfl⟩
  | arrive1 hpc => exact ⟨hmeet, h.spare_of hle fun _ hi => ⟨hi, by simp⟩, fun _ => rfl⟩
  | pass1 hpc _ => exact ⟨hmeet, h.spare_of hle fun _ hi => ⟨hi, rfl⟩, fun _ => rfl⟩
  | arrive2 hpc => exact ⟨hmeet, h.spare_of hle fun _ hi => ⟨hi, rfl⟩, fun _ => rfl⟩
  | pass2 hpc _ => exact ⟨hmeet, h.spare_of hle fun _ hi => ⟨hi, rfl⟩, fun _ => rfl⟩
  | report hpc => exact ⟨hmeet, h.spare_of hle fun _ hi => ⟨hi, rfl⟩, fun _ => rfl⟩
  | arriveFinal1 hpc =>
    refine ⟨hmeet, h.spare_of hle fun _ hi => ⟨hi, by simp⟩, fun hr => ?_⟩
    simpa [hpc, SamplerPc.left] using h.loops hr
  | passFinal1 hpc _ =>
    refine ⟨hmeet, h.spare_of hle fun _ hi => ⟨hi, rfl⟩, fun hr => ?_⟩
    simpa [hpc, SamplerPc.left] using h.loops hr
  | join hpc _ =>
    refine ⟨hmeet, h.spare_of hle fun _ hi => ⟨hi, rfl⟩, fun hr => ?_⟩
    simpa [hpc, SamplerPc.left] using h.loops hr
  | workerEnter hpc _ => exact ⟨hmeet, h.spare_of hle fun j hj => ⟨busy_update (by nofun) j hj, rfl⟩, h.loops⟩
  | workerLeave hpc _ => exact ⟨hmeet, h.spare_of hle fun j hj => ⟨busy_update (by nofun) j hj, rfl⟩, h.loops⟩
  | @workerArrive1 i hpc =>
    refine ⟨hmeet, h.spare_of hle fun j hj => ⟨busy_update (by nofun) j hj, ?_⟩, h.loops⟩
    -- the worker that arrived is not busy
    have hji : j ≠ i := fun e => by subst e; simp [WorkerPc.busy] at hj
    simp [hji]
  | workerPass1 hpc _ => exact ⟨hmeet, h.spare_of hle fun j hj => ⟨busy_update (by nofun) j hj, rfl⟩, h.loops⟩
  | @workerRecheck i hpc hr =>
    refine ⟨hmeet, fun j hj => ?_, h.loops⟩
    by_cases hji : j = i
    · subst hji; exact h.spare_recheck hpc hr
    · exact h.spare j (by simpa [hji] using hj)
  | workerLoad m hpc =>
    exact ⟨hmeet, h.spare_of hle fun j hj => ⟨busy_update (fun _ => by rw [hpc]; rfl) j hj, rfl⟩, h.loops⟩
  | workerCorrect pc hpc _ =>
    exact ⟨hmeet, h.spare_of hle fun j hj => ⟨busy_update (fun _ => by rw [hpc]; rfl) j hj, rfl⟩, h.loops⟩
  | workerArrive2 hpc =>
    exact ⟨hmeet, h.spare_of hle fun j hj => ⟨busy_update (fun _ => by rw [hpc]; rfl) j hj, rfl⟩, h.loops⟩
  | workerPass2 hpc _ => exact ⟨hmeet, h.spare_of hle fun j hj => ⟨busy_update (by nofun) j hj, rfl⟩, h.loops⟩
  | signal _ => exact ⟨hmeet, h.spare, nofun⟩

end Standing

/-! ## Every run -/

section Runs

variable [F64 F] {files : Files n} {controllers : Fin n → Controller F} {s : Parallel F n} {sched : List (Thread n)}

theorem sound_start (controllers : Fin n → Controller F) : (Parallel.start controllers).standing.Sound := by
  refine ⟨?_, nofun, fun _ => rfl⟩
  have hphase : (Parallel.start controllers).standing.phase = fun _ => .outside := by
    funext u
    cases u <;> rfl
  have hsound : Meeting.Sound (⟨.new (n + 1), .new (n + 1), fun _ => .outside⟩ : Meeting (Option (Fin n))) :=
    Meeting.sound_new (by simp)
  rw [← hphase] at hsound
  exact hsound

/-- **The invariant holds after every run.** -/
theorem sound_runs (h : runs (Parallel.step files) sched (.start controllers) = some s) : s.standing.Sound :=
  runs_inv (P := fun s => s.standing.Sound) (fun _ _ _ hs hstep => hs.step (step_standing hstep)) sched
    (sound_start controllers) h

end Runs

end TsfSync.Debugfs
