import TsfSync.Debugfs.Accounts
import TsfSync.Debugfs.Rounds

/-!
# Which corrections the statistics monitor

In `run_single` every correction is monitored. In `run_parallel` the workers add their observations to their own
accumulators, and `check_stats` evaluates that of the sampler, which stays empty. The account beside the threads is what
the accumulators hold after every step (`Parallel.Accounted.Sound`); so the evaluations are right only as long as no
follower could be read up to the last of them (`monitored_iff`).
-/

namespace TsfSync.Debugfs

open Function StepSystem CyclicBarrier Batching

variable {F : Type} [F64 F] {n : Nat}

/-! ## One thread for each follower -/

/-- What a step is to the statistics. -/
inductive Parallel.Matter (n : Nat)
  | none
  | report
  | correct (i : Fin n) (m : UInt64)
  | exit (i : Fin n)

/-- What the next step of a thread is to the statistics. -/
def Parallel.matter (s : Parallel F n) : Thread n → Matter n
  | .sampler => if s.sampler.pc = .report then .report else .none
  | .worker i =>
    match (s.worker i).pc with
    | .correct m => .correct i m
    | .top | .recheck => if s.running then .none else .exit i
    | _ => .none
  | .signalHandler => .none

/-- `run_parallel`, the cycles that the sampler has counted, and the account of the accumulators; `none` is that of the
sampler. -/
structure Parallel.Accounted (F : Type) (n : Nat) where
  state : Parallel F n
  cycles : Nat
  account : Account (Option (Fin n)) (Observation n) (WelfordStats F)

namespace Parallel.Accounted

/-- The threads begin. -/
def start (controllers : Fin n → Controller F) : Accounted F n := ⟨.start controllers, 0, .empty⟩

/-- A step that leads to the state `s`. -/
def next (files : Files n) (t : Thread n) (a : Accounted F n) (s : Parallel F n) : Accounted F n :=
  match a.state.matter t with
  | .none => { a with state := s }
  | .report => ⟨s, a.cycles + 1, checked files none (a.cycles + 1) a.state.sampler.stats a.account⟩
  | .correct i m =>
    let w := a.state.worker i
    let result := (correctFollower (files.follower i w.written.length) w.controller m).bind (·.result)
    ⟨s, a.cycles, recorded (some i) i (a.cycles + 1) result a.account⟩
  | .exit i => ⟨s, a.cycles, a.account.clear (some i)⟩

/-- A step of `run_parallel`. -/
def step (files : Files n) (t : Thread n) (a : Accounted F n) : Option (Accounted F n) :=
  (Parallel.step files t a.state).map (a.next files t)

end Parallel.Accounted

/-- The sampler has arrived at barrier2 and not counted the cycle. -/
def SamplerPc.uncounted : SamplerPc → Nat
  | .inBarrier2 _ | .report => 1
  | _ => 0

namespace Parallel

/-- A step that leaves the statistics, the records of the corrections and the cycles to be counted. -/
structure Leaves (s s' : Parallel F n) : Prop where
  sampler : s'.sampler.stats = s.sampler.stats ∧ s'.sampler.cycle = s.sampler.cycle
  worker : ∀ i, (s'.worker i).stats = (s.worker i).stats ∧ (s'.worker i).written = (s.worker i).written
  uncounted : s'.barrier2.arrived none + s.sampler.pc.uncounted = s.barrier2.arrived none + s'.sampler.pc.uncounted

section Leaves

variable {s s' : Parallel F n} {files : Files n}

omit [F64 F] in
/-- The sampler goes on. -/
theorem Leaves.samplerTo {pc : SamplerPc} (b : Barrier (Option (Fin n))) (h : pc.uncounted = s.sampler.pc.uncounted) :
    Leaves s ({ s with barrier1 := b }.samplerTo pc) :=
  ⟨⟨rfl, rfl⟩, fun _ => ⟨rfl, rfl⟩, by rw [← h]; rfl⟩

omit [F64 F] in
/-- A worker goes on. -/
theorem Leaves.update {w : Worker F} {i : Fin n} {b₁ b₂ : Barrier (Option (Fin n))}
    (hb : b₂.arrived none = s.barrier2.arrived none) (hstats : w.stats = (s.worker i).stats)
    (hwritten : w.written = (s.worker i).written) :
    Leaves s { s with worker := Function.update s.worker i w, barrier1 := b₁, barrier2 := b₂ } := by
  refine ⟨⟨rfl, rfl⟩, fun j => ?_, congrArg (· + _) hb⟩
  by_cases hj : j = i
  · subst hj
    simpa using ⟨hstats, hwritten⟩
  · simp [hj]

/-- A step of the sampler leaves the statistics, or it is the call of `check_stats`. -/
theorem samplerStep_cases (h : s.samplerStep files = some s') :
    s.matter .sampler = .none ∧ Leaves s s' ∨
      s.sampler.pc = .report ∧ s.matter .sampler = .report ∧ s' = (s.report files).samplerTo .top := by
  unfold samplerStep at h
  by_cases hreport : s.sampler.pc = .report
  · rw [hreport] at h
    cases h
    exact .inr ⟨hreport, if_pos hreport, rfl⟩
  · refine .inl ⟨if_neg hreport, ?_⟩
    split at h <;> rename_i hpc
    · cases h
      refine .samplerTo s.barrier1 ?_
      rw [hpc]
      split <;> rfl
    · cases h
      exact ⟨⟨rfl, rfl⟩, fun _ => ⟨rfl, rfl⟩, by rw [hpc]; rfl⟩
    · cases h
      exact .samplerTo _ (by rw [hpc]; rfl)
    · split at h
      · cases h
        exact .samplerTo s.barrier1 (by rw [hpc]; rfl)
      · cases h
    · cases h
      refine ⟨⟨rfl, rfl⟩, fun _ => ⟨rfl, rfl⟩, ?_⟩
      rw [hpc]
      simp [samplerTo, SamplerPc.uncounted]
    · split at h
      · cases h
        exact .samplerTo s.barrier1 (by rw [hpc]; rfl)
      · cases h
    · exact absurd hpc hreport
    · cases h
      exact .samplerTo _ (by rw [hpc]; rfl)
    · split at h
      · cases h
        exact .samplerTo s.barrier1 (by rw [hpc]; rfl)
      · cases h
    · split at h
      · cases h
        exact .samplerTo s.barrier1 (by rw [hpc]; rfl)
      · cases h
    · cases h

/-- A step of a worker leaves the statistics, or it is the correction or the end of the thread. -/
theorem workerStep_cases {i : Fin n} (h : s.workerStep files i = some s') :
    s.matter (.worker i) = .none ∧ Leaves s s' ∨
      (∃ m, (s.worker i).pc = .correct m ∧ s.matter (.worker i) = .correct i m ∧ s' = s.correctWorker files i m) ∨
      s.matter (.worker i) = .exit i ∧ s' = s.exitWorker i := by
  unfold workerStep at h
  split at h <;> rename_i hpc <;> simp only [matter, hpc]
  · cases h
    cases s.running with
    | true => exact .inl ⟨rfl, .update rfl rfl rfl⟩
    | false => exact .inr (.inr ⟨rfl, rfl⟩)
  · cases h
    exact .inl ⟨trivial, .update rfl rfl rfl⟩
  · split at h
    · cases h
      exact .inl ⟨trivial, .update rfl rfl rfl⟩
    · cases h
  · cases h
    cases s.running with
    | true => exact .inl ⟨rfl, .update rfl rfl rfl⟩
    | false => exact .inr (.inr ⟨rfl, rfl⟩)
  · cases h
    exact .inl ⟨trivial, .update rfl rfl rfl⟩
  · rename_i m
    cases h
    exact .inr (.inl ⟨m, rfl, rfl, rfl⟩)
  · cases h
    exact .inl ⟨trivial, .update (by simp) rfl rfl⟩
  · split at h
    · cases h
      exact .inl ⟨trivial, .update rfl rfl rfl⟩
    · cases h
  · cases h
  · cases h

end Leaves

end Parallel

/-- A correction returns a result exactly if the read of the follower succeeded. -/
theorem result_eq_none_iff {read : Option UInt64} {controller : Controller F} {m : UInt64} {c : Corrected F}
    (h : correctFollower read controller m = some c) : c.result = none ↔ read = none := by
  cases read with
  | none =>
    cases h
    exact iff_of_true rfl rfl
  | some followerTsf =>
    rw [correctFollower] at h
    split at h
    · cases h
    · cases h
      exact iff_of_false nofun nofun

namespace Parallel.Accounted

/-- The accumulators hold the observations that the account says, that of the sampler none; the evaluations are of the
sampler's; and the observations are those of the corrections whose read succeeded. -/
structure Sound (files : Files n) (a : Accounted F n) : Prop where
  standing : a.state.standing.Sound
  inStep : InStep a.state
  cycles : a.cycles + a.state.sampler.pc.uncounted = a.state.barrier2.arrived none
  counter : a.state.sampler.cycle = UInt64.ofNat a.cycles
  sampler : a.state.sampler.stats = .new ∧ a.account.holds none = []
  worker : ∀ i, (a.state.worker i).stats = summary (a.account.holds (some i))
  calls : ∀ e, 1 ≤ e → e ≤ a.cycles → files.due e → ∃ b ∈ a.account.batches, b.cycle = e
  batches : ∀ b ∈ a.account.batches, files.due b.cycle ∧ b.cycle ≤ a.cycles ∧ b.value = .new ∧ b.seen = []
  numbered : ∀ o ∈ a.account.added, 1 ≤ o.cycle
  added : ∀ i r, (∃ o ∈ a.account.added, o.follower = i ∧ o.cycle = r + 1) ↔
    r < (a.state.worker i).written.length ∧ files.follower i r ≠ none

section Sound

variable {files : Files n} {a : Accounted F n} {s : Parallel F n} {i : Fin n}

theorem sound_start (files : Files n) (controllers : Fin n → Controller F) : (start controllers).Sound files where
  standing := Debugfs.sound_start controllers
  inStep := inStep_start controllers
  cycles := rfl
  counter := rfl
  sampler := ⟨rfl, rfl⟩
  worker := fun _ => rfl
  calls := fun _ h₁ h₂ _ => absurd (Nat.le_trans h₁ h₂) (Nat.not_succ_le_zero 0)
  batches := nofun
  numbered := nofun
  added := fun _ r => iff_of_false nofun fun h => absurd h.1 (Nat.not_lt_zero r)

/-- Every worker has made its correction of each cycle that the sampler has counted. -/
theorem Sound.cycles_le (h : a.Sound files) (i : Fin n) : a.cycles ≤ (a.state.worker i).written.length := by
  obtain ⟨hf, -, hb₂⟩ := h.standing.bounds (some i)
  obtain ⟨hfs, -, hs₂⟩ := h.standing.bounds none
  have hwritten := (h.inStep.worker i).written
  have hcycles := h.cycles
  cases hsp : a.state.sampler.pc <;>
    simp only [Standing.phase, Parallel.standing, hsp, SamplerPc.phase, SamplerPc.uncounted, Phase.Fits] at * <;> omega

/-- A worker corrects its follower in the cycle that the sampler counts next. -/
theorem Sound.cycles_of_correct (h : a.Sound files) {m : UInt64} (hpc : (a.state.worker i).pc = .correct m) :
    (a.state.worker i).written.length = a.cycles := by
  have hw : a.state.standing.worker i = .correct m := hpc
  obtain ⟨hf, hb₁, hb₂⟩ := h.standing.bounds (some i)
  obtain ⟨hfs, hs₁, hs₂⟩ := h.standing.bounds none
  have hspare := h.standing.spare i (by rw [hw]; rfl)
  have hwritten := (h.inStep.worker i).written
  have hcycles := h.cycles
  rw [hpc] at hwritten
  simp only [Standing.phase, hw, WorkerPc.phase, Phase.Fits] at hf
  cases hsp : a.state.sampler.pc <;>
    simp only [Standing.phase, Standing.lastArrival, Parallel.standing, hsp, SamplerPc.phase, SamplerPc.remaining,
      SamplerPc.uncounted, WorkerPc.writing, Phase.Fits] at * <;> omega

/-- A step that leaves the statistics. -/
theorem Sound.leaves (h : a.Sound files) (hstanding : s.standing.Sound) (hinStep : InStep s) (hs : Leaves a.state s) :
    Sound files { a with state := s } where
  standing := hstanding
  inStep := hinStep
  cycles := by
    have hcycles := h.cycles
    have huncounted := hs.uncounted
    show a.cycles + s.sampler.pc.uncounted = s.barrier2.arrived none
    omega
  counter := hs.sampler.2.trans h.counter
  sampler := ⟨hs.sampler.1.trans h.sampler.1, h.sampler.2⟩
  worker := fun i => (hs.worker i).1.trans (h.worker i)
  calls := h.calls
  batches := h.batches
  numbered := h.numbered
  added := fun i r => by
    show _ ↔ r < (s.worker i).written.length ∧ _
    rw [(hs.worker i).2]
    exact h.added i r

/-- The sampler calls `check_stats` with its empty accumulator. -/
theorem Sound.report (h : a.Sound files) (hpc : a.state.sampler.pc = .report)
    (hs : s = (a.state.report files).samplerTo .top) (hstanding : s.standing.Sound) (hinStep : InStep s) :
    Sound files ⟨s, a.cycles + 1, checked files none (a.cycles + 1) a.state.sampler.stats a.account⟩ := by
  have hcounter : a.state.sampler.cycle + 1 = UInt64.ofNat (a.cycles + 1) := by
    rw [h.counter, UInt64.ofNat_add]
    rfl
  have hstats : s.sampler.stats = .new := by
    rw [hs]
    show (checkStats a.state.sampler.stats (a.state.sampler.cycle + 1) _ _ _).1 = .new
    rw [hcounter, checkStats_fst, h.sampler.1, ite_self]
  have hcycles := h.cycles
  rw [hpc] at hcycles
  refine ⟨hstanding, hinStep, ?_, ?_, ⟨hstats, ?_⟩, fun i => ?_, fun e h₁ h₂ hdue => ?_, fun b hb => ?_, ?_, ?_⟩
  · rw [hs]
    exact hcycles
  · rw [hs]
    exact hcounter
  · rw [holds_checked, h.sampler.2, ite_self]
  · rw [holds_checked_of_ne (Option.some_ne_none i), hs]
    exact h.worker i
  · by_cases heq : e = a.cycles + 1
    · subst heq
      exact ⟨_, mem_checked.mpr (.inr ⟨hdue, rfl⟩), rfl⟩
    · obtain ⟨b, hb, hcycle⟩ := h.calls e h₁ (by dsimp only at h₂; omega) hdue
      exact ⟨b, mem_checked.mpr (.inl hb), hcycle⟩
  · rcases mem_checked.mp hb with hold | ⟨hdue, rfl⟩
    · obtain ⟨hdue, hle, hrest⟩ := h.batches b hold
      exact ⟨hdue, Nat.le_succ_of_le hle, hrest⟩
    · exact ⟨hdue, Nat.le_refl _, h.sampler⟩
  · rw [added_checked]
    exact h.numbered
  · intro i r
    rw [added_checked, hs]
    exact h.added i r

/-- A step that leaves the sampler, its arrivals at barrier2 and the evaluations. -/
theorem Sound.ofWorkers {account : Account (Option (Fin n)) (Observation n) (WelfordStats F)} (h : a.Sound files)
    (hstanding : s.standing.Sound) (hinStep : InStep s) (hsampler : s.sampler = a.state.sampler)
    (hbarrier : s.barrier2 = a.state.barrier2) (hnone : account.holds none = a.account.holds none)
    (hbatches : account.batches = a.account.batches)
    (hworker : ∀ i, (s.worker i).stats = summary (account.holds (some i)))
    (hnumbered : ∀ o ∈ account.added, 1 ≤ o.cycle)
    (hadded : ∀ i r, (∃ o ∈ account.added, o.follower = i ∧ o.cycle = r + 1) ↔
      r < (s.worker i).written.length ∧ files.follower i r ≠ none) : Sound files ⟨s, a.cycles, account⟩ where
  standing := hstanding
  inStep := hinStep
  cycles := by
    rw [hsampler, hbarrier]
    exact h.cycles
  counter := by
    rw [hsampler]
    exact h.counter
  sampler := by
    rw [hsampler, hnone]
    exact h.sampler
  worker := hworker
  calls := by
    rw [hbatches]
    exact h.calls
  batches := by
    rw [hbatches]
    exact h.batches
  numbered := hnumbered
  added := hadded

/-- A correction adds to the accumulator of its worker what it adds to the account. -/
theorem Sound.correct {m : UInt64} (h : a.Sound files) (hpc : (a.state.worker i).pc = .correct m)
    (hs : s = a.state.correctWorker files i m) (hstanding : s.standing.Sound) (hinStep : InStep s) :
    Sound files ⟨s, a.cycles, recorded (some i) i (a.cycles + 1) ((correctFollower
      (files.follower i (a.state.worker i).written.length) (a.state.worker i).controller m).bind (·.result))
      a.account⟩ := by
  have hlength := h.cycles_of_correct hpc
  unfold correctWorker at hs
  cases hc : correctFollower (files.follower i (a.state.worker i).written.length) (a.state.worker i).controller m with
  | none =>
    -- the thread panics, and its records stay
    simp only [hc] at hs
    exact h.leaves hstanding hinStep (hs ▸ .update rfl rfl rfl)
  | some c =>
    simp only [hc] at hs
    rw [Option.bind_some]
    have hread := result_eq_none_iff hc
    rw [hlength] at hread
    have hself : (s.worker i).written.length = a.cycles + 1 := by rw [hs]; simp [hlength]
    have hothers : ∀ j, j ≠ i → s.worker j = a.state.worker j := by
      intro j hj
      rw [hs]
      exact update_of_ne hj ..
    refine h.ofWorkers hstanding hinStep (by rw [hs]) (by rw [hs]) (holds_recorded_of_ne (Option.some_ne_none i).symm)
      batches_recorded (fun j => ?_) (fun o ho => ?_) fun j r => ?_
    · by_cases hj : j = i
      · subst hj
        rw [summary_recorded, ← h.worker j, hs]
        cases c.result with
        | none => simp only [update_self]
        | some result => simp only [update_self]
      · rw [holds_recorded_of_ne (by simpa using hj), hothers j hj]
        exact h.worker j
    · rcases mem_recorded.mp ho with hold | ⟨step, err, -, rfl⟩
      · exact h.numbered o hold
      · exact Nat.le_add_left 1 a.cycles
    · simp only [mem_recorded, or_and_right, exists_or]
      rw [h.added j r]
      by_cases hj : j = i
      · subst hj
        rw [hself, hlength]
        constructor
        · rintro (⟨hlt, hne⟩ | ⟨o, ⟨step, err, hresult, rfl⟩, -, hcycle⟩)
          · exact ⟨Nat.lt_succ_of_lt hlt, hne⟩
          · obtain rfl : a.cycles = r := Nat.succ.inj hcycle
            exact ⟨Nat.lt_succ_self _, mt hread.mpr (by rw [hresult]; exact Option.some_ne_none _)⟩
        · rintro ⟨hlt, hne⟩
          rcases Nat.lt_succ_iff_lt_or_eq.mp hlt with hlt | rfl
          · exact .inl ⟨hlt, hne⟩
          · obtain ⟨⟨step, err⟩, hresult⟩ := Option.ne_none_iff_exists'.mp (mt hread.mp hne)
            exact .inr ⟨_, ⟨step, err, hresult, rfl⟩, rfl, rfl⟩
      · rw [hothers j hj]
        refine or_iff_left ?_
        rintro ⟨o, ⟨step, err, -, rfl⟩, hfollower, -⟩
        exact hj hfollower.symm

/-- A worker that ends prints and empties its accumulator. -/
theorem Sound.exit (h : a.Sound files) (hs : s = a.state.exitWorker i) (hstanding : s.standing.Sound)
    (hinStep : InStep s) : Sound files ⟨s, a.cycles, a.account.clear (some i)⟩ := by
  refine h.ofWorkers hstanding hinStep (by rw [hs]; rfl) (by rw [hs]; rfl)
    (Account.holds_clear_of_ne (Option.some_ne_none i).symm) rfl (fun j => ?_) h.numbered fun j r => ?_
  · rw [hs]
    by_cases hj : j = i
    · subst hj
      simp [exitWorker, WelfordStats.printAndReset, summary, observed]
    · rw [Account.holds_clear_of_ne (by simpa using hj)]
      simpa [exitWorker, hj] using h.worker j
  · have hwritten : (s.worker j).written = (a.state.worker j).written := by
      rw [hs]
      by_cases hj : j = i
      · subst hj
        simp [exitWorker]
      · simp [exitWorker, hj]
    rw [hwritten]
    exact h.added j r

/-- **Every step keeps the account.** -/
theorem Sound.step {t : Thread n} {a' : Accounted F n} (h : a.Sound files) (hstep : step files t a = some a') :
    a'.Sound files := by
  obtain ⟨s, hs, rfl⟩ := Option.map_eq_some_iff.mp hstep
  have hstanding := h.standing.step (step_standing hs)
  have hinStep := h.inStep.step h.standing hs
  unfold next
  cases t with
  | sampler =>
    rcases samplerStep_cases hs with ⟨hmatter, hleaves⟩ | ⟨hpc, hmatter, heq⟩
    · rw [hmatter]
      exact h.leaves hstanding hinStep hleaves
    · rw [hmatter]
      exact h.report hpc heq hstanding hinStep
  | worker i =>
    rcases workerStep_cases hs with ⟨hmatter, hleaves⟩ | ⟨m, hpc, hmatter, heq⟩ | ⟨hmatter, heq⟩
    · rw [hmatter]
      exact h.leaves hstanding hinStep hleaves
    · rw [hmatter]
      exact h.correct hpc heq hstanding hinStep
    · rw [hmatter]
      exact h.exit heq hstanding hinStep
  | signalHandler =>
    simp only [Parallel.step] at hs
    split at hs
    · cases hs
      exact h.leaves hstanding hinStep ⟨⟨rfl, rfl⟩, fun _ => ⟨rfl, rfl⟩, rfl⟩
    · cases hs

/-- **With an empty accumulator `check_stats` monitors the corrections only as long as there were none.** -/
theorem Sound.monitors_iff (h : a.Sound files) : files.Monitors a.cycles a.account ↔
    ∀ e ≤ a.cycles, files.due e → ∀ i, ∀ r < e, files.follower i r = none := by
  have hseen : ∀ b ∈ a.account.batches, ∀ o, b.seen.count o = 0 := by
    intro b hb o
    rw [(h.batches b hb).2.2.2]
    rfl
  constructor
  · intro hm e hle hdue i r hlt
    by_contra hne
    have hwritten : r < (a.state.worker i).written.length := lt_of_lt_of_le hlt (hle.trans (h.cycles_le i))
    obtain ⟨o, ho, -, hcycle⟩ := (h.added i r).mpr ⟨hwritten, hne⟩
    -- the observation of this read misses the batch of its first due cycle
    obtain ⟨e', hle', hfirst⟩ := exists_firstDue hdue (show o.cycle ≤ e by omega)
    obtain ⟨b, hb, rfl⟩ := h.calls e' ((h.numbered o ho).trans hfirst.2.1) (hle'.trans hle) hfirst.1
    have hcount := hm.first b hb o hfirst
    rw [hseen b hb o] at hcount
    exact absurd (List.count_pos_iff.mpr ho) (by omega)
  · intro hnone
    refine ⟨h.calls, fun b hb => ?_, fun b hb o hfirst => ?_, fun b hb o _ => hseen b hb o⟩
    · obtain ⟨hdue, -, hvalue, hempty⟩ := h.batches b hb
      refine ⟨hdue, ?_⟩
      rw [hvalue, hempty]
      rfl
    · obtain ⟨hdue, hle, -⟩ := h.batches b hb
      rw [hseen b hb o, eq_comm, List.count_eq_zero]
      intro ho
      have hpos := h.numbered o ho
      obtain ⟨-, hread⟩ := (h.added o.follower (o.cycle - 1)).mp ⟨o, ho, rfl, by omega⟩
      have hbefore := hfirst.2.1
      exact hread (hnone b.cycle hle hdue o.follower (o.cycle - 1) (by omega))

end Sound

/-- A step beside the account is one of the code. -/
theorem state_step (files : Files n) (t : Thread n) (a : Accounted F n) :
    (step files t a).map state = Parallel.step files t a.state := by
  have hstate : state ∘ a.next files t = id := by
    funext s
    show (a.next files t s).state = s
    unfold next
    split <;> rfl
  rw [step, Option.map_map, hstate, Option.map_id]
  rfl

/-- The account is beside the runs of the code, and sound after each of them. -/
theorem runs_account {files : Files n} {controllers : Fin n → Controller F} {sched : List (Thread n)} {s : Parallel F n}
    (h : runs (Parallel.step files) sched (.start controllers) = some s) :
    ∃ a, runs (step files) sched (start controllers) = some a ∧ a.state = s ∧ a.Sound files := by
  have hmap := runs_map (state_step files) sched (start controllers)
  rw [show (start controllers).state = Parallel.start controllers from rfl, h] at hmap
  obtain ⟨a, ha, hstate⟩ := Option.map_eq_some_iff.mp hmap
  exact ⟨a, ha, hstate, runs_inv (fun _ _ _ hs hstep => hs.step hstep) sched (sound_start files controllers) ha⟩

end Parallel.Accounted

/-- **In `run_single` every correction is monitored. In `run_parallel` it is only until a follower could be read and the
interval ends**: the statistics that are evaluated there are always those of no observation. -/
theorem monitored_iff (files : Files n) (controllers : Fin n → Controller F) :
    (∀ k, let a := Single.Accounted.loop files controllers k
      a.state = Single.loop files controllers k ∧ files.Monitors a.cycles a.account) ∧
    ∀ sched s, runs (Parallel.step files) sched (.start controllers) = some s →
      ∃ a, runs (Parallel.Accounted.step files) sched (.start controllers) = some a ∧ a.state = s ∧
        (files.Monitors a.cycles a.account ↔
          ∀ e ≤ a.cycles, files.due e → ∀ i, ∀ r < e, files.follower i r = none) := by
  constructor
  · intro k
    exact ⟨Single.Accounted.state_loop files controllers k,
      (Single.Accounted.sound_loop files controllers k).kept.toMonitored⟩
  · intro sched s h
    obtain ⟨a, ha, hstate, hsound⟩ := Parallel.Accounted.runs_account h
    exact ⟨a, ha, hstate, hsound.monitors_iff⟩

/-! ## One follower -/

/-- One follower with these reads, a master whose TSF is 1000 in every cycle, and `check_stats` after each. -/
def checkedFollower (follower : Nat → Option UInt64) : Files 1 := ⟨fun _ => some 1000, fun _ => follower, 1, 50⟩

/-- The first cycle of `run_parallel`. -/
def firstCycle : List (Thread 1) :=
  [.sampler, .sampler, .sampler, lateWorker, lateWorker, lateWorker, lateWorker, lateWorker, lateWorker, lateWorker,
    .sampler, .sampler, .sampler, .sampler]

/-- A follower that cannot be read has nothing to monitor. -/
theorem monitored_iff_unread : ∃ a : Parallel.Accounted Float 1,
    runs (Parallel.Accounted.step (checkedFollower fun _ => none)) firstCycle (.start lateController) = some a ∧
    a.state.sampler.cycle = 1 ∧ (checkedFollower fun _ => none).Monitors a.cycles a.account := by
  have h : runs (Parallel.step (checkedFollower fun _ => none)) firstCycle (.start lateController) = some _ := rfl
  obtain ⟨a, ha, hstate, hiff⟩ := (monitored_iff (checkedFollower fun _ => none) lateController).2 firstCycle _ h
  exact ⟨a, ha, by rw [hstate]; rfl, hiff.mpr fun _ _ _ _ _ _ => rfl⟩

/-- A follower that is read is corrected in the first cycle; the statistics evaluated at its end are empty. -/
theorem monitored_counterexample : ¬∀ (n : Nat) (files : Files n) (controllers : Fin n → Controller Float)
    (sched : List (Thread n)) (a : Parallel.Accounted Float n), 0 < files.statsIntervalCycles →
    runs (Parallel.Accounted.step files) sched (.start controllers) = some a →
      files.Monitors a.cycles a.account := by
  intro h
  have hm := h 1 (checkedFollower fun _ => some 900) lateController firstCycle _ (by decide) rfl
  have hcount : 0 = 1 := hm.first ⟨1, .new, []⟩ List.mem_cons_self ⟨0, 1, 100, 100⟩
    ⟨by decide, Nat.le_refl 1, fun e' h₁ h₂ => absurd h₁ (Nat.not_le.mpr h₂)⟩
  cases hcount

end TsfSync.Debugfs
