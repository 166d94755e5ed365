import TsfSync.Debugfs.Rounds

/-!
# The corrections of `run_parallel` and of `run_single`

In both loops the corrections of one follower depend only on its own reads and controller and on the master TSF of each
cycle (`controllerAfter`, `writtenIn`). `run_single` skips a cycle whose read of the master fails
(`Single.loop_follower`). `run_parallel` corrects in every cycle, with the TSF that the sampler published
(`publishedIn`, `replays_runs`): after a failed read of the master that is the old one, and 0 at first. So the two write
the same just when no cycle has a failed read of the master and a successful one of a follower, or when `clamp` panics
before anything is written (`cycles_agree_iff`).
-/

namespace TsfSync.Debugfs

open Function StepSystem

variable {F : Type} [F64 F] {n : Nat}

/-! ## A follower on its own -/

/-- What a cycle does to a follower: its controller afterwards and the TSF written, given what the reads of the master
and of the follower give. -/
def followerCycle (master read : Option UInt64) (c : Controller F) : Controller F × Option UInt64 :=
  match master with
  | none => (c, none)
  | some masterTsf =>
    match correctFollower read c masterTsf with
    | none => (c, none)
    | some r => (r.controller, r.written)

/-- The controller of a follower after so many cycles. -/
def controllerAfter (master read : Nat → Option UInt64) (c : Controller F) : Nat → Controller F
  | 0 => c
  | k + 1 => (followerCycle (master k) (read k) (controllerAfter master read c k)).1

/-- What cycle `k` writes to a follower. -/
def writtenIn (master read : Nat → Option UInt64) (c : Controller F) (k : Nat) : Option UInt64 :=
  (followerCycle (master k) (read k) (controllerAfter master read c k)).2

section Follower

variable {master read : Option UInt64} {c : Controller F} {m : UInt64}

/-- `correct_follower` panics when the read succeeds and `clamp` panics. -/
theorem correctFollower_eq_none :
    correctFollower read c m = none ↔ read.isSome = true ∧ clampPanics c.maxStepUs = true := by
  cases read with
  | none => simp [correctFollower]
  | some followerTsf =>
    have happ : c.apply m followerTsf = none ↔ clampPanics c.maxStepUs = true := Controller.apply_eq_none
    rw [← happ]
    simp only [correctFollower]
    cases c.apply m followerTsf <;> simp

/-- Nothing happens to a follower in a cycle without a master TSF. -/
@[simp] theorem followerCycle_skip (read : Option UInt64) (c : Controller F) :
    followerCycle none read c = (c, none) := rfl

/-- Nothing happens to a follower that cannot be read. -/
@[simp] theorem followerCycle_unread (master : Option UInt64) (c : Controller F) :
    followerCycle master none c = (c, none) := by
  cases master <;> rfl

/-- Nothing happens to a follower where `clamp` panics. -/
theorem followerCycle_of_panics (hp : clampPanics c.maxStepUs = true) : followerCycle master read c = (c, none) := by
  cases read with
  | none => exact followerCycle_unread master c
  | some followerTsf =>
    cases master with
    | none => rfl
    | some m =>
      have hnone : correctFollower (some followerTsf) c m = none := correctFollower_eq_none.mpr ⟨rfl, hp⟩
      simp [followerCycle, hnone]

/-- Where `clamp` does not panic, a cycle with a master TSF writes to the follower if it can be read. -/
theorem followerCycle_isSome (hp : clampPanics c.maxStepUs = false) :
    (followerCycle (some m) read c).2.isSome = read.isSome := by
  cases read with
  | none => simp
  | some followerTsf =>
    have happ : c.apply m followerTsf ≠ none := fun h => by rw [Controller.apply_eq_none.mp h] at hp; cases hp
    obtain ⟨⟨c', step, err⟩, he⟩ := Option.ne_none_iff_exists'.mp happ
    simp [followerCycle, correctFollower, he]

/-- A cycle leaves the bound of the steps. -/
@[simp] theorem maxStepUs_followerCycle : (followerCycle master read c).1.maxStepUs = c.maxStepUs := by
  cases master with
  | none => rfl
  | some m =>
    cases read with
    | none => simp
    | some followerTsf =>
      simp only [followerCycle, correctFollower]
      cases he : c.apply m followerTsf with
      | none => rfl
      | some r => exact Controller.maxStepUs_apply he

end Follower

section Sequences

variable {master master' read : Nat → Option UInt64} {c : Controller F}

@[simp] theorem maxStepUs_controllerAfter (k : Nat) : (controllerAfter master read c k).maxStepUs = c.maxStepUs := by
  induction k with
  | zero => rfl
  | succ k ih => rw [controllerAfter, maxStepUs_followerCycle, ih]

/-- Where `clamp` panics nothing is ever written. -/
theorem writtenIn_of_panics (hp : clampPanics c.maxStepUs = true) (k : Nat) : writtenIn master read c k = none := by
  rw [writtenIn, followerCycle_of_panics (by simpa using hp)]

/-- As long as cycles without a master TSF cannot read the follower, it is as good to fill in any TSF. -/
theorem controllerAfter_fill (hfill : ∀ k v, master k = some v → master' k = some v) {k : Nat}
    (hread : ∀ j < k, master j = none → read j = none) :
    controllerAfter master' read c k = controllerAfter master read c k := by
  induction k with
  | zero => rfl
  | succ k ih =>
    rw [controllerAfter, controllerAfter, ih fun j hj => hread j (Nat.lt_succ_of_lt hj)]
    cases hm : master k with
    | none => rw [hread k (Nat.lt_succ_self k) hm, followerCycle_unread, followerCycle_unread]
    | some v => rw [hfill k v hm]

/-- **Filling in TSFs changes what is written just when a cycle without a master TSF can read the follower.** -/
theorem writtenIn_fill_iff (hp : clampPanics c.maxStepUs = false)
    (hfill : ∀ k v, master k = some v → master' k = some v) (hall : ∀ k, (master' k).isSome = true) (len : Nat) :
    (∀ k < len, writtenIn master' read c k = writtenIn master read c k) ↔
      ∀ k < len, master k = none → read k = none := by
  constructor
  · intro h k hk hm
    obtain ⟨v, hv⟩ := Option.isSome_iff_exists.mp (hall k)
    have hw := h k hk
    rw [writtenIn, writtenIn, hm, hv] at hw
    have hsome : (followerCycle (some v) (read k) (controllerAfter master' read c k)).2.isSome = (read k).isSome :=
      followerCycle_isSome (by simpa using hp)
    rw [hw] at hsome
    simpa using hsome.symm
  · intro h k hk
    rw [writtenIn, writtenIn, controllerAfter_fill hfill fun j hj => h j (hj.trans hk)]
    cases hm : master k with
    | none => rw [h k hk hm, followerCycle_unread, followerCycle_unread]
    | some v => rw [hfill k v hm]

end Sequences

/-! ## `run_single` -/

namespace Single

variable (reads : Fin n → Option UInt64) (masterTsf : UInt64) {s : Single F n}

/-- The body of the inner loop does one follower's cycle, unless `clamp` panics. -/
theorem correct_follower {i : Fin n} (hs : s.panicked = false) (hp : clampPanics (s.controllers i).maxStepUs = false) :
    (correct reads masterTsf s i).panicked = false ∧
    (correct reads masterTsf s i).controllers =
      update s.controllers i (followerCycle (some masterTsf) (reads i) (s.controllers i)).1 ∧
    (correct reads masterTsf s i).written =
      update s.written i (followerCycle (some masterTsf) (reads i) (s.controllers i)).2 := by
  have hne : correctFollower (reads i) (s.controllers i) masterTsf ≠ none := fun h => by
    rw [(correctFollower_eq_none.mp h).2] at hp
    cases hp
  obtain ⟨r, hr⟩ := Option.ne_none_iff_exists'.mp hne
  simp only [correct, followerCycle, hs, hr, Bool.false_eq_true, if_false]
  split <;> exact ⟨rfl, rfl, rfl⟩

/-- The inner loop does the cycle of each follower, unless `clamp` panics. -/
theorem foldl_correct {l : List (Fin n)} (hl : l.Nodup) : ∀ {s : Single F n}, s.panicked = false →
    (∀ i, clampPanics (s.controllers i).maxStepUs = false) →
    (l.foldl (correct reads masterTsf) s).panicked = false ∧ ∀ i,
      ((l.foldl (correct reads masterTsf) s).controllers i, (l.foldl (correct reads masterTsf) s).written i) =
        if i ∈ l then followerCycle (some masterTsf) (reads i) (s.controllers i) else (s.controllers i, s.written i) := by
  induction l with
  | nil => intro s hs _; exact ⟨hs, fun i => by simp⟩
  | cons j l ih =>
    intro s hs hp
    obtain ⟨hj, hl⟩ := List.nodup_cons.mp hl
    obtain ⟨hs', hc, hw⟩ := correct_follower reads masterTsf hs (hp j)
    have hp' : ∀ i, clampPanics ((correct reads masterTsf s j).controllers i).maxStepUs = false := by
      intro i
      rw [hc]
      by_cases hij : i = j
      · subst hij; simpa using hp i
      · simpa [hij] using hp i
    obtain ⟨hlast, hall⟩ := ih hl hs' hp'
    refine ⟨hlast, fun i => ?_⟩
    rw [List.foldl_cons, hall i, hc, hw]
    by_cases hij : i = j
    · subst hij; simp [hj]
    · simp [hij]

/-- Where `clamp` panics the inner loop leaves the controllers and writes nothing. -/
theorem foldl_correct_of_panics (l : List (Fin n)) : ∀ {s : Single F n},
    (∀ i, clampPanics (s.controllers i).maxStepUs = true) → s.written = (fun _ => none) →
    (l.foldl (correct reads masterTsf) s).controllers = s.controllers ∧
      (l.foldl (correct reads masterTsf) s).written = fun _ => none := by
  induction l with
  | nil => exact fun _ hw => ⟨rfl, hw⟩
  | cons j l ih =>
    intro s hp hw
    have hone : (correct reads masterTsf s j).controllers = s.controllers ∧
        (correct reads masterTsf s j).written = fun _ => none := by
      unfold correct
      split
      · exact ⟨rfl, hw⟩
      · cases hread : reads j with
        | none => simp [correctFollower, hw]
        | some v =>
          have hnone : correctFollower (some v) (s.controllers j) masterTsf = none :=
            correctFollower_eq_none.mpr ⟨rfl, hp j⟩
          rw [hnone]
          exact ⟨rfl, hw⟩
    obtain ⟨hc, hw'⟩ := hone
    rw [List.foldl_cons, ← hc]
    exact ih (by rw [hc]; exact hp) hw'

variable {files : Files n}

/-- A cycle of `run_single` is one of each follower, unless `clamp` panics. -/
theorem iteration_follower (files : Files n) {k : Nat} (hs : s.panicked = false)
    (hp : ∀ i, clampPanics (s.controllers i).maxStepUs = false) :
    (s.iteration files k).panicked = false ∧ ∀ i,
      ((s.iteration files k).controllers i, (s.iteration files k).written i) =
        followerCycle (files.master k) (files.follower i k) (s.controllers i) := by
  simp only [iteration, hs, Bool.false_eq_true, if_false]
  cases files.master k with
  | none => exact ⟨rfl, fun i => rfl⟩
  | some masterTsf =>
    obtain ⟨hlast, hall⟩ := foldl_correct (files.follower · k) masterTsf (List.nodup_finRange n)
      (s := ⟨s.controllers, s.stats, s.cycle, s.lines, fun _ => none, false⟩) rfl hp
    simp only [hlast, Bool.false_eq_true, if_false]
    exact ⟨trivial, fun i => by simpa using hall i⟩

/-- Where `clamp` panics a cycle of `run_single` leaves the controllers and writes nothing. -/
theorem iteration_of_panics {k : Nat} (hp : ∀ i, clampPanics (s.controllers i).maxStepUs = true) :
    (s.iteration files k).controllers = s.controllers ∧ (s.iteration files k).written = fun _ => none := by
  simp only [iteration]
  split
  · exact ⟨rfl, rfl⟩
  · cases files.master k with
    | none => exact ⟨rfl, rfl⟩
    | some masterTsf =>
      have hfold := foldl_correct_of_panics (files.follower · k) masterTsf (List.finRange n)
        (s := { s with written := fun _ => none }) hp rfl
      dsimp only
      split <;> exact hfold

variable {controllers : Fin n → Controller F} {maxStepUs : Int64}

/-- Where no `clamp` panics, `run_single` does the cycles of each follower. -/
theorem loop_controllers (files : Files n) (hp : ∀ i, clampPanics (controllers i).maxStepUs = false) (k : Nat) :
    (loop files controllers k).panicked = false ∧ ∀ i, (loop files controllers k).controllers i =
      controllerAfter files.master (files.follower i) (controllers i) k := by
  induction k with
  | zero => exact ⟨rfl, fun i => rfl⟩
  | succ k ih =>
    obtain ⟨hs, hcs⟩ := ih
    obtain ⟨hs', hi⟩ := iteration_follower files (k := k) hs fun i => by rw [hcs i]; simp [hp]
    exact ⟨hs', fun i => by rw [loop, controllerAfter, ← hcs i, ← hi i]⟩

theorem loop_written (hp : ∀ i, clampPanics (controllers i).maxStepUs = false) (k : Nat) (i : Fin n) :
    (loop files controllers (k + 1)).written i = writtenIn files.master (files.follower i) (controllers i) k := by
  obtain ⟨hs, hcs⟩ := loop_controllers files hp k
  have hi := (iteration_follower files (k := k) hs fun i => by rw [hcs i]; simp [hp]).2 i
  rw [loop, writtenIn, ← hcs i, ← hi]

/-- **`run_single` does the cycles of each follower, with what the reads of the master give.** -/
theorem loop_follower (hc : ∀ i, (controllers i).maxStepUs = maxStepUs) (k : Nat) (i : Fin n) :
    (loop files controllers k).controllers i =
      controllerAfter files.master (files.follower i) (controllers i) k ∧
    (loop files controllers (k + 1)).written i =
      writtenIn files.master (files.follower i) (controllers i) k := by
  cases hp : clampPanics maxStepUs with
  | false =>
    have hall : ∀ i, clampPanics (controllers i).maxStepUs = false := fun i => by rw [hc, hp]
    exact ⟨(loop_controllers files hall k).2 i, loop_written hall k i⟩
  | true =>
    have hafter : ∀ k i, controllerAfter files.master (files.follower i) (controllers i) k = controllers i := by
      intro k i
      induction k with
      | zero => rfl
      | succ k ih => rw [controllerAfter, ih, followerCycle_of_panics (by rw [hc, hp])]
    have hall : ∀ k, (loop files controllers k).controllers = controllers := by
      intro k
      induction k with
      | zero => rfl
      | succ k ih =>
        rw [loop, (iteration_of_panics fun i => by rw [ih, hc, hp]).1, ih]
    refine ⟨by rw [hall, hafter], ?_⟩
    rw [loop, (iteration_of_panics fun i => by rw [hall, hc, hp]).2, writtenIn_of_panics (by rw [hc, hp])]

end Single

/-! ## `run_parallel` -/

/-- The shared TSF after the sampler's read in cycle `k`. -/
def publishedIn (files : Files n) : Nat → UInt64
  | 0 => (files.master 0).getD 0
  | k + 1 => (files.master (k + 1)).getD (publishedIn files k)

theorem publishedIn_of_read {files : Files n} {v : UInt64} {k : Nat} (h : files.master k = some v) :
    publishedIn files k = v := by
  cases k <;> simp [publishedIn, h]

/-- The sampler has published what its reads give, and each worker has done the cycles of its follower with that. -/
structure Replays (files : Files n) (controllers : Fin n → Controller F) (s : Parallel F n) : Prop where
  published : ∀ k v, s.sampler.published[k]? = some v → v = publishedIn files k
  controller : ∀ i, (s.worker i).controller =
    controllerAfter (fun k => some (publishedIn files k)) (files.follower i) (controllers i) (s.worker i).written.length
  written : ∀ i k w, (s.worker i).written[k]? = some w →
    w = writtenIn (fun k => some (publishedIn files k)) (files.follower i) (controllers i) k

/-- A step of one worker that changes no record. -/
theorem records_update {F : Type} {s : Parallel F n} {i : Fin n} {w : Worker F}
    (hw : w.controller = (s.worker i).controller ∧ w.written = (s.worker i).written) (j : Fin n) :
    (update s.worker i w j).controller = (s.worker j).controller ∧
      (update s.worker i w j).written = (s.worker j).written := by
  by_cases hj : j = i
  · subst hj; simpa using hw
  · simp [hj]

/-- An entry of a list with one more at the end. -/
theorem getElem?_concat_cases {α : Type} {l : List α} {x v : α} {k : Nat} (h : (l ++ [x])[k]? = some v) :
    l[k]? = some v ∨ k = l.length ∧ v = x := by
  rcases Nat.lt_or_ge k l.length with hlt | hge
  · rw [List.getElem?_append_left hlt] at h
    exact Or.inl h
  · obtain ⟨hk, hv⟩ := List.getElem?_eq_some_iff.mp h
    have hke : k = l.length := by rw [List.length_append, List.length_singleton] at hk; omega
    subst hke
    exact Or.inr ⟨rfl, by simpa using hv.symm⟩

section Replay

variable {files : Files n} {controllers : Fin n → Controller F} {s s' : Parallel F n} {i : Fin n}

/-- The sampler's next record. -/
theorem Replays.publish (h : Replays files controllers s) (hin : InStep s) :
    (files.master s.sampler.published.length).getD s.masterTsf = publishedIn files s.sampler.published.length := by
  rw [hin.sampler.last]
  cases hl : s.sampler.published.length with
  | zero => rw [List.length_eq_zero_iff.mp hl]; rfl
  | succ k =>
    have hlast : s.sampler.published[k]? = some (s.sampler.published.getLastD 0) := by
      rw [List.getLastD_eq_getLast?, List.getLast?_eq_getElem?, hl, Nat.add_sub_cancel,
        List.getElem?_eq_getElem (by omega), Option.getD_some]
    rw [publishedIn, h.published k _ hlast]

/-- A step that changes no record. -/
theorem Replays.of_eq (h : Replays files controllers s) (hp : s'.sampler.published = s.sampler.published)
    (hw : ∀ i, (s'.worker i).controller = (s.worker i).controller ∧ (s'.worker i).written = (s.worker i).written) :
    Replays files controllers s' where
  published := hp ▸ h.published
  controller := fun i => by rw [(hw i).1, (hw i).2, h.controller i]
  written := fun i => (hw i).2 ▸ h.written i

/-- A correction is the next cycle of its follower. -/
theorem Replays.correct {m : UInt64} (h : Replays files controllers s) (hin : InStep s)
    (hpc : (s.worker i).pc = .correct m) : Replays files controllers (s.correctWorker files i m) := by
  have hm : m = publishedIn files (s.worker i).written.length := h.published _ _ ((hin.worker i).current m hpc)
  simp only [Parallel.correctWorker]
  split
  · exact h.of_eq rfl (records_update ⟨rfl, rfl⟩)
  · rename_i r hr
    have hcycle : followerCycle (some (publishedIn files (s.worker i).written.length))
        (files.follower i (s.worker i).written.length) (s.worker i).controller = (r.controller, r.written) := by
      rw [← hm, followerCycle, hr]
    rw [h.controller i] at hcycle
    refine ⟨h.published, fun j => ?_, fun j k w => ?_⟩
    · by_cases hj : j = i
      · subst hj
        simp only [update_self, List.length_append, List.length_singleton, controllerAfter, hcycle]
      · simpa [hj] using h.controller j
    · by_cases hj : j = i
      · subst hj
        simp only [update_self]
        intro hk
        rcases getElem?_concat_cases hk with hk | ⟨rfl, rfl⟩
        · exact h.written j k w hk
        · rw [writtenIn, hcycle]
      · simpa [hj] using h.written j k w

/-- The sampler records what it publishes, and leaves the corrections alone. -/
theorem Replays.samplerStep (h : Replays files controllers s) (hin : InStep s) (hstep : s.samplerStep files = some s') :
    Replays files controllers s' := by
  have hpc : ∀ (pc : SamplerPc) (b₁ b₂ : CyclicBarrier.Barrier (Option (Fin n))),
      Replays files controllers ({ s with barrier1 := b₁, barrier2 := b₂ }.samplerTo pc) :=
    fun _ _ _ => h.of_eq rfl fun _ => ⟨rfl, rfl⟩
  unfold Parallel.samplerStep at hstep
  split at hstep
  · cases hstep; exact hpc _ s.barrier1 s.barrier2
  · cases hstep
    refine ⟨fun k v hk => ?_, h.controller, h.written⟩
    rcases getElem?_concat_cases hk with hk | ⟨rfl, rfl⟩
    · exact h.published k v hk
    · exact h.publish hin
  · cases hstep; exact hpc _ _ s.barrier2
  · split at hstep
    · cases hstep; exact hpc _ s.barrier1 s.barrier2
    · cases hstep
  · cases hstep; exact hpc _ s.barrier1 _
  · split at hstep
    · cases hstep; exact hpc _ s.barrier1 s.barrier2
    · cases hstep
  · cases hstep; exact h.of_eq rfl fun _ => ⟨rfl, rfl⟩
  · cases hstep; exact hpc _ _ s.barrier2
  · split at hstep
    · cases hstep; exact hpc _ s.barrier1 s.barrier2
    · cases hstep
  · split at hstep
    · cases hstep; exact hpc _ s.barrier1 s.barrier2
    · cases hstep
  · cases hstep

/-- A worker's corrections are the cycles of its follower; its other steps leave them alone. -/
theorem Replays.workerStep (h : Replays files controllers s) (hin : InStep s)
    (hstep : s.workerStep files i = some s') : Replays files controllers s' := by
  have hpc : ∀ (pc : WorkerPc) (b₁ b₂ : CyclicBarrier.Barrier (Option (Fin n))),
      Replays files controllers ({ s with barrier1 := b₁, barrier2 := b₂ }.workerTo i pc) :=
    fun _ _ _ => h.of_eq rfl (records_update ⟨rfl, rfl⟩)
  have hexit : Replays files controllers (s.exitWorker i) := h.of_eq rfl (records_update ⟨rfl, rfl⟩)
  unfold Parallel.workerStep at hstep
  split at hstep <;> rename_i hat
  · cases hstep
    split
    · exact hpc _ s.barrier1 s.barrier2
    · exact hexit
  · cases hstep; exact hpc _ _ s.barrier2
  · split at hstep
    · cases hstep; exact hpc _ s.barrier1 s.barrier2
    · cases hstep
  · cases hstep
    split
    · exact hpc _ s.barrier1 s.barrier2
    · exact hexit
  · cases hstep; exact h.of_eq rfl (records_update ⟨rfl, rfl⟩)
  · cases hstep; exact h.correct hin hat
  · cases hstep; exact hpc _ s.barrier1 _
  · split at hstep
    · cases hstep; exact hpc _ s.barrier1 s.barrier2
    · cases hstep
  · cases hstep
  · cases hstep

/-- Every step keeps the replay. -/
theorem Replays.step {t : Thread n} (h : Replays files controllers s) (hin : InStep s)
    (hstep : Parallel.step files t s = some s') : Replays files controllers s' := by
  cases t with
  | sampler => exact h.samplerStep hin hstep
  | worker i => exact h.workerStep hin hstep
  | signalHandler =>
    simp only [Parallel.step] at hstep
    split at hstep
    · cases hstep; exact h.of_eq rfl fun _ => ⟨rfl, rfl⟩
    · cases hstep

theorem replays_start (files : Files n) (controllers : Fin n → Controller F) :
    Replays files controllers (.start controllers) :=
  ⟨fun _ _ h => by simp [Parallel.start] at h, fun _ => rfl, fun _ _ _ h => by simp [Parallel.start] at h⟩

/-- **`run_parallel` does the cycles of each follower, with what the sampler published.** -/
theorem replays_runs {sched : List (Thread n)}
    (h : runs (Parallel.step files) sched (.start controllers) = some s) : Replays files controllers s :=
  (runs_inv (P := fun s => s.standing.Sound ∧ InStep s ∧ Replays files controllers s)
    (fun _ _ _ hs hstep => ⟨hs.1.step (step_standing hstep), hs.2.1.step hs.1 hstep, hs.2.2.step hs.2.1 hstep⟩) sched
    ⟨sound_start controllers, inStep_start controllers, replays_start files controllers⟩ h).2.2

/-! ## Both -/

/-- **Each cycle of `run_parallel` writes to each follower what that cycle of `run_single` writes, just when no cycle so
far had a failed read of the master and a successful one of the follower, or `clamp` panics.** -/
theorem cycles_agree_iff {maxStepUs : Int64} {sched : List (Thread n)} (hc : ∀ i, (controllers i).maxStepUs = maxStepUs)
    (h : runs (Parallel.step files) sched (.start controllers) = some s) :
    (∀ i k w, (s.worker i).written[k]? = some w → w = (Single.loop files controllers (k + 1)).written i) ↔
      clampPanics maxStepUs = true ∨
        ∀ i, ∀ k < (s.worker i).written.length, files.master k = none → files.follower i k = none := by
  have hrep := replays_runs h
  -- both sides are about the cycles of each follower
  have hcycles : (∀ i k w, (s.worker i).written[k]? = some w → w = (Single.loop files controllers (k + 1)).written i) ↔
      ∀ i, ∀ k < (s.worker i).written.length,
        writtenIn (fun k => some (publishedIn files k)) (files.follower i) (controllers i) k =
          writtenIn files.master (files.follower i) (controllers i) k := by
    refine forall_congr' fun i => ⟨fun hw k hk => ?_, fun hw k w hk => ?_⟩
    · have hget := List.getElem?_eq_getElem hk
      rw [← hrep.written i k _ hget, hw k _ hget, (Single.loop_follower hc k i).2]
    · rw [hrep.written i k w hk, hw k (List.getElem?_eq_some_iff.mp hk).1, (Single.loop_follower hc k i).2]
  rw [hcycles]
  cases hp : clampPanics maxStepUs with
  | true =>
    have hpi : ∀ i, clampPanics (controllers i).maxStepUs = true := fun i => by rw [hc, hp]
    simp [writtenIn_of_panics (hpi _)]
  | false =>
    simp only [Bool.false_eq_true, false_or]
    refine forall_congr' fun i => ?_
    exact writtenIn_fill_iff (by rw [hc, hp]) (fun k v hm => congrArg some (publishedIn_of_read hm)) (fun _ => rfl) _

end Replay

/-! ## One follower -/

/-- The first correction of the worker. -/
def firstCorrection : List (Thread 1) :=
  [.sampler, .sampler, .sampler, lateWorker, lateWorker, lateWorker, lateWorker, lateWorker, lateWorker]

/-- When the read of the master succeeds, both write 1000. -/
theorem cycles_agree_first : ∃ s,
    runs (Parallel.step (lateFollower fun _ => some 1000)) firstCorrection (.start lateController) = some s ∧
    (s.worker 0).written = [some 1000] ∧ ∀ i k w, (s.worker i).written[k]? = some w →
      w = (Single.loop (lateFollower fun _ => some 1000) lateController (k + 1)).written i := by
  have h : runs (Parallel.step (lateFollower fun _ => some 1000)) firstCorrection (.start lateController) = some _ := rfl
  exact ⟨_, h, rfl, (cycles_agree_iff (fun _ => rfl) h).mpr (Or.inr fun _ _ _ hm => nomatch hm)⟩

/-- When the first read of the master fails, `run_parallel` corrects the follower towards 0; `run_single` does not. -/
theorem cycles_agree_counterexample : ¬∀ (n : Nat) (files : Files n) (controllers : Fin n → Controller Float)
    (sched : List (Thread n)) (s : Parallel Float n),
    runs (Parallel.step files) sched (.start controllers) = some s → s.running = true →
      ∀ i k w, (s.worker i).written[k]? = some w → w = (Single.loop files controllers (k + 1)).written i := by
  intro h
  have hw : (some 700 : Option UInt64) = none :=
    h 1 (lateFollower fun _ => none) lateController firstCorrection _ rfl rfl 0 0 (some 700) rfl
  cases hw

end TsfSync.Debugfs
