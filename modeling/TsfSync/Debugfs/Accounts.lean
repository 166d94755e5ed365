import TsfSync.Debugfs.Threading
import TsfSync.Lib.Batches

/-!
# Accounts of the statistics

Beside the loops of `threading.rs` an account keeps book of the observations that the accumulators hold and of the
evaluations of `check_stats`. `run_single` adds every observation to the accumulator that `check_stats` evaluates, so its
account is sound after every cycle (`Single.Accounted.sound_loop`): what is evaluated are the observations since the last
evaluation.
-/

namespace TsfSync.Debugfs

open Function Batching

/-- What `correct_follower` returned for a follower in a cycle. -/
structure Observation (n : Nat) where
  follower : Fin n
  cycle : Nat
  err : Int64
  step : Int64
  deriving DecidableEq, Repr

variable {F : Type} [F64 F] {n : Nat}

/-- The statistics after these observations. -/
def summary (obs : List (Observation n)) : WelfordStats F := observed (obs.map fun o => (o.err, o.step))

theorem summary_append (obs : List (Observation n)) (o : Observation n) :
    (summary (obs ++ [o]) : WelfordStats F) = (summary obs).update o.err o.step := by
  rw [summary, List.map_append, List.map_singleton, observed_append, ← summary]

/-- `check_stats` evaluates at the end of this cycle: the `u64` counter is at a multiple of the interval. -/
def Files.due (files : Files n) (cycle : Nat) : Prop :=
  0 < files.statsIntervalCycles ∧ UInt64.ofNat cycle % files.statsIntervalCycles = 0

instance (files : Files n) : DecidablePred files.due := fun _ => inferInstanceAs (Decidable (_ ∧ _))

/-- `check_stats` leaves empty statistics when it evaluates. -/
theorem checkStats_fst (files : Files n) (stats : WelfordStats F) (cycle : Nat) (label : String) :
    (checkStats stats (UInt64.ofNat cycle) files.statsIntervalCycles files.rmsWarnUs label).1 =
      if files.due cycle then .new else stats := by
  by_cases h : files.due cycle
  · rw [if_pos h, checkStats, if_pos (show _ ∧ _ from h)]
    rfl
  · rw [if_neg h, checkStats, if_neg (show ¬(_ ∧ _) from h)]

/-- The evaluations up to cycle `now` are those of all observations, each at the first multiple of the interval that is
not before its cycle. -/
abbrev Files.Monitors {A : Type} (files : Files n) (now : Nat) (account : Account A (Observation n) (WelfordStats F)) :
    Prop :=
  Monitored files.due Observation.cycle summary now account

/-- The account after `check_stats` with this accumulator at the end of a cycle. -/
def checked {A : Type} [DecidableEq A] (files : Files n) (acc : A) (cycle : Nat) (stats : WelfordStats F)
    (account : Account A (Observation n) (WelfordStats F)) : Account A (Observation n) (WelfordStats F) :=
  if files.due cycle then account.evaluate acc cycle stats else account

/-- The account after a correction with this result. -/
def recorded {A : Type} [DecidableEq A] (acc : A) (i : Fin n) (cycle : Nat) (result : Option (Int64 × Int64))
    (account : Account A (Observation n) (WelfordStats F)) : Account A (Observation n) (WelfordStats F) :=
  match result with
  | some (step, err) => account.add acc ⟨i, cycle, err, step⟩
  | none => account

section Recorded

variable {A : Type} [DecidableEq A] {acc acc' : A} {i : Fin n} {cycle : Nat} {result : Option (Int64 × Int64)}
  {account : Account A (Observation n) (WelfordStats F)}

omit [F64 F] in
theorem holds_recorded_of_ne (h : acc' ≠ acc) :
    (recorded acc i cycle result account).holds acc' = account.holds acc' := by
  cases result with
  | none => rfl
  | some r => exact Account.holds_add_of_ne h

omit [F64 F] in
theorem batches_recorded : (recorded acc i cycle result account).batches = account.batches := by
  cases result <;> rfl

/-- The accumulator of a correction is updated with its result. -/
theorem summary_recorded : (summary ((recorded acc i cycle result account).holds acc) : WelfordStats F) =
    match result with
    | some (step, err) => (summary (account.holds acc)).update err step
    | none => summary (account.holds acc) := by
  cases result with
  | none => rfl
  | some r =>
    show summary ((Account.add _ _ _).holds acc) = _
    rw [Account.holds_add, summary_append]

omit [F64 F] in
/-- The observations after a correction are those before, and its own if it has a result. -/
theorem mem_recorded {o : Observation n} : o ∈ (recorded acc i cycle result account).added ↔
    o ∈ account.added ∨ ∃ step err, result = some (step, err) ∧ o = ⟨i, cycle, err, step⟩ := by
  cases result with
  | none => simp [recorded]
  | some r =>
    obtain ⟨step, err⟩ := r
    simp [recorded, Account.add]

end Recorded

section Checked

variable {A : Type} [DecidableEq A] {files : Files n} {acc acc' : A} {cycle : Nat} {stats : WelfordStats F}
  {account : Account A (Observation n) (WelfordStats F)}

omit [F64 F] in
theorem added_checked : (checked files acc cycle stats account).added = account.added := by
  unfold checked
  split <;> rfl

omit [F64 F] in
theorem holds_checked_of_ne (h : acc' ≠ acc) : (checked files acc cycle stats account).holds acc' = account.holds acc' := by
  unfold checked
  split
  · exact Account.holds_evaluate_of_ne h
  · rfl

omit [F64 F] in
/-- The accumulator is empty after an evaluation. -/
theorem holds_checked : (checked files acc cycle stats account).holds acc =
    if files.due cycle then [] else account.holds acc := by
  unfold checked
  split
  · exact Account.holds_evaluate
  · rfl

omit [F64 F] in
/-- There is a new evaluation at a multiple of the interval. -/
theorem mem_checked {b : Batch (Observation n) (WelfordStats F)} :
    b ∈ (checked files acc cycle stats account).batches ↔
      b ∈ account.batches ∨ files.due cycle ∧ b = ⟨cycle, stats, account.holds acc⟩ := by
  unfold checked
  split
  · rename_i hdue
    simp only [Account.evaluate, List.mem_append, List.mem_singleton, hdue, true_and]
  · rename_i hdue
    simp only [hdue, false_and, or_false]

end Checked

/-! ## One thread -/

/-- `run_single`, the cycles that it has counted, and the account of its accumulator. -/
structure Single.Accounted (F : Type) (n : Nat) where
  state : Single F n
  cycles : Nat
  account : Account Unit (Observation n) (WelfordStats F)

namespace Single.Accounted

/-- The body of the loop over the followers. -/
def correct (reads : Fin n → Option UInt64) (masterTsf : UInt64) (a : Accounted F n) (i : Fin n) : Accounted F n :=
  let result :=
    if a.state.panicked then none
    else (correctFollower (reads i) (a.state.controllers i) masterTsf).bind (·.result)
  { a with
    state := a.state.correct reads masterTsf i
    account := recorded () i (a.cycles + 1) result a.account }

/-- One cycle of the loop. -/
def iteration (files : Files n) (k : Nat) (a : Accounted F n) : Accounted F n :=
  let state := a.state.iteration files k
  if a.state.panicked then { a with state }
  else
    match files.master k with
    | none => { a with state }
    | some masterTsf =>
      let started : Accounted F n := { a with state := { a.state with written := fun _ => none } }
      let corrected := (List.finRange n).foldl (correct (files.follower · k) masterTsf) started
      if corrected.state.panicked then { corrected with state }
      else ⟨state, a.cycles + 1, checked files () (a.cycles + 1) corrected.state.stats corrected.account⟩

/-- The loop after so many cycles. -/
def loop (files : Files n) (controllers : Fin n → Controller F) : Nat → Accounted F n
  | 0 => ⟨.start controllers, 0, .empty⟩
  | k + 1 => (loop files controllers k).iteration files k

/-- The accumulator holds the observations that the account says, which are those since the last evaluation. -/
structure Sound (files : Files n) (a : Accounted F n) : Prop where
  kept : Kept files.due Observation.cycle summary () a.cycles a.account
  stats : a.state.stats = summary (a.account.holds ())
  cycle : a.state.cycle = UInt64.ofNat a.cycles

variable {files : Files n} {a : Accounted F n}

theorem sound_start (files : Files n) (controllers : Fin n → Controller F) :
    Sound files (loop files controllers 0) := ⟨kept_empty, rfl, rfl⟩

@[simp] theorem cycles_correct (reads : Fin n → Option UInt64) (masterTsf : UInt64) (a : Accounted F n) (i : Fin n) :
    (a.correct reads masterTsf i).cycles = a.cycles := rfl

/-- A correction adds to the accumulator what it adds to the account. -/
theorem Sound.correct (h : a.Sound files) (reads : Fin n → Option UInt64) (masterTsf : UInt64) (i : Fin n) :
    (a.correct reads masterTsf i).Sound files := by
  unfold Accounted.correct Single.correct
  by_cases hp : a.state.panicked = true
  · simp only [if_pos hp, recorded]
    exact h
  · simp only [if_neg hp]
    cases hc : correctFollower (reads i) (a.state.controllers i) masterTsf with
    | none => exact ⟨h.kept, h.stats, h.cycle⟩
    | some c =>
      simp only [Option.bind_some]
      cases c.result with
      | none => exact ⟨h.kept, h.stats, h.cycle⟩
      | some r =>
        obtain ⟨step, err⟩ := r
        refine ⟨h.kept.add rfl, ?_, h.cycle⟩
        show a.state.stats.update err step =
          summary ((recorded () i (a.cycles + 1) (some (step, err)) a.account).holds ())
        rw [summary_recorded, h.stats]

/-- So do the corrections of all followers, which are those of the code. -/
theorem Sound.corrects (reads : Fin n → Option UInt64) (masterTsf : UInt64) (is : List (Fin n)) :
    ∀ {a : Accounted F n}, a.Sound files →
      let a' := is.foldl (Accounted.correct reads masterTsf) a
      a'.Sound files ∧ a'.state = is.foldl (Single.correct reads masterTsf) a.state ∧ a'.cycles = a.cycles := by
  induction is with
  | nil => exact fun h => ⟨h, rfl, rfl⟩
  | cons i is ih =>
    intro a h
    exact ih (h.correct reads masterTsf i)

/-- **A cycle keeps the account**: at a multiple of the interval the accumulator is evaluated and emptied. -/
theorem Sound.iteration (h : a.Sound files) (k : Nat) : (a.iteration files k).Sound files := by
  unfold Accounted.iteration Single.iteration
  by_cases hp : a.state.panicked = true
  · simp only [if_pos hp]
    exact ⟨h.kept, h.stats, h.cycle⟩
  · simp only [if_neg hp]
    cases hm : files.master k with
    | none => exact ⟨h.kept, h.stats, h.cycle⟩
    | some masterTsf =>
      have hstarted : Sound files { a with state := { a.state with written := fun _ => none } } :=
        ⟨h.kept, h.stats, h.cycle⟩
      obtain ⟨hs, hstate, hcycles⟩ := hstarted.corrects (files.follower · k) masterTsf (List.finRange n)
      dsimp only at hs hstate hcycles ⊢
      rw [← hstate]
      generalize List.foldl _ _ _ = c at hs hcycles ⊢
      by_cases hpc : c.state.panicked = true
      · simp only [if_pos hpc]
        exact ⟨hs.kept, hs.stats, hs.cycle⟩
      · have hcycle : c.state.cycle + 1 = UInt64.ofNat (a.cycles + 1) := by
          rw [hs.cycle, hcycles, UInt64.ofNat_add]
          rfl
        simp only [if_neg hpc, hcycle]
        have hkept := hs.kept
        rw [hcycles] at hkept
        refine ⟨?_, ?_, rfl⟩
        · show Kept _ _ _ _ _ (checked files () (a.cycles + 1) c.state.stats c.account)
          rw [checked, hs.stats]
          split
          · rename_i hdue; exact hkept.evaluate hdue
          · rename_i hdue; exact hkept.skip hdue
        · show (checkStats _ _ _ _ _).1 = summary ((checked files () (a.cycles + 1) c.state.stats c.account).holds ())
          rw [checkStats_fst, holds_checked]
          split
          · rfl
          · exact hs.stats

/-- The account is beside the loop of the code. -/
theorem state_iteration (a : Accounted F n) (k : Nat) : (a.iteration files k).state = a.state.iteration files k := by
  unfold Accounted.iteration
  dsimp only
  split
  · rfl
  · split
    · rfl
    · split <;> rfl

theorem state_loop (files : Files n) (controllers : Fin n → Controller F) (k : Nat) :
    (loop files controllers k).state = Single.loop files controllers k := by
  induction k with
  | zero => rfl
  | succ k ih => rw [loop, state_iteration, ih, Single.loop]

/-- **The account is sound after every cycle.** -/
theorem sound_loop (files : Files n) (controllers : Fin n → Controller F) (k : Nat) :
    (loop files controllers k).Sound files := by
  induction k with
  | zero => exact sound_start files controllers
  | succ k ih => exact ih.iteration k

end Single.Accounted

end TsfSync.Debugfs
