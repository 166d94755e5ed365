import TsfSync.Lib.Runs

/-!
# Does `stop` wait for the thread of Mode C?

The thread that `start` spawns opens `/dev/tsf_sync` and keeps it open until it reads `running` as false, and the open
file pins the module. `stop` stores false and goes on to unload the module, without a join of the thread. So from wherever the
thread is it may come to the unload while the file is open, unless the thread has failed before: only then is the unload
safe in every interleaving (`unloadsAfterClose_iff`).
-/

namespace TsfSync.User

open StepSystem

/-! ## The thread and `stop` -/

/-- Where the thread of Mode C is: in the two calls of `IoUringSyncer::new`, in the drop of the file or at the end if one
of them has failed, or else in the loop of `run`, in the drop after it, or at the end. -/
inductive SyncerPc
  | opening
  | settingUp
  | failing
  | failed
  | testing
  | syncing
  | sleeping
  | dropping
  | ended
  deriving DecidableEq, Repr

/-- The thread has `/dev/tsf_sync` open. -/
def SyncerPc.holdsFile : SyncerPc → Bool
  | .opening | .failed | .ended => false
  | .settingUp | .failing | .testing | .syncing | .sleeping | .dropping => true

/-- How `stop` ends. -/
inductive StopResult
  | unloaded
  | notLoaded
  | procModules
  | inUse
  | rmmod
  deriving DecidableEq, Repr

/-- Where `stop` is: not called yet, before the store of `running`, before the read of `/proc/modules`, before `rmmod`, or
at its end. -/
inductive StopPc
  | notCalled
  | storing
  | reading
  | removing
  | returned (result : StopResult)
  deriving DecidableEq, Repr

/-- The daemon in Mode C, and whether the module is loaded. -/
structure ModeC where
  thread : SyncerPc
  stop : StopPc
  running : Bool
  loaded : Bool
  deriving DecidableEq, Repr

/-- Whose turn it is, and whether a call that may fail succeeds. -/
inductive Turn
  | thread (succeeds : Bool)
  | stop (succeeds : Bool)
  deriving DecidableEq, Repr

namespace ModeC

/-- The end of a successful `start`. -/
def started : ModeC := ⟨.opening, .notCalled, true, true⟩

/-- A step of the thread. -/
def stepThread (succeeds : Bool) (s : ModeC) : Option SyncerPc :=
  match s.thread with
  | .opening => some (if succeeds && s.loaded then .settingUp else .failed)
  | .settingUp => some (if succeeds then .testing else .failing)
  | .failing => some .failed
  | .testing => some (if s.running then .syncing else .dropping)
  | .syncing => some .sleeping
  | .sleeping => some .testing
  | .dropping => some .ended
  | .failed | .ended => none

/-- A step of `stop`. A module is not removed while a file of it is open. -/
def stepStop (succeeds : Bool) (s : ModeC) : Option ModeC :=
  match s.stop with
  | .notCalled => some { s with stop := .storing }
  | .storing => some { s with running := false, stop := .reading }
  | .reading =>
    if !succeeds then some { s with stop := .returned .procModules }
    else some { s with stop := if s.loaded then .removing else .returned .notLoaded }
  | .removing =>
    if s.thread.holdsFile then some { s with stop := .returned .inUse }
    else if succeeds then some { s with loaded := false, stop := .returned .unloaded }
    else some { s with stop := .returned .rmmod }
  | .returned _ => none

/-- A step of the thread or of `stop`. -/
def step : Turn → ModeC → Option ModeC
  | .thread succeeds, s => (s.stepThread succeeds).map fun pc => { s with thread := pc }
  | .stop succeeds, s => s.stepStop succeeds

/-! ## Before the call -/

/-- While `stop` has not been called the thread has seen `running` true, and the module is loaded. -/
def Untouched (s : ModeC) : Prop :=
  s.running = true ∧ s.loaded = true ∧ s.thread ≠ .dropping ∧ s.thread ≠ .ended

/-- A step of `stop` leaves the thread, and is the call or comes after it. -/
theorem stepStop_spec {succeeds : Bool} {s s' : ModeC} (h : s.stepStop succeeds = some s') :
    s'.thread = s.thread ∧ s'.stop ≠ .notCalled := by
  unfold stepStop at h
  cases hstop : s.stop <;> rw [hstop] at h
  case notCalled => cases h; exact ⟨rfl, by simp⟩
  case storing => cases h; exact ⟨rfl, by simp⟩
  case reading =>
    dsimp only at h
    split at h
    · cases h; exact ⟨rfl, by simp⟩
    · cases h; exact ⟨rfl, by dsimp only; split <;> simp⟩
  case removing =>
    dsimp only at h
    split at h
    · cases h; exact ⟨rfl, by simp⟩
    · split at h <;> cases h <;> exact ⟨rfl, by simp⟩
  case returned => cases h

/-- The removal fails because the module is in use exactly if the thread has the file open. -/
theorem stepStop_inUse_iff {succeeds : Bool} {s s' : ModeC} (hremoving : s.stop = .removing)
    (h : s.stepStop succeeds = some s') : s'.stop = .returned .inUse ↔ s.thread.holdsFile = true := by
  unfold stepStop at h
  rw [hremoving] at h
  dsimp only at h
  split at h
  · rename_i hopen
    cases h
    exact iff_of_true rfl hopen
  · rename_i hclosed
    split at h <;> cases h <;> exact iff_of_false (by simp) hclosed

/-- A thread that reads `running` as true does not leave its loop. -/
theorem stepThread_running {succeeds : Bool} {s : ModeC} {pc : SyncerPc} (hs : s.Untouched)
    (h : s.stepThread succeeds = some pc) : pc ≠ .dropping ∧ pc ≠ .ended := by
  obtain ⟨hrunning, -, hdropping, hended⟩ := hs
  unfold stepThread at h
  rw [hrunning] at h
  cases hthread : s.thread <;> rw [hthread] at h hdropping hended
  case opening => cases h; split <;> simp
  case settingUp => cases h; split <;> simp
  case dropping => exact absurd rfl hdropping
  case ended => cases h
  case failed => cases h
  all_goals cases h; simp

/-- Before the call nothing changes but the thread, which stays in its loop. -/
theorem untouched_step (turn : Turn) (s s' : ModeC) (hs : s.stop = .notCalled → s.Untouched)
    (hstep : step turn s = some s') (hcall : s'.stop = .notCalled) : s'.Untouched := by
  cases turn with
  | thread succeeds =>
    obtain ⟨pc, hpc, rfl⟩ := Option.map_eq_some_iff.mp hstep
    have huntouched := hs hcall
    exact ⟨huntouched.1, huntouched.2.1, stepThread_running huntouched hpc⟩
  | stop succeeds => exact absurd hcall (stepStop_spec hstep).2

theorem untouched_runs {turns : List Turn} {s : ModeC} (hrun : runs step turns started = some s)
    (hcall : s.stop = .notCalled) : s.Untouched :=
  runs_inv (P := fun s => s.stop = .notCalled → s.Untouched) untouched_step turns
    (fun _ => ⟨rfl, rfl, by decide, by decide⟩) hrun hcall

/-- A thread that has failed takes no more steps. -/
theorem failed_runs {turns : List Turn} {s s' : ModeC} (hs : s.thread = .failed) (hrun : runs step turns s = some s') :
    s'.thread = .failed := by
  refine runs_inv (P := fun s => s.thread = .failed) (fun turn s s' hs hstep => ?_) turns hs hrun
  cases turn with
  | thread succeeds =>
    obtain ⟨pc, hpc, -⟩ := Option.map_eq_some_iff.mp hstep
    rw [stepThread, hs] at hpc
    cases hpc
  | stop succeeds => exact (stepStop_spec hstep).1.trans hs

/-! ## The property -/

/-- **The unload waits for the thread**: whenever `stop` attempts to unload the module the thread does not have
`/dev/tsf_sync` open, and `stop` does not fail because the module is in use. -/
def UnloadsAfterClose (s : ModeC) : Prop :=
  ∀ turns succeeds s' s'', runs step turns s = some s' → s'.stop = .removing → step (.stop succeeds) s' = some s'' →
    s'.thread.holdsFile = false ∧ s''.stop ≠ .returned .inUse

/-- From a call with the file open, `stop` comes to the unload without a step of the thread. -/
theorem not_unloadsAfterClose {s : ModeC} (hcall : s.stop = .notCalled) (hloaded : s.loaded = true)
    (hopen : s.thread.holdsFile = true) : ¬s.UnloadsAfterClose := by
  intro h
  have hrun : runs step [.stop true, .stop true, .stop true] s = some { s with running := false, stop := .removing } := by
    simp [runs, step, stepStop, hcall, hloaded]
  have hunload := h _ true _ { s with running := false, stop := .returned .inUse } hrun rfl (if_pos hopen)
  exact hunload.2 rfl

/-- **From a state in which `stop` has not been called, the unload waits for the thread in every interleaving exactly when
the thread has failed already.** -/
theorem unloadsAfterClose_iff {turns : List Turn} {s : ModeC} (hreach : runs step turns started = some s)
    (hcall : s.stop = .notCalled) : s.UnloadsAfterClose ↔ s.thread = .failed := by
  obtain ⟨-, hloaded, hdropping, hended⟩ := untouched_runs hreach hcall
  constructor
  · intro h
    by_cases hopening : s.thread = .opening
    · have hopen : step (.thread true) s = some { s with thread := .settingUp } := by
        simp [step, stepThread, hopening, hloaded]
      refine absurd (fun turns' succeeds s' s'' hrun => h (.thread true :: turns') succeeds s' s'' ?_)
        (not_unloadsAfterClose (s := { s with thread := .settingUp }) hcall hloaded rfl)
      rw [runs, hopen]
      exact hrun
    · by_contra hfailed
      refine not_unloadsAfterClose hcall hloaded ?_ h
      cases hthread : s.thread <;> simp_all [SyncerPc.holdsFile]
  · intro hfailed turns' succeeds s' s'' hrun hremoving hstep
    have hclosed : s'.thread.holdsFile = false := by
      rw [failed_runs hfailed hrun]
      rfl
    refine ⟨hclosed, fun hinUse => ?_⟩
    rw [stepStop_inUse_iff hremoving hstep, hclosed] at hinUse
    cases hinUse

/-- The thread cannot open the file. -/
theorem unloadsAfterClose_iff_failed : ∃ s, runs step [.thread false] started = some s ∧ s.UnloadsAfterClose :=
  ⟨_, rfl, (unloadsAfterClose_iff (show runs step [.thread false] started = some _ from rfl) rfl).mpr rfl⟩

/-- `stop` is called while the thread sleeps. -/
theorem unloadsAfterClose_counterexample : ¬started.UnloadsAfterClose := by
  intro h
  have hrun : runs step [.thread true, .thread true, .thread true, .thread true, .stop true, .stop true, .stop true]
      started = some ⟨.sleeping, .removing, false, true⟩ := rfl
  cases (h _ true _ _ hrun rfl rfl).1

end ModeC

end TsfSync.User
