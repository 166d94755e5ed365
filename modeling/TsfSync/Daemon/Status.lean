import TsfSync.Daemon.ModeB
import TsfSync.User.Status

/-!
# Does `status` report the mode that was started?

`status` knows nothing of the process that started the sync. It finds the mode in sysfs, where the load left it, and reads
each counter at its own time, while the module goes on: the numbers of one report need not belong to one moment. Whatever
the module does meanwhile, the report names the mode of the load, and each number is the counter at its read
(`status_reports`).
-/

namespace TsfSync

open User

/-- The counters that four reads from the `k`-th on find. -/
def countersAt (mods : Nat → Module) (k : Nat) : KernelSyncStatus where
  syncCount := counterOf (mods k) .syncCount
  syncErrorCount := counterOf (mods (k + 1)) .syncErrorCount
  adjtimeSkipCount := counterOf (mods (k + 2)) .adjtimeSkipCount
  adjtimeApplyCount := counterOf (mods (k + 3)) .adjtimeApplyCount

/-- What `status` prints for a mode, with the module as each of the reads finds it. The `0`-th is that of the mode, and the
last two are those of the last line; in Mode A nothing is read between. -/
def reportOf (ioText : IoError → Text) (pmc : Except IoError Text) (mods : Nat → Module) : SyncMode → Text
  | .ptp => pmcLines ioText pmc ++
    adjtimeLine (counterOf (mods 2) .adjtimeApplyCount) (counterOf (mods 1) .adjtimeSkipCount)
  | .kernel => modeLines ioText .kernel (.ok (countersAt mods 1)) ++
    adjtimeLine (counterOf (mods 6) .adjtimeApplyCount) (counterOf (mods 5) .adjtimeSkipCount)
  | .iouring => modeLines ioText .iouring (.ok (countersAt mods 1)) ++
    adjtimeLine (counterOf (mods 6) .adjtimeApplyCount) (counterOf (mods 5) .adjtimeSkipCount)

section Reads

variable {ioText : IoError → Text} {pmc : Except IoError Text} {module : Nat → Option Module} {mods : Nat → Module}

/-- The four reads of the counters of a loaded module. -/
theorem queryKernelSyncHealth_eq (hmods : ∀ k, module k = some (mods k)) (k : Nat) :
    (queryKernelSyncHealth module).run k = (.ok (countersAt mods k), k + 4) := by
  have hread : ∀ {file : ParamFile} (_ : file ≠ .syncMode) (j : Nat),
      readParam module file j = (.ok (counterOf (mods j) file), j + 1) := fun hfile j =>
    readParam_eq hfile (hmods j)
  simp [queryKernelSyncHealth, ExceptT.run_bind, ExceptT.run_mk, stateM_bind, stateM_map, hread, countersAt]

/-- The report on a loaded module is that of the mode it shows at the first read. -/
theorem status_eq (hmods : ∀ k, module k = some (mods k)) {mode : SyncMode}
    (hmode : activeModeOf (mods 0).syncMode = some mode) :
    ((status ioText pmc module).run 0).1 = reportOf ioText pmc mods mode := by
  have hactive : detectActiveSyncMode module 0 = (some mode, 1) := by
    rw [detectActiveSyncMode_eq (hmods 0), hmode]
  have hread : ∀ {file : ParamFile} (_ : file ≠ .syncMode) (j : Nat),
      readSysfsCounter module file j = (some (counterOf (mods j) file), j + 1) := fun hfile j =>
    readSysfsCounter_eq hfile (hmods j)
  have hquery := queryKernelSyncHealth_eq hmods 1
  cases mode with
  | ptp =>
    simp [status, StateT.run, stateM_bind, hactive, statusLines, stateM_pure, hread, reportOf]
  | kernel | iouring =>
    simp [status, StateT.run, stateM_bind, hactive, statusLines, hquery, stateM_map, stateM_pure, hread, reportOf]

end Reads

/-- The text of `sync_mode` is read back as the mode whose parameter it is. -/
theorem activeModeOf_asKernelParam (mode : SyncMode) : activeModeOf mode.asKernelParam = some mode := by
  cases mode <;> decide

/-- **`status` reports the mode of the load and the counters.** The module is one that `load_tsf_ptp` has loaded, and
whatever it does before each read, except that nobody writes a parameter. -/
theorem status_reports {W : Type} {h : Host W} (hd : h.Documented) {thr : UInt64} {mode : SyncMode}
    {primary : Option Str} {interval : Option UInt32} {w w₁ : W} (hnone : h.module w = none)
    (hload : h.loadTsfPtp thr mode primary interval w = (.ok (), w₁)) {mods : Nat → Module}
    (hmods : ∀ k, ∃ loaded as, h.module w₁ = some loaded ∧ (∀ a ∈ as, ¬Module.Action.WritesParam a) ∧
      StepSystem.runs Module.step as loaded = some (mods k))
    (ioText : IoError → Text) (pmc : Except IoError Text) :
    ((status ioText pmc fun k => some (mods k)).run 0).1 = reportOf ioText pmc mods mode := by
  obtain ⟨hsome, -⟩ | ⟨-, m, hm, hsync, -⟩ := loadTsfPtp_ok hd hload
  · rw [hnone] at hsome
    cases hsome
  · obtain ⟨loaded, as, hloaded, has, hrun⟩ := hmods 0
    rw [hm] at hloaded
    cases hloaded
    have hsync₀ : (mods 0).syncMode = mode.asKernelParam := (Module.sameParams_runs has hrun).1.trans hsync
    refine status_eq (fun k => rfl) ?_
    rw [hsync₀, activeModeOf_asKernelParam]

/-- The sync loop runs once between the read of the mode and those of the counters. -/
theorem status_reports_run : ∃ mods : Nat → Module, counterOf (mods 0) .syncCount = 0 ∧
    counterOf (mods 1) .syncCount = 1 ∧ ∀ ioText pmc,
      ((status ioText pmc fun k => some (mods k)).run 0).1 = reportOf ioText pmc mods .kernel := by
  have hd := documented_bench (Sysfs.bench (utf8 "mt76"))
  obtain ⟨m, m', hload, hrun, hinit, hcount⟩ : ∃ m m',
      (Host.bench (Sysfs.bench (utf8 "mt76")) Module.loadTwo).loadTsfPtp 5000 .kernel none (some 10) none =
        (.ok (), some m) ∧
      StepSystem.runs Module.step [.timer, .worker] m = some m' ∧ counterOf m .syncCount = 0 ∧
      counterOf m' .syncCount = 1 := ⟨_, _, rfl, rfl, by decide +kernel, by decide +kernel⟩
  refine ⟨fun k => if k = 0 then m else m', hinit, hcount, fun ioText pmc =>
    status_reports hd rfl hload (fun k => ?_) ioText pmc⟩
  by_cases hk : k = 0
  · exact ⟨m, [], rfl, by simp, by rw [if_pos hk]; rfl⟩
  · exact ⟨m, [.timer, .worker], rfl, by simp [Module.Action.WritesParam], by rw [if_neg hk]; exact hrun⟩

end TsfSync
