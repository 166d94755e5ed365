import TsfSync.Kernel.Module
import TsfSync.User.Health
import TsfSync.User.ModuleLoader

/-!
# `tsf-sync status`

The module shows `sync_mode` and its counters in sysfs, each as a line of text. `status` of `src/daemon.rs` reads the
files one after another, while the module goes on, and prints what it has parsed: in Modes B and C the counters, in Mode A
what `pmc` says. A counter is parsed as the module has it (`readParam_eq`).
-/

namespace TsfSync.User

open TsfSync

/-! ## The files of the module -/

/-- What the daemon reads of `/sys/module/tsf_ptp/parameters`. -/
inductive ParamFile
  | syncMode
  | syncCount
  | syncErrorCount
  | adjtimeSkipCount
  | adjtimeApplyCount
  deriving DecidableEq, Repr

/-- `param_get_atomic64`: `atomic64_read` of a counter as `"%lld\n"`. -/
def paramGetAtomic64 (count : Nat) : Text := signedText (Int64.ofNat count).toInt ++ ['\n']

/-- What the kernel shows for an `unsigned int`: `"%u\n"`. -/
def paramGetUint (v : UInt32) : Text := decimalText v.toNat ++ ['\n']

namespace ParamFile

/-- The name of the file. -/
def name : ParamFile → Text
  | syncMode => "sync_mode".toList
  | syncCount => "sync_count".toList
  | syncErrorCount => "sync_error_count".toList
  | adjtimeSkipCount => "adjtime_skip_count".toList
  | adjtimeApplyCount => "adjtime_apply_count".toList

/-- What the module shows in it. -/
def content (m : Module) : ParamFile → Text
  | syncMode => paramGetUint m.syncMode
  | syncCount => paramGetAtomic64 m.kernel.globalSyncCount
  | syncErrorCount => paramGetAtomic64 m.kernel.globalSyncErrorCount
  | adjtimeSkipCount => paramGetAtomic64 m.kernel.adjtimeSkipCount
  | adjtimeApplyCount => paramGetAtomic64 m.kernel.adjtimeApplyCount

end ParamFile

/-! ## Reading them -/

/-- `KernelSyncStatus`. -/
structure KernelSyncStatus where
  syncCount : Int64
  syncErrorCount : Int64
  adjtimeSkipCount : Int64
  adjtimeApplyCount : Int64
  deriving DecidableEq, Repr

section Reads

/-! The module, if it is loaded, as the `k`-th read finds it. -/
variable (module : Nat → Option Module)

/-- `read_to_string`. -/
def readToString (file : ParamFile) : StateM Nat (Except IoError Text) := fun k =>
  (match module k with
    | none => .error (.os (.other 2))
    | some m => .ok (file.content m), k + 1)

/-- `detect_active_sync_mode`. -/
def detectActiveSyncMode : StateM Nat (Option SyncMode) := do
  match ← readToString module .syncMode with
  | .error _ => return none
  | .ok value =>
    return if trim value = ['0'] then some .ptp
      else if trim value = ['1'] then some .kernel
      else if trim value = ['2'] then some .iouring
      else none

/-- `read_param` of `query_kernel_sync_health`. -/
def readParam (file : ParamFile) : StateM Nat (Except HealthError Int64) := do
  match ← readToString module file with
  | .error e => return .error (.pmcExec e)
  | .ok s => return (i64FromStr (trim s)).mapError fun e => .parse (file.name ++ ": ".toList ++ e.message)

/-- `query_kernel_sync_health`. -/
def queryKernelSyncHealth : ExceptT HealthError (StateM Nat) KernelSyncStatus := do
  let syncCount ← ExceptT.mk (readParam module .syncCount)
  let syncErrorCount ← ExceptT.mk (readParam module .syncErrorCount)
  let adjtimeSkipCount ← ExceptT.mk (readParam module .adjtimeSkipCount)
  let adjtimeApplyCount ← ExceptT.mk (readParam module .adjtimeApplyCount)
  return { syncCount, syncErrorCount, adjtimeSkipCount, adjtimeApplyCount }

/-- `read_sysfs_counter`. -/
def readSysfsCounter (file : ParamFile) : StateM Nat (Option Int64) := do
  match ← readToString module file with
  | .error _ => return none
  | .ok s => return (i64FromStr (trim s)).toOption

end Reads

/-! ## What is printed -/

/-- `Display` of a `SyncMode`. -/
def SyncMode.display : SyncMode → Text
  | .ptp => "ptp".toList
  | .kernel => "kernel".toList
  | .iouring => "iouring".toList

/-- `Display` of a `HealthState`. -/
def HealthState.display : HealthState → Text
  | .converging => "CONVERGING".toList
  | .healthy => "HEALTHY".toList
  | .degraded => "DEGRADED".toList
  | .failed => "FAILED".toList
  | .removed => "REMOVED".toList

/-- `Display` of a `HealthError`, given the texts of `io::Error`. -/
def HealthError.display (ioText : IoError → Text) : HealthError → Text
  | .pmcExec e => "failed to run pmc: ".toList ++ ioText e
  | .pmcNotFound => "pmc not found — is linuxptp installed?".toList
  | .parse message => "failed to parse pmc output: ".toList ++ message

/-- `query_health`, given what running `pmc` gives. -/
def queryHealth (pmc : Except IoError Text) : Except HealthError (List ClockStatus) :=
  match pmc with
  | .error e => .error (if e.kind = .notFound then .pmcNotFound else .pmcExec e)
  | .ok stdout => parsePortDataSet stdout

/-- `{:<width}`. -/
def padded (width : Nat) (s : Text) : Text := s ++ List.replicate (width - s.length) ' '

/-- An offset or a delay in the table. -/
def nsCell (ns : Option Int64) : Text :=
  match ns with
  | none => ['—']
  | some v => signedText v.toInt ++ " ns".toList

/-- `format_status_table`; the `Display` of a `HealthState` ignores the width. -/
def formatStatusTable (statuses : List ClockStatus) : Text :=
  let row (port state health offset delay : Text) : Text :=
    port ++ [' '] ++ state ++ [' '] ++ health ++ [' '] ++ offset ++ [' '] ++ delay ++ ['\n']
  row (padded 20 "PORT".toList) (padded 14 "STATE".toList) (padded 12 "HEALTH".toList) (padded 14 "OFFSET".toList)
    "PATH DELAY".toList ++
  statuses.flatMap fun s =>
    row (padded 20 s.port) (padded 14 s.portState) s.health.display (padded 14 (nsCell s.offsetNs)) (nsCell s.pathDelayNs)

/-- The lines of `status` for a mode with counters. -/
def modeLines (ioText : IoError → Text) (mode : SyncMode) : Except HealthError KernelSyncStatus → Text
  | .ok kstatus =>
    "Sync mode: ".toList ++ mode.display ++ ['\n'] ++
    "  sync_count:        ".toList ++ signedText kstatus.syncCount.toInt ++ ['\n'] ++
    "  sync_error_count:  ".toList ++ signedText kstatus.syncErrorCount.toInt ++ ['\n'] ++
    "  adjtime_skip:      ".toList ++ signedText kstatus.adjtimeSkipCount.toInt ++ ['\n'] ++
    "  adjtime_apply:     ".toList ++ signedText kstatus.adjtimeApplyCount.toInt ++ ['\n']
  | .error e => "Could not read kernel sync status: ".toList ++ e.display ioText ++ ['\n']

/-- The lines of `status` for Mode A. -/
def pmcLines (ioText : IoError → Text) (pmc : Except IoError Text) : Text :=
  match queryHealth pmc with
  | .ok statuses =>
    if statuses.isEmpty then "No clock statuses reported. Is ptp4l running?\n".toList else formatStatusTable statuses
  | .error e => "Could not query ptp4l status: ".toList ++ e.display ioText ++ ['\n']

/-- The last line of `status`. -/
def adjtimeLine (apply skip : Int64) : Text :=
  "  adjtime: ".toList ++ signedText apply.toInt ++ " applied, ".toList ++ signedText skip.toInt ++ " skipped\n".toList

section Status

variable (ioText : IoError → Text) (pmc : Except IoError Text) (module : Nat → Option Module)

/-- The lines of `status` for the active mode. -/
def statusLines : Option SyncMode → StateM Nat Text
  | some .kernel => do
    let kstatus ← (queryKernelSyncHealth module).run
    return modeLines ioText .kernel kstatus
  | some .iouring => do
    let kstatus ← (queryKernelSyncHealth module).run
    return modeLines ioText .iouring kstatus
  | some .ptp | none => return pmcLines ioText pmc

/-- `status`: what it prints. -/
def status : StateM Nat Text := do
  let activeMode ← detectActiveSyncMode module
  let out ← statusLines ioText pmc module activeMode
  let skip ← readSysfsCounter module .adjtimeSkipCount
  let apply ← readSysfsCounter module .adjtimeApplyCount
  match skip, apply with
  | some skip, some apply => return out ++ adjtimeLine apply skip
  | _, _ => return out

end Status

/-! ## What is read is what the module has -/

section Reads

theorem stateM_pure {α : Type} (a : α) (k : Nat) : (pure a : StateM Nat α) k = (a, k) := rfl

theorem stateM_bind {α β : Type} (x : StateM Nat α) (f : α → StateM Nat β) (k : Nat) :
    (x >>= f) k = f (x k).1 (x k).2 := rfl

theorem stateM_map {α β : Type} (f : α → β) (x : StateM Nat α) (k : Nat) : (f <$> x) k = (f (x k).1, (x k).2) := rfl

variable {module : Nat → Option Module} {k : Nat} {m : Module}

/-- The counter that a file shows, as an `s64`. -/
def counterOf (m : Module) : ParamFile → Int64
  | .syncMode => Int64.ofNat m.syncMode.toNat
  | .syncCount => Int64.ofNat m.kernel.globalSyncCount
  | .syncErrorCount => Int64.ofNat m.kernel.globalSyncErrorCount
  | .adjtimeSkipCount => Int64.ofNat m.kernel.adjtimeSkipCount
  | .adjtimeApplyCount => Int64.ofNat m.kernel.adjtimeApplyCount

/-- A counter is parsed as it is. -/
theorem i64FromStr_content (m : Module) {file : ParamFile} (hfile : file ≠ .syncMode) :
    i64FromStr (trim (file.content m)) = .ok (counterOf m file) := by
  cases file with
  | syncMode => exact absurd rfl hfile
  | syncCount | syncErrorCount | adjtimeSkipCount | adjtimeApplyCount =>
    exact (congrArg i64FromStr (trim_signedText _)).trans (i64FromStr_signedText _)

theorem readParam_eq {file : ParamFile} (hfile : file ≠ .syncMode) (hm : module k = some m) :
    readParam module file k = (.ok (counterOf m file), k + 1) := by
  simp [readParam, stateM_bind, readToString, hm, i64FromStr_content m hfile, Except.mapError, stateM_pure]

theorem readSysfsCounter_eq {file : ParamFile} (hfile : file ≠ .syncMode) (hm : module k = some m) :
    readSysfsCounter module file k = (some (counterOf m file), k + 1) := by
  simp [readSysfsCounter, stateM_bind, readToString, hm, i64FromStr_content m hfile, Except.toOption, stateM_pure]

/-- The text of a mode tells the mode. -/
theorem decimalText_inj {n n' : Nat} (h : decimalText n = decimalText n') : n = n' := by
  rw [← decimalValue_decimalText n, h, decimalValue_decimalText]

theorem trim_paramGetUint (v : UInt32) : trim (paramGetUint v) = decimalText v.toNat := by
  have hsigned : signedText (v.toNat : Int) = decimalText v.toNat := by
    rw [signedText, if_neg (by omega), Int.natAbs_natCast]
  rw [paramGetUint, ← hsigned, trim_signedText]

/-- The mode that a value of `sync_mode` is. -/
def activeModeOf (v : UInt32) : Option SyncMode :=
  if v = tsfSyncModePtp then some .ptp
  else if v = tsfSyncModeKernel then some .kernel
  else if v = tsfSyncModeChardev then some .iouring
  else none

theorem detectActiveSyncMode_eq (hm : module k = some m) :
    detectActiveSyncMode module k = (activeModeOf m.syncMode, k + 1) := by
  have hdigit : ∀ {n : UInt32} {c : Char}, decimalText n.toNat = [c] →
      (trim (paramGetUint m.syncMode) = [c] ↔ m.syncMode = n) := by
    intro n c hn
    rw [trim_paramGetUint, ← hn, ← UInt32.toNat_inj]
    exact ⟨decimalText_inj, congrArg decimalText⟩
  have h₀ := hdigit (n := tsfSyncModePtp) (c := '0') (by decide)
  have h₁ := hdigit (n := tsfSyncModeKernel) (c := '1') (by decide)
  have h₂ := hdigit (n := tsfSyncModeChardev) (c := '2') (by decide)
  simp [detectActiveSyncMode, stateM_bind, readToString, hm, stateM_pure, ParamFile.content, h₀, h₁, h₂, activeModeOf]

end Reads

end TsfSync.User
