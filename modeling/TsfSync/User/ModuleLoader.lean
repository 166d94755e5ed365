import TsfSync.Kernel.Module
import TsfSync.User.Discovery

/-!
# Loading the module from the daemon

`load_tsf_ptp` of `src/module_loader.rs`: nothing if the module is loaded, else `modprobe` with the parameters, and
`insmod` of the file of the build if that fails. What the daemon finds outside itself is a `Host` over the states of the
machine.
-/

namespace TsfSync.User

open TsfSync

/-- `SyncMode`. -/
inductive SyncMode
  | ptp
  | kernel
  | iouring
  deriving DecidableEq, Repr

/-- `as_kernel_param`. -/
def SyncMode.asKernelParam : SyncMode → UInt32
  | .ptp => 0
  | .kernel => 1
  | .iouring => 2

/-- One argument `name=value` of `modprobe` and `insmod`. -/
inductive ParamArg
  | adjtimeThresholdNs (v : UInt64)
  | syncMode (v : UInt32)
  | syncPrimary (v : Str)
  | syncIntervalMs (v : UInt32)
  deriving DecidableEq, Repr

/-- `ModuleError`. -/
inductive ModuleError
  | procModules (e : IoError)
  | modprobe (stderr : Str)
  | rmmod (stderr : Str)
  | exec (e : IoError)
  deriving DecidableEq, Repr

/-- `Command::output`: it could not be run, or it ended, with an error text if it failed. -/
abbrev CommandOutput := Except IoError (Except Str Unit)

/-- A process identifier. -/
abbrev Pid := Nat

/-- The machine around the daemon, with states `W`: sysfs, the names in `/proc/modules`, the module `tsf_ptp` in the
kernel, the commands that load a module, the file of the build, half a second of sleep, the start of a process, the drop
of a `SyncProcess`, and the search for the index of a phy in `/dev/tsf_sync`. -/
structure Host (W : Type) where
  sysfs : W → Sysfs
  procModules : W → Except IoError (List Str)
  module : W → Option Module
  modprobe : List ParamArg → W → CommandOutput × W
  insmod : List ParamArg → W → CommandOutput × W
  koExists : W → Bool
  sleep : W → W
  spawn : Str → List Str → W → Except IoError Pid × W
  dropProcess : Pid → W → W
  findPrimaryIndex : Str → W → Except IoError UInt32 × W

/-- `MODULE_NAME`. -/
def moduleName : Str := utf8 "tsf_ptp"

/-- `is_module_loaded_from`, on the first fields of the lines. -/
def isModuleLoadedFrom (procModules : List Str) (module : Str) : Bool :=
  procModules.any (· == module.map fun b => if b = 45 then 95 else b)

namespace Host

variable {W : Type} (h : Host W)

/-- `is_tsf_ptp_loaded`. -/
def isTsfPtpLoaded (w : W) : Except ModuleError Bool :=
  match h.procModules w with
  | .error e => .error (.procModules e)
  | .ok names => .ok (isModuleLoadedFrom names moduleName)

/-- The end of `load_module` and `insmod`. -/
def commandResult : CommandOutput → Except ModuleError Unit
  | .error e => .error (.exec e)
  | .ok (.error stderr) => .error (.modprobe stderr)
  | .ok (.ok ()) => .ok ()

/-- The parameters that `load_tsf_ptp` passes. -/
def loadParams (adjtimeThresholdNs : UInt64) (syncMode : SyncMode) (syncPrimary : Option Str)
    (syncIntervalMs : Option UInt32) : List ParamArg :=
  [.adjtimeThresholdNs adjtimeThresholdNs, .syncMode syncMode.asKernelParam] ++
    (match syncPrimary with
      | none => []
      | some primary => if primary ≠ [] ∧ primary ≠ utf8 "auto" then [.syncPrimary primary] else []) ++
    (syncIntervalMs.map ParamArg.syncIntervalMs).toList

/-- `load_tsf_ptp`. -/
def loadTsfPtp (adjtimeThresholdNs : UInt64) (syncMode : SyncMode) (syncPrimary : Option Str)
    (syncIntervalMs : Option UInt32) (w : W) : Except ModuleError Unit × W :=
  match h.isTsfPtpLoaded w with
  | .error e => (.error e, w)
  | .ok true => (.ok (), w)
  | .ok false =>
    let params := loadParams adjtimeThresholdNs syncMode syncPrimary syncIntervalMs
    match h.modprobe params w with
    | (.ok (.ok ()), w) => (.ok (), w)
    | (.ok (.error _), w) | (.error _, w) =>
      if h.koExists w then
        let (output, w) := h.insmod params w
        (commandResult output, w)
      else (.error (.modprobe (utf8 "tsf_ptp module not found via modprobe or at kernel/tsf_ptp.ko")), w)

end Host

end TsfSync.User
