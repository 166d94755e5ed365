import TsfSync.Kernel.State

/-!
# The PTP clock operations

`tsf_ptp_gettime`, `tsf_ptp_settime`, `tsf_ptp_adjtime` and `tsf_ptp_getcrosststamp`: each takes the lock of its card,
leaves with `-ENODEV` when no VIF is up, and otherwise calls the driver under the lock of the wiphy. `ns_to_timespec64`
and `timespec64_to_ns` are the kernel's.
-/

namespace TsfSync

open LockProg MachineWord

/-- `struct timespec64`. -/
structure Timespec64 where
  tvSec : Int64
  tvNsec : Int64
  deriving DecidableEq, Repr

/-- `ns_to_timespec64`: seconds rounded down, nanoseconds in `0..10^9 - 1`. -/
def nsToTimespec64 (ns : Int64) : Timespec64 :=
  ⟨Int64.ofInt (ns.toInt / 1000000000), Int64.ofInt (ns.toInt % 1000000000)⟩

/-- `KTIME_SEC_MAX`. -/
def ktimeSecMax : Int64 := Int64.maxValue / 1000000000

/-- `KTIME_SEC_MIN`. -/
def ktimeSecMin : Int64 := Int64.minValue / 1000000000

/-- `timespec64_to_ns`, which saturates. -/
def timespec64ToNs (ts : Timespec64) : Int64 :=
  if ts.tvSec ≥ ktimeSecMax then Int64.maxValue
  else if ts.tvSec ≤ ktimeSecMin then Int64.minValue
  else ts.tvSec * 1000000000 + ts.tvNsec

/-- `struct system_device_crosststamp`. -/
structure SystemDeviceCrosststamp where
  device : Int64
  sysRealtime : Int64
  sysMonoraw : Int64
  deriving DecidableEq, Repr

/-- `tsf_ptp_gettime`. -/
def tsfPtpGettime (card : CardPtr) : KProg (Except Errno Timespec64) := do
  mutexLock (.card card)
  let k ← readCard card
  match k.vif with
  | none =>
    mutexUnlock (.card card)
    return .error .ENODEV
  | some vif =>
    mutexLock (.wiphy k.hw.wiphy)
    let tsfUsec ← tsfPtpCallGetTsf card vif
    mutexUnlock (.wiphy k.hw.wiphy)
    mutexUnlock (.card card)
    return .ok (nsToTimespec64 (tsfToNs tsfUsec))

/-- `tsf_ptp_settime`. -/
def tsfPtpSettime (card : CardPtr) (ts : Timespec64) : KProg (Except Errno Unit) := do
  let tsfUsec := (timespec64ToNs ts).toUInt64 / 1000
  mutexLock (.card card)
  let k ← readCard card
  match k.vif with
  | none =>
    mutexUnlock (.card card)
    return .error .ENODEV
  | some vif =>
    mutexLock (.wiphy k.hw.wiphy)
    tsfPtpCallSetTsf card vif tsfUsec
    mutexUnlock (.wiphy k.hw.wiphy)
    mutexUnlock (.card card)
    return .ok ()

/-- `tsf_ptp_adjtime`. -/
def tsfPtpAdjtime (card : CardPtr) (deltaNs : Int64) : KProg (Except Errno Unit) := do
  let threshold ← Prog.read (·.adjtimeThresholdNs)
  if belowThreshold threshold deltaNs then
    incSkipCount
    return .ok ()
  mutexLock (.card card)
  let k ← readCard card
  match k.vif with
  | none =>
    mutexUnlock (.card card)
    return .error .ENODEV
  | some vif =>
    mutexLock (.wiphy k.hw.wiphy)
    let tsfUsec ← tsfPtpCallGetTsf card vif
    tsfPtpCallSetTsf card vif (addDeltaNs tsfUsec deltaNs)
    mutexUnlock (.wiphy k.hw.wiphy)
    mutexUnlock (.card card)
    incApplyCount
    return .ok ()

/-- `tsf_ptp_getcrosststamp`. -/
def tsfPtpGetcrosststamp (card : CardPtr) : KProg (Except Errno SystemDeviceCrosststamp) := do
  mutexLock (.card card)
  let k ← readCard card
  match k.vif with
  | none =>
    mutexUnlock (.card card)
    return .error .ENODEV
  | some vif =>
    mutexLock (.wiphy k.hw.wiphy)
    let sysMonoraw ← Prog.read (·.ktimeRaw)
    let tsfUsec ← tsfPtpCallGetTsf card vif
    let sysRealtime ← Prog.read (·.ktimeReal)
    mutexUnlock (.wiphy k.hw.wiphy)
    mutexUnlock (.card card)
    return .ok ⟨tsfToNs tsfUsec, sysRealtime, sysMonoraw⟩

end TsfSync
