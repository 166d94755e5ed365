import TsfSync.Kernel.State

/-!
# Mode B: the kernel sync loop

`tsf_sync_work_fn` reads the TSF of the primary and writes it to every other card whose offset is not below the
threshold, then schedules itself again.
-/

namespace TsfSync

open LockProg MachineWord

/-- `find_primary_locked`. -/
def findPrimaryLocked : KProg (Option CardPtr) :=
  Prog.read fun s =>
    if s.syncPrimary ≠ [] then s.cardsList.ptrs.find? fun c => (s.card c).phyName.bytes == s.syncPrimary
    else s.cardsList.ptrs.head?

/-- The label `resched`. `msecs_to_jiffies` only scales the delay. -/
def resched (interval : UInt32) : KProg Unit :=
  let interval := if interval = 0 then 10 else interval
  Prog.modify fun s => { s with syncWork := { s.syncWork with pending := some interval.toNat } }

/-- The test of `tsf_sync_work_fn`: `threshold == 0 || (delta_ns < 0 ? -delta_ns : delta_ns) >= threshold`. -/
def reachesThreshold (threshold : UInt32) (deltaNs : Int64) : Bool :=
  threshold == 0 || ofU32 threshold ≤ absW deltaNs

/-- `(s64)(primary_tsf - secondary_tsf) * NSEC_PER_USEC`. -/
def offsetNs (primaryTsf secondaryTsf : UInt64) : Int64 := (primaryTsf - secondaryTsf).toInt64 * nsecPerUsec

/-- The body of the walk over the secondaries. -/
def syncSecondary (threshold : UInt32) (primary : CardPtr) (primaryTsf : UInt64) (card : CardPtr) : KProg Unit := do
  if card = primary then
    return
  mutexLock (.card card)
  let k ← readCard card
  match k.vif with
  | none =>
    mutexUnlock (.card card)
    writeCard card fun k => { k with syncErrorCount := k.syncErrorCount + 1 }
  | some vif =>
    mutexLock (.wiphy k.hw.wiphy)
    let secondaryTsf ← tsfPtpCallGetTsf card vif
    let deltaNs := offsetNs primaryTsf secondaryTsf
    writeCard card fun k => { k with lastOffsetNs := deltaNs }
    if reachesThreshold threshold deltaNs then
      tsfPtpCallSetTsf card vif primaryTsf
      incApplyCount
    else
      incSkipCount
    mutexUnlock (.wiphy k.hw.wiphy)
    mutexUnlock (.card card)
    writeCard card fun k => { k with syncCount := k.syncCount + 1 }

/-- `tsf_sync_work_fn`. -/
def tsfSyncWorkFn : KProg Unit := do
  let interval ← Prog.read (·.syncIntervalMs)
  let threshold ← Prog.read (·.adjtimeThresholdNs)
  mutexLock .cards
  let primary ← findPrimaryLocked
  match primary with
  | none =>
    mutexUnlock .cards
    incGlobalSyncErrorCount
    resched interval
  | some primary =>
    mutexLock (.card primary)
    let k ← readCard primary
    match k.vif with
    | none =>
      mutexUnlock (.card primary)
      mutexUnlock .cards
      incGlobalSyncErrorCount
      resched interval
    | some primaryVif =>
      mutexLock (.wiphy k.hw.wiphy)
      let primaryTsf ← tsfPtpCallGetTsf primary primaryVif
      mutexUnlock (.wiphy k.hw.wiphy)
      mutexUnlock (.card primary)
      let cards ← listEntries
      forM cards (syncSecondary threshold primary primaryTsf)
      mutexUnlock .cards
      incGlobalSyncCount
      resched interval

end TsfSync
