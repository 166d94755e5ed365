import TsfSync.Lib.Frame
import TsfSync.Kernel.Coverage
import TsfSync.Kernel.LockOrder

/-!
# Who writes the parameters and the work

Only `tsf_sync_work_fn` and the functions that start and stop it change `sync_work`, and no function of the module writes
a parameter: the PTP operations, the char device and the notifier leave both alone (`frames_adjtime`,
`frames_chardevWrite`, `config_rtnlStep`). The calls of userspace leave alone whatever their driver calls and counters do.
-/

namespace TsfSync

open LockProg Uapi

/-- The parameters of the module, except `sync_mode`, and `sync_work`. -/
def Kernel.config (s : Kernel) : UInt32 × List UInt8 × UInt32 × DelayedWork :=
  (s.adjtimeThresholdNs, s.syncPrimary, s.syncIntervalMs, s.syncWork)

/-! ## The PTP clock operations -/

/-- Something of the state that neither the driver calls nor the counters of the adjustments touch. -/
structure Kernel.OffClocks {γ : Type} (f : Kernel → γ) : Prop where
  getTsf : ∀ s calls, f { s with drv := calls } = f s
  setTsf : ∀ s c tsf calls,
    f { s.setCard c (fun k => { k with hw := { k.hw with tsf := tsf } }) with drv := calls } = f s
  skips : ∀ s n, f { s with adjtimeSkipCount := n } = f s
  applies : ∀ s n, f { s with adjtimeApplyCount := n } = f s

theorem offClocks_config : Kernel.OffClocks Kernel.config :=
  ⟨fun _ _ => rfl, fun _ _ _ _ => rfl, fun _ _ => rfl, fun _ _ => rfl⟩

section Calls

variable {γ : Type} {f : Kernel → γ} (hf : Kernel.OffClocks f)

include hf

theorem frames_callGetTsf (c : CardPtr) (vif : DevId) : Frames f (tsfPtpCallGetTsf c vif) := by
  refine frames_read_bind fun card => ?_
  cases card.hw.ops.getTsf
  · exact trivial
  · exact fun s => ⟨hf.getTsf s _, trivial⟩

theorem frames_callSetTsf (c : CardPtr) (vif : DevId) (tsf : UInt64) : Frames f (tsfPtpCallSetTsf c vif tsf) := by
  refine frames_read_bind fun card => ?_
  cases card.hw.ops.setTsf
  · exact trivial
  · exact fun s => ⟨hf.setTsf s c tsf _, trivial⟩

theorem frames_gettime (c : CardPtr) : Frames f (tsfPtpGettime c) := by
  refine frames_acquire_bind (frames_read_bind fun k => ?_)
  cases k.vif with
  | none => exact trivial
  | some vif => exact frames_acquire_bind (frames_bind (frames_callGetTsf hf c vif) fun _ => trivial)

theorem frames_settime (c : CardPtr) (ts : Timespec64) : Frames f (tsfPtpSettime c ts) := by
  refine frames_acquire_bind (frames_read_bind fun k => ?_)
  cases k.vif with
  | none => exact trivial
  | some vif => exact frames_acquire_bind (frames_bind (frames_callSetTsf hf c vif _) fun _ => trivial)

theorem frames_readModifyWrite (c : CardPtr) (vif : DevId) (deltaNs : Int64) {α : Type} {p : KProg α}
    (hp : Frames f p) : Frames f (do
      let tsf ← tsfPtpCallGetTsf c vif
      tsfPtpCallSetTsf c vif (addDeltaNs tsf deltaNs)
      p) :=
  frames_bind (frames_callGetTsf hf c vif) fun _ => frames_bind (frames_callSetTsf hf c vif _) fun _ => hp

theorem frames_adjtime (c : CardPtr) (deltaNs : Int64) : Frames f (tsfPtpAdjtime c deltaNs) := by
  refine frames_read_bind fun threshold => ?_
  cases belowThreshold threshold deltaNs with
  | true => exact frames_modify_bind (fun s => hf.skips s _) trivial
  | false =>
    refine frames_acquire_bind (frames_read_bind fun k => ?_)
    cases k.vif with
    | none => exact trivial
    | some vif =>
      refine frames_acquire_bind (frames_readModifyWrite hf c vif deltaNs ?_)
      exact frames_release_bind (frames_release_bind (frames_modify_bind (fun s => hf.applies s _) trivial))

theorem frames_getcrosststamp (c : CardPtr) : Frames f (tsfPtpGetcrosststamp c) := by
  refine frames_acquire_bind (frames_read_bind fun k => ?_)
  cases k.vif with
  | none => exact trivial
  | some vif =>
    refine frames_acquire_bind (frames_read_bind fun raw => ?_)
    exact frames_bind (frames_callGetTsf hf c vif) fun _ => frames_read_bind fun _ => trivial

/-! ## Mode C -/

theorem frames_takeSnapshot (i : Nat) (c : CardPtr) : Frames f (takeSnapshot i c) := by
  refine frames_read_bind fun k => frames_acquire_bind (frames_read_bind fun k' => ?_)
  cases k'.vif with
  | none => exact trivial
  | some vif =>
    refine frames_acquire_bind (frames_bind (frames_callGetTsf hf c vif) fun _ => ?_)
    exact frames_release_bind (frames_read_bind fun _ => trivial)

theorem frames_snapshotLoop (n : Nat) : ∀ (cards : List CardPtr) (i : Nat), Frames f (snapshotLoop n i cards)
  | [], _ => trivial
  | c :: cards, i => by
    unfold snapshotLoop
    split
    · exact trivial
    · exact frames_bind (frames_takeSnapshot hf i c) fun _ =>
        frames_bind (frames_snapshotLoop n cards (i + 1)) fun _ => trivial

theorem frames_chardevRead (mem : UserMem) (count : Nat) : Frames f (tsfSyncChardevRead mem count) := by
  refine frames_acquire_bind (frames_read_bind fun cards => ?_)
  dsimp only
  split
  · exact trivial
  split
  · exact trivial
  refine frames_bind (frames_snapshotLoop hf _ _ _) fun snaps => frames_release_bind ?_
  split <;> exact trivial

theorem frames_adjustCard (c : CardPtr) (deltaNs : Int64) : Frames f (adjustCard c deltaNs) := by
  refine frames_acquire_bind (frames_read_bind fun k => ?_)
  cases k.vif with
  | none => exact trivial
  | some vif =>
    refine frames_acquire_bind (frames_readModifyWrite hf c vif deltaNs ?_)
    exact frames_release_bind (frames_release_bind (frames_modify fun s => hf.applies s _))

theorem frames_applyAdjustment (threshold : UInt32) (adj : TsfAdjustment) :
    Frames f (applyAdjustment findByIndex threshold adj) := by
  unfold applyAdjustment
  split
  · exact frames_modify_bind (fun s => hf.skips s _) trivial
  refine frames_read_bind fun cards => ?_
  cases findByIndex cards adj.cardIndex with
  | none => exact trivial
  | some c => exact frames_adjustCard hf c adj.deltaNs

theorem frames_chardevWrite (mem : UserMem) (buf : List UInt8) : Frames f (tsfSyncChardevWrite mem buf) := by
  refine frames_read_bind fun threshold => ?_
  dsimp only
  split
  · exact trivial
  split
  · exact trivial
  split
  · exact trivial
  split
  · exact trivial
  refine frames_acquire_bind (frames_bind ?_ fun _ => trivial)
  exact frames_forM fun adj _ => frames_applyAdjustment hf threshold adj

end Calls

/-! ## The notifier -/

theorem frames_captureVif (w : WiphyId) (dev : NetDev) : Frames Kernel.config (captureVif w dev) := by
  refine frames_acquire_bind (frames_read_bind fun card => ?_)
  cases card with
  | none => exact trivial
  | some c =>
    refine frames_acquire_bind (frames_read_bind fun k => ?_)
    dsimp only
    split
    · exact frames_modify_bind (fun s => rfl) trivial
    · exact trivial

theorem frames_releaseVif (w : WiphyId) (dev : NetDev) : Frames Kernel.config (releaseVif w dev) := by
  refine frames_acquire_bind (frames_read_bind fun card => ?_)
  cases card with
  | none => exact trivial
  | some c =>
    refine frames_acquire_bind (frames_read_bind fun k => ?_)
    dsimp only
    split
    · exact frames_modify_bind (fun s => rfl) trivial
    · exact trivial

theorem frames_probe (env : ProbeEnv) {w : WiphyId} (loc : Local w) : Frames Kernel.config (tsfPtpProbe env loc) := by
  unfold tsfPtpProbe
  split
  · exact trivial
  refine frames_acquire_bind (frames_read_bind fun existing => ?_)
  split
  · exact trivial
  refine frames_release_bind (frames_read_bind fun card => ?_)
  cases card with
  | none => exact trivial
  | some c =>
    refine frames_modify_bind (fun s => rfl) ?_
    cases env.ptpClockRegister with
    | error e => exact trivial
    | ok u => exact frames_acquire_bind (frames_modify_bind (fun s => rfl) trivial)

theorem frames_hotplugProbe (env : ProbeEnv) (w : WiphyId) : Frames Kernel.config (tsfPtpTryHotplugProbe env w) := by
  refine frames_acquire_bind (frames_read_bind fun tracked => ?_)
  split
  · exact trivial
  refine frames_release_bind (frames_read_bind fun loc => ?_)
  cases loc with
  | none => exact trivial
  | some loc => exact frames_bind (frames_probe env loc) fun _ => trivial

theorem frames_hotplugRemove (w : WiphyId) : Frames Kernel.config (tsfPtpTryHotplugRemove w) := by
  refine frames_read_bind fun still => ?_
  split
  · exact trivial
  refine frames_acquire_bind (frames_read_bind fun card => ?_)
  cases card with
  | none => exact trivial
  | some c => exact frames_modify_bind (fun s => rfl) trivial

theorem frames_netdevEvent (env : ProbeEnv) (event : NetdevEvent) (dev : NetDev) :
    Frames Kernel.config (tsfPtpNetdevEvent env event dev) := by
  unfold tsfPtpNetdevEvent
  split
  · exact trivial
  split
  · exact trivial
  rename_i w _
  cases event with
  | register => exact frames_hotplugProbe env w
  | up => exact frames_captureVif w dev
  | down => exact frames_releaseVif w dev
  | unregister => exact frames_bind (frames_releaseVif w dev) fun _ => frames_hotplugRemove w
  | other => exact trivial

/-! ## The kernel's steps -/

theorem frames_callNotifier (event : NetdevEvent) (id : DevId) : Frames Kernel.config (callNotifier event id) := by
  refine frames_read_bind fun dev => ?_
  cases dev with
  | none => exact trivial
  | some dev => exact frames_netdevEvent .unused event dev

theorem frames_devOpen (id : DevId) : Frames Kernel.config (devOpen id) :=
  frames_modify_bind (fun _ => rfl) (frames_callNotifier .up id)

theorem frames_devClose (id : DevId) : Frames Kernel.config (devClose id) :=
  frames_modify_bind (fun _ => rfl) (frames_callNotifier .down id)

theorem frames_registerNetdevice (env : ProbeEnv) (dev : NetDev) : Frames Kernel.config (registerNetdevice env dev) :=
  frames_modify_bind (fun _ => rfl) (frames_netdevEvent env .register dev)

theorem frames_unregisterNetdevice (dev : NetDev) : Frames Kernel.config (unregisterNetdevice dev) :=
  frames_modify_bind (fun _ => rfl) (frames_netdevEvent .unused .unregister dev)

/-- An event of a device leaves the configuration. -/
theorem config_rtnlStep {s s' : Kernel} {a : RtnlStep} (ha : a.IsEvent) (h : rtnlStep s a = some s') :
    s'.config = s.config := by
  cases a with
  | registerNotifier env => cases ha
  | discover env => cases ha
  | scan => cases ha
  | register env dev =>
    obtain ⟨-, -, rfl⟩ := rtnlStep_register h
    exact (frames_registerNetdevice env dev).run s
  | up id =>
    obtain ⟨-, -, -, rfl⟩ := rtnlStep_up h
    exact (frames_devOpen id).run s
  | down id =>
    obtain ⟨-, -, -, rfl⟩ := rtnlStep_down h
    exact (frames_devClose id).run s
  | unregister id =>
    obtain ⟨dev, -, -, rfl⟩ := rtnlStep_unregister h
    exact (frames_unregisterNetdevice dev).run s

theorem frames_registerNotifier (env : DevId → ProbeEnv) : Frames Kernel.config (registerNetdeviceNotifier env) := by
  refine frames_read_bind fun devs => frames_forM fun dev _ => ?_
  refine frames_bind (frames_netdevEvent _ .register dev) fun _ => ?_
  split
  · exact frames_netdevEvent .unused .up dev
  · exact trivial

theorem frames_discoverLoop (env : DevId → ProbeEnv) : ∀ (devs : List NetDev) (count : Nat),
    Frames Kernel.config (discoverLoop env devs count)
  | [], _ => trivial
  | dev :: devs, count => by
    unfold discoverLoop
    split
    · exact frames_discoverLoop env devs count
    refine frames_read_bind fun loc => ?_
    cases loc with
    | none => exact frames_discoverLoop env devs count
    | some loc =>
      refine frames_bind (frames_probe _ loc) fun ret => ?_
      cases ret with
      | ok u => exact frames_discoverLoop env devs (count + 1)
      | error e => exact frames_discoverLoop env devs count

theorem frames_scan : Frames Kernel.config tsfPtpScanExistingVifs := by
  refine frames_read_bind fun devs => frames_forM fun dev _ => ?_
  unfold scanExistingVif
  split
  · exact trivial
  split
  · exact frames_captureVif _ dev
  · exact trivial

/-! ## Mode B -/

theorem frames_syncSecondary (threshold : UInt32) (primary : CardPtr) (primaryTsf : UInt64) (c : CardPtr) :
    Frames Kernel.config (syncSecondary threshold primary primaryTsf c) := by
  unfold syncSecondary
  split
  · exact trivial
  refine frames_acquire_bind (frames_read_bind fun k => ?_)
  cases k.vif with
  | none => exact frames_release_bind (frames_modify fun s => rfl)
  | some vif =>
    refine frames_acquire_bind (frames_bind (frames_callGetTsf offClocks_config c vif) fun tsf => ?_)
    refine frames_modify_bind (fun s => rfl) ?_
    dsimp only
    split
    · refine frames_bind (frames_callSetTsf offClocks_config c vif _) fun _ => frames_modify_bind (fun s => rfl) ?_
      exact frames_release_bind (frames_release_bind (frames_modify fun s => rfl))
    · refine frames_modify_bind (fun s => rfl) ?_
      exact frames_release_bind (frames_release_bind (frames_modify fun s => rfl))

/-- The configuration with the work scheduled again. -/
def Kernel.rearmed (s : Kernel) (interval : UInt32) : UInt32 × List UInt8 × UInt32 × DelayedWork :=
  (s.adjtimeThresholdNs, s.syncPrimary, s.syncIntervalMs,
    { s.syncWork with pending := some (if interval = 0 then 10 else interval).toNat })

theorem rearmed_congr {s s' : Kernel} (h : s'.config = s.config) (interval : UInt32) :
    s'.rearmed interval = s.rearmed interval := by
  obtain ⟨h₁, h₂⟩ := Prod.mk.inj h
  obtain ⟨h₂, h₃⟩ := Prod.mk.inj h₂
  obtain ⟨h₃, h₄⟩ := Prod.mk.inj h₃
  rw [Kernel.rearmed, Kernel.rearmed, h₁, h₂, h₃, h₄]

/-- A program that does nothing to the configuration but schedule the work again. -/
def Rearms (interval : UInt32) (p : KProg Unit) : Prop := ∀ s, (p.run s).2.config = s.rearmed interval

theorem rearms_bind {α : Type} {interval : UInt32} {p : KProg α} {f : α → KProg Unit} (hp : Frames Kernel.config p)
    (hf : ∀ a, Rearms interval (f a)) : Rearms interval (p >>= f) := by
  intro s
  rw [Prog.run_bind, hf _ _, rearmed_congr (hp.run s)]

theorem rearms_resched (interval : UInt32) : Rearms interval (resched interval) := fun _ => rfl

/-- The delay is the parameter that was read first. -/
theorem config_read_bind {f : UInt32 → KProg Unit} (hf : ∀ interval, Rearms interval (f interval)) (s : Kernel) :
    ((Prog.read (·.syncIntervalMs) >>= f).run s).2.config = s.rearmed s.syncIntervalMs := hf s.syncIntervalMs s

/-- `tsf_sync_work_fn` schedules itself again, whatever it finds. -/
theorem config_workFn (s : Kernel) : (tsfSyncWorkFn.run s).2.config = s.rearmed s.syncIntervalMs := by
  have hread {α : Type} (g : Kernel → α) : Frames Kernel.config (Prog.read g : KProg α) := fun _ => ⟨rfl, trivial⟩
  have hlock (l : LockId) : Frames Kernel.config (mutexLock l) := trivial
  have hunlock (l : LockId) : Frames Kernel.config (mutexUnlock l) := trivial
  have herror : Frames Kernel.config incGlobalSyncErrorCount := frames_modify fun _ => rfl
  have hcount : Frames Kernel.config incGlobalSyncCount := frames_modify fun _ => rfl
  refine config_read_bind (fun interval => rearms_bind (hread _) fun threshold => ?_) s
  refine rearms_bind (hlock _) fun _ => rearms_bind (hread _) fun primary => ?_
  cases primary with
  | none => exact rearms_bind (hunlock _) fun _ => rearms_bind herror fun _ => rearms_resched _
  | some primary =>
    refine rearms_bind (hlock _) fun _ => rearms_bind (hread _) fun k => ?_
    cases k.vif with
    | none =>
      refine rearms_bind (hunlock _) fun _ => rearms_bind (hunlock _) fun _ => ?_
      exact rearms_bind herror fun _ => rearms_resched _
    | some vif =>
      refine rearms_bind (hlock _) fun _ => rearms_bind (frames_callGetTsf offClocks_config primary vif) fun tsf => ?_
      refine rearms_bind (hunlock _) fun _ => rearms_bind (hunlock _) fun _ => rearms_bind (hread _) fun cards => ?_
      refine rearms_bind (frames_forM fun c _ => frames_syncSecondary threshold primary tsf c) fun _ => ?_
      exact rearms_bind (hunlock _) fun _ => rearms_bind hcount fun _ => rearms_resched _

end TsfSync
