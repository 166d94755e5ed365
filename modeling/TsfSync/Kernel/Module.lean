import TsfSync.Lib.Runs
import TsfSync.Kernel.Frames

/-!
# Loading and unloading the module

`tsf_ptp_init` starts what the parameter `sync_mode` asks for, and `tsf_ptp_exit` stops what it asks for then; in between
the parameter is writable. The module stops exactly what it started when the last value asks for the same
(`unloaded_iff`); a value that changed leaves the sync loop or `/dev/tsf_sync` behind, or cancels a `sync_work` that was
never initialised (`unloaded_counterexample`).
-/

namespace TsfSync

open LockProg

/-- `TSF_SYNC_MODE_PTP`. -/
def tsfSyncModePtp : UInt32 := 0

/-- `TSF_SYNC_MODE_KERNEL`. -/
def tsfSyncModeKernel : UInt32 := 1

/-- `TSF_SYNC_MODE_CHARDEV`. -/
def tsfSyncModeChardev : UInt32 := 2

/-- The writable parameters. -/
structure ModuleParams where
  syncMode : UInt32
  adjtimeThresholdNs : UInt32
  syncPrimary : List UInt8
  syncIntervalMs : UInt32

/-- The defaults of the parameters. -/
def ModuleParams.default : ModuleParams := ⟨tsfSyncModePtp, 5000, [], 10⟩

/-- The loaded module: its state, `sync_mode`, the flag `chardev_registered`, whether `/dev/tsf_sync` exists, whether a
worker is in `tsf_sync_work_fn`, and for every `cancel_delayed_work_sync` whether `sync_work` was initialised. -/
structure Module where
  kernel : Kernel
  syncMode : UInt32
  chardevRegistered : Bool
  miscdev : Bool
  workRunning : Bool
  cancels : List Bool

namespace Module

/-- The module in memory, before `tsf_ptp_init`. -/
def load (params : ModuleParams) (netdevs : List NetDev) (wiphyPriv : (w : WiphyId) → Option (Local w)) : Module where
  kernel := { Kernel.load netdevs wiphyPriv with
    adjtimeThresholdNs := params.adjtimeThresholdNs
    syncPrimary := params.syncPrimary
    syncIntervalMs := params.syncIntervalMs }
  syncMode := params.syncMode
  chardevRegistered := false
  miscdev := false
  workRunning := false
  cancels := []

/-- Run a function of the module that does not sleep on the work. -/
def exec {α : Type} (m : Module) (p : KProg α) : Module := { m with kernel := (p.run m.kernel).2 }

/-! ## Starting and stopping -/

/-- `tsf_sync_start_kernel`: `INIT_DELAYED_WORK` and `schedule_delayed_work`. -/
def tsfSyncStartKernel (m : Module) : Module :=
  { m with kernel := { m.kernel with syncWork := ⟨true, some m.kernel.syncIntervalMs.toNat⟩ } }

/-- `tsf_sync_stop_kernel`: `cancel_delayed_work_sync` waits for a worker, which cannot schedule the work again. -/
def tsfSyncStopKernel (m : Module) : Module :=
  let kernel := if m.workRunning then (tsfSyncWorkFn.run m.kernel).2 else m.kernel
  { m with
    kernel := { kernel with syncWork := { kernel.syncWork with pending := none } }
    workRunning := false
    cancels := m.cancels ++ [m.kernel.syncWork.initialised] }

/-- `tsf_sync_chardev_register`. -/
def tsfSyncChardevRegister (miscRegister : Except Errno Unit) (m : Module) : Except Errno Unit × Module :=
  match miscRegister with
  | .error e => (.error e, m)
  | .ok () => (.ok (), { m with chardevRegistered := true, miscdev := true })

/-- `tsf_sync_chardev_unregister`. -/
def tsfSyncChardevUnregister (m : Module) : Module :=
  if m.chardevRegistered then { m with chardevRegistered := false, miscdev := false } else m

/-- `tsf_ptp_init`. A failed `misc_register` is only logged. -/
def tsfPtpInit (notifierEnv discoverEnv : DevId → ProbeEnv) (miscRegister : Except Errno Unit) (m : Module) : Module :=
  let m := m.exec (registerNetdeviceNotifier notifierEnv)
  let m := m.exec (tsfPtpDiscoverFromNetdevs discoverEnv)
  let m := m.exec tsfPtpScanExistingVifs
  if m.syncMode = tsfSyncModeKernel then m.tsfSyncStartKernel
  else if m.syncMode = tsfSyncModeChardev then (m.tsfSyncChardevRegister miscRegister).2
  else m

/-- The events replayed for one device to a notifier that leaves. -/
def replayLeave (dev : NetDev) : KProg Unit := do
  if dev.up then
    tsfPtpNetdevEvent .unused .down dev
  tsfPtpNetdevEvent .unused .unregister dev

/-- `unregister_netdevice_notifier`. -/
def unregisterNetdeviceNotifier : KProg Unit := do
  let devs ← Prog.read (·.netdevs)
  forM devs replayLeave

/-- The removal of one card by `tsf_ptp_exit`; `tsf_ptp_remove` frees it with `cards_lock` dropped. -/
def removeCard (c : CardPtr) : KProg Unit := do
  listDel c
  mutexUnlock .cards
  mutexLock .cards

/-- The removal of all cards by `tsf_ptp_exit`. -/
def removeCards : KProg Unit := do
  mutexLock .cards
  let cards ← listEntries
  forM cards removeCard
  mutexUnlock .cards

/-- `tsf_ptp_exit`. -/
def tsfPtpExit (m : Module) : Module :=
  let m :=
    if m.syncMode = tsfSyncModeKernel then m.tsfSyncStopKernel
    else if m.syncMode = tsfSyncModeChardev then m.tsfSyncChardevUnregister
    else m
  let m := m.exec unregisterNetdeviceNotifier
  m.exec removeCards

/-! ## While the module is loaded -/

/-- What happens to a loaded module: a write of a parameter, the timer of `sync_work`, the worker, a call of userspace
and a change of a net_device. -/
inductive Action
  | setSyncMode (v : UInt32)
  | setAdjtimeThresholdNs (v : UInt32)
  | setSyncPrimary (v : List UInt8)
  | setSyncIntervalMs (v : UInt32)
  | timer
  | worker
  | call (call : Call)
  | netdev (a : RtnlStep)

instance (a : RtnlStep) : Decidable a.IsEvent :=
  match a with
  | .register .. | .up _ | .down _ | .unregister _ => isTrue trivial
  | .registerNotifier _ | .discover _ | .scan => isFalse id

/-- One step of a loaded module; none where it cannot be taken. -/
def step : Action → Module → Option Module
  | .setSyncMode v, m => some { m with syncMode := v }
  | .setAdjtimeThresholdNs v, m => some { m with kernel := { m.kernel with adjtimeThresholdNs := v } }
  | .setSyncPrimary v, m => some { m with kernel := { m.kernel with syncPrimary := v } }
  | .setSyncIntervalMs v, m => some { m with kernel := { m.kernel with syncIntervalMs := v } }
  | .timer, m =>
    if m.kernel.syncWork.pending.isSome && !m.workRunning then
      some { m with
        kernel := { m.kernel with syncWork := { m.kernel.syncWork with pending := none } }
        workRunning := true }
    else none
  | .worker, m => if m.workRunning then some { m.exec tsfSyncWorkFn with workRunning := false } else none
  | .call call, m =>
    match call with
    | .gettime _ | .settime _ _ | .adjtime _ _ | .getcrosststamp _ => some (m.exec call.prog)
    | .chardevRead _ _ | .chardevWrite _ _ => if m.miscdev then some (m.exec call.prog) else none
    | .syncWork | .netdevEvent _ _ _ => none
  | .netdev a, m => if a.IsEvent then (rtnlStep m.kernel a).map fun kernel => { m with kernel := kernel } else none

/-- The value of `sync_mode` after some actions. -/
def lastMode (mode : UInt32) : List Action → UInt32
  | [] => mode
  | .setSyncMode v :: as => lastMode v as
  | .setAdjtimeThresholdNs _ :: as | .setSyncPrimary _ :: as | .setSyncIntervalMs _ :: as | .timer :: as
  | .worker :: as | .call _ :: as | .netdev _ :: as => lastMode mode as

/-- Nothing of the module is left: no work is pending or running, `/dev/tsf_sync` and the cards are gone, and only a
work that was initialised has been cancelled. -/
structure Unloaded (m : Module) : Prop where
  pending : m.kernel.syncWork.pending = none
  running : m.workRunning = false
  miscdev : m.miscdev = false
  cards : m.kernel.cardsList.ptrs = []
  cancels : ∀ initialised ∈ m.cancels, initialised = true

/-! ## Steps that leave the configuration -/

/-- A call of userspace leaves alone what the driver calls and the counters do. -/
theorem step_call {γ : Type} {f : Kernel → γ} (hf : Kernel.OffClocks f) {m m' : Module} {call : Call}
    (h : step (.call call) m = some m') : ∃ kernel, m' = { m with kernel := kernel } ∧ f kernel = f m.kernel := by
  have hexec : Frames f call.prog → m' = m.exec call.prog →
      ∃ kernel, m' = { m with kernel := kernel } ∧ f kernel = f m.kernel := by
    rintro hp rfl
    exact ⟨_, rfl, hp.run m.kernel⟩
  cases call with
  | gettime c => exact hexec (frames_bind (frames_gettime hf c) fun _ => trivial) (Option.some.inj h).symm
  | settime c ts => exact hexec (frames_bind (frames_settime hf c ts) fun _ => trivial) (Option.some.inj h).symm
  | adjtime c deltaNs => exact hexec (frames_bind (frames_adjtime hf c deltaNs) fun _ => trivial) (Option.some.inj h).symm
  | getcrosststamp c => exact hexec (frames_bind (frames_getcrosststamp hf c) fun _ => trivial) (Option.some.inj h).symm
  | chardevRead mem count =>
    obtain ⟨-, heq⟩ := Option.ite_none_right_eq_some.mp h
    exact hexec (frames_bind (frames_chardevRead hf mem count) fun _ => trivial) (Option.some.inj heq).symm
  | chardevWrite mem buf =>
    obtain ⟨-, heq⟩ := Option.ite_none_right_eq_some.mp h
    exact hexec (frames_bind (frames_chardevWrite hf mem buf) fun _ => trivial) (Option.some.inj heq).symm
  | syncWork => cases h
  | netdevEvent env event dev => cases h

/-- A change of a net_device leaves the parameters and the work. -/
theorem step_netdev {m m' : Module} {a : RtnlStep} (h : step (.netdev a) m = some m') :
    ∃ kernel, m' = { m with kernel := kernel } ∧ kernel.config = m.kernel.config := by
  rw [step, Option.ite_none_right_eq_some, Option.map_eq_some_iff] at h
  obtain ⟨hevent, kernel, hk, rfl⟩ := h
  exact ⟨kernel, rfl, config_rtnlStep hevent hk⟩

/-! ## What init started -/

/-- A module that started what `params` asked for, with the value `mode` of `sync_mode` now. -/
structure Loaded (params : ModuleParams) (miscRegister : Except Errno Unit) (mode : UInt32) (m : Module) : Prop where
  mode : m.syncMode = mode
  initialised : m.kernel.syncWork.initialised = true ↔ params.syncMode = tsfSyncModeKernel
  armed : (m.kernel.syncWork.pending.isSome = true ∨ m.workRunning = true) ↔ params.syncMode = tsfSyncModeKernel
  flag : m.chardevRegistered = m.miscdev
  miscdev : m.miscdev = true ↔ params.syncMode = tsfSyncModeChardev ∧ miscRegister = .ok ()
  cancels : m.cancels = []

theorem config_exec {α : Type} (m : Module) {p : KProg α} (hp : Frames Kernel.config p) :
    (m.exec p).kernel.syncWork = m.kernel.syncWork := congrArg (·.2.2.2) (hp.run m.kernel)

section Loaded

variable {params : ModuleParams} {miscRegister : Except Errno Unit} {mode : UInt32} {m m' : Module}

/-- A change of the kernel's state that leaves the work alone. -/
theorem Loaded.congr (h : Loaded params miscRegister mode m) {kernel : Kernel}
    (hk : kernel.syncWork = m.kernel.syncWork) : Loaded params miscRegister mode { m with kernel := kernel } where
  mode := h.mode
  initialised := by rw [hk]; exact h.initialised
  armed := by rw [hk]; exact h.armed
  flag := h.flag
  miscdev := h.miscdev
  cancels := h.cancels

theorem frames_discover (env : DevId → ProbeEnv) : Frames Kernel.config (tsfPtpDiscoverFromNetdevs env) :=
  frames_read_bind fun devs => frames_discoverLoop env devs 0

/-- Init starts what `sync_mode` asks for. -/
theorem loaded_init (params : ModuleParams) (netdevs : List NetDev) (wiphyPriv : (w : WiphyId) → Option (Local w))
    (notifierEnv discoverEnv : DevId → ProbeEnv) (miscRegister : Except Errno Unit) :
    Loaded params miscRegister params.syncMode
      ((load params netdevs wiphyPriv).tsfPtpInit notifierEnv discoverEnv miscRegister) := by
  unfold tsfPtpInit
  have hwork : ((((load params netdevs wiphyPriv).exec (registerNetdeviceNotifier notifierEnv)).exec
      (tsfPtpDiscoverFromNetdevs discoverEnv)).exec tsfPtpScanExistingVifs).kernel.syncWork = ⟨false, none⟩ := by
    rw [config_exec _ frames_scan, config_exec _ (frames_discover _), config_exec _ (frames_registerNotifier _)]
    rfl
  generalize hm : (((load params netdevs wiphyPriv).exec (registerNetdeviceNotifier notifierEnv)).exec
    (tsfPtpDiscoverFromNetdevs discoverEnv)).exec tsfPtpScanExistingVifs = m at hwork
  have hmode : m.syncMode = params.syncMode := by subst hm; rfl
  have hflag : m.chardevRegistered = false := by subst hm; rfl
  have hdev : m.miscdev = false := by subst hm; rfl
  have hrunning : m.workRunning = false := by subst hm; rfl
  have hcancels : m.cancels = [] := by subst hm; rfl
  dsimp only
  rw [hm]
  by_cases hk : m.syncMode = tsfSyncModeKernel
  · have hp : params.syncMode = tsfSyncModeKernel := hmode ▸ hk
    have hc : ¬params.syncMode = tsfSyncModeChardev := by rw [hp]; decide
    rw [if_pos hk]
    refine ⟨hmode, ?_, ?_, hflag.trans hdev.symm, ?_, hcancels⟩
    · simp [tsfSyncStartKernel, hp]
    · simp [tsfSyncStartKernel, hp]
    · simp [tsfSyncStartKernel, hdev, hc]
  · have hp : ¬params.syncMode = tsfSyncModeKernel := hmode ▸ hk
    rw [if_neg hk]
    by_cases hc : m.syncMode = tsfSyncModeChardev
    · have hpc : params.syncMode = tsfSyncModeChardev := hmode ▸ hc
      rw [if_pos hc]
      cases miscRegister with
      | error e =>
        refine ⟨hmode, ?_, ?_, hflag.trans hdev.symm, ?_, hcancels⟩
        · simp [tsfSyncChardevRegister, hwork, hp]
        · simp [tsfSyncChardevRegister, hwork, hrunning, hp]
        · simp [tsfSyncChardevRegister, hdev]
      | ok u =>
        refine ⟨hmode, ?_, ?_, rfl, ?_, hcancels⟩
        · simp [tsfSyncChardevRegister, hwork, hp]
        · simp [tsfSyncChardevRegister, hwork, hrunning, hp]
        · simp [tsfSyncChardevRegister, hpc]
    · have hpc : ¬params.syncMode = tsfSyncModeChardev := hmode ▸ hc
      rw [if_neg hc]
      refine ⟨hmode, ?_, ?_, hflag.trans hdev.symm, ?_, hcancels⟩
      · simp [hwork, hp]
      · simp [hwork, hrunning, hp]
      · simp [hdev, hpc]

/-- A step of the loaded module changes at most the value of `sync_mode`. -/
theorem Loaded.step (h : Loaded params miscRegister mode m) {a : Action} (hstep : step a m = some m') :
    Loaded params miscRegister (lastMode mode [a]) m' := by
  cases a with
  | setSyncMode v =>
    cases hstep
    exact ⟨rfl, h.initialised, h.armed, h.flag, h.miscdev, h.cancels⟩
  | setAdjtimeThresholdNs v => cases hstep; exact h.congr rfl
  | setSyncPrimary v => cases hstep; exact h.congr rfl
  | setSyncIntervalMs v => cases hstep; exact h.congr rfl
  | timer =>
    rw [Module.step, Option.ite_none_right_eq_some] at hstep
    obtain ⟨hcond, heq⟩ := hstep
    cases heq
    rw [Bool.and_eq_true] at hcond
    refine ⟨h.mode, h.initialised, ?_, h.flag, h.miscdev, h.cancels⟩
    rw [← h.armed]
    simp [hcond.1]
  | worker =>
    rw [Module.step, Option.ite_none_right_eq_some] at hstep
    obtain ⟨hcond, heq⟩ := hstep
    cases heq
    -- the work has scheduled itself again
    have hwork : (m.exec tsfSyncWorkFn).kernel.syncWork =
        { m.kernel.syncWork with
          pending := some (if m.kernel.syncIntervalMs = 0 then 10 else m.kernel.syncIntervalMs).toNat } :=
      congrArg (·.2.2.2) (config_workFn m.kernel)
    refine ⟨h.mode, ?_, ?_, h.flag, h.miscdev, h.cancels⟩
    · show (m.exec tsfSyncWorkFn).kernel.syncWork.initialised = true ↔ _
      rw [hwork]
      exact h.initialised
    · show (m.exec tsfSyncWorkFn).kernel.syncWork.pending.isSome = true ∨ false = true ↔ _
      rw [← h.armed, hwork, hcond]
      simp
  | call call =>
    obtain ⟨kernel, rfl, hk⟩ := step_call offClocks_config hstep
    exact h.congr (congrArg (·.2.2.2) hk)
  | netdev a =>
    obtain ⟨kernel, rfl, hk⟩ := step_netdev hstep
    exact h.congr (congrArg (·.2.2.2) hk)

theorem lastMode_cons (mode : UInt32) (a : Action) (as : List Action) :
    lastMode mode (a :: as) = lastMode (lastMode mode [a]) as := by
  cases a <;> rfl

/-- Every run keeps what was started. -/
theorem Loaded.runs : ∀ {as : List Action} {mode : UInt32} {m : Module}, Loaded params miscRegister mode m →
    StepSystem.runs Module.step as m = some m' → Loaded params miscRegister (lastMode mode as) m'
  | [], _, _, h, hrun => by cases hrun; exact h
  | a :: as, mode, _, h, hrun => by
    obtain ⟨m₁, h₁, h₂⟩ := Option.bind_eq_some_iff.mp hrun
    rw [lastMode_cons]
    exact (h.step h₁).runs h₂

end Loaded

/-! ## The parameters -/

/-- A write of a parameter. -/
def Action.WritesParam : Action → Prop
  | .setSyncMode _ | .setAdjtimeThresholdNs _ | .setSyncPrimary _ | .setSyncIntervalMs _ => True
  | .timer | .worker | .call _ | .netdev _ => False

/-- `sync_mode` and `sync_primary` are the same. -/
def SameParams (m m' : Module) : Prop := m'.syncMode = m.syncMode ∧ m'.kernel.syncPrimary = m.kernel.syncPrimary

theorem SameParams.refl (m : Module) : SameParams m m := ⟨rfl, rfl⟩

theorem SameParams.trans {m₁ m₂ m₃ : Module} (h : SameParams m₁ m₂) (h' : SameParams m₂ m₃) : SameParams m₁ m₃ :=
  ⟨h'.1.trans h.1, h'.2.trans h.2⟩

theorem sameParams_exec {α : Type} (m : Module) {p : KProg α} (hp : Frames Kernel.config p) : SameParams m (m.exec p) :=
  ⟨rfl, congrArg (·.2.1) (hp.run m.kernel)⟩

/-- Init leaves the parameters. -/
theorem sameParams_init (notifierEnv discoverEnv : DevId → ProbeEnv) (miscRegister : Except Errno Unit) (m : Module) :
    SameParams m (m.tsfPtpInit notifierEnv discoverEnv miscRegister) := by
  have hcards : SameParams m (((m.exec (registerNetdeviceNotifier notifierEnv)).exec
      (tsfPtpDiscoverFromNetdevs discoverEnv)).exec tsfPtpScanExistingVifs) :=
    ((sameParams_exec m (frames_registerNotifier _)).trans (sameParams_exec _ (frames_discover _))).trans
      (sameParams_exec _ frames_scan)
  unfold tsfPtpInit
  dsimp only
  generalize ((m.exec (registerNetdeviceNotifier notifierEnv)).exec
    (tsfPtpDiscoverFromNetdevs discoverEnv)).exec tsfPtpScanExistingVifs = m₁ at hcards ⊢
  refine hcards.trans ?_
  split
  · exact ⟨rfl, rfl⟩
  split
  · cases miscRegister <;> exact ⟨rfl, rfl⟩
  · exact SameParams.refl _

/-- Only a write changes a parameter. -/
theorem sameParams_step {m m' : Module} {a : Action} (ha : ¬a.WritesParam) (h : step a m = some m') :
    SameParams m m' := by
  cases a with
  | setSyncMode v => exact absurd trivial ha
  | setAdjtimeThresholdNs v => exact absurd trivial ha
  | setSyncPrimary v => exact absurd trivial ha
  | setSyncIntervalMs v => exact absurd trivial ha
  | timer =>
    obtain ⟨-, heq⟩ := Option.ite_none_right_eq_some.mp h
    cases heq
    exact ⟨rfl, rfl⟩
  | worker =>
    obtain ⟨-, heq⟩ := Option.ite_none_right_eq_some.mp h
    cases heq
    exact ⟨rfl, congrArg (·.2.1) (config_workFn m.kernel)⟩
  | call call =>
    obtain ⟨kernel, rfl, hk⟩ := step_call offClocks_config h
    exact ⟨rfl, congrArg (·.2.1) hk⟩
  | netdev a =>
    obtain ⟨kernel, rfl, hk⟩ := step_netdev h
    exact ⟨rfl, congrArg (·.2.1) hk⟩

/-- A run without writes leaves the parameters. -/
theorem sameParams_runs {m' : Module} : ∀ {as : List Action} {m : Module}, (∀ a ∈ as, ¬a.WritesParam) →
    StepSystem.runs step as m = some m' → SameParams m m'
  | [], _, _, h => by cases h; exact SameParams.refl _
  | a :: as, _, has, h => by
    obtain ⟨m₁, h₁, h₂⟩ := Option.bind_eq_some_iff.mp h
    exact (sameParams_step (has a List.mem_cons_self) h₁).trans
      (sameParams_runs (fun b hb => has b (List.mem_cons_of_mem _ hb)) h₂)

/-! ## What exit stops -/

/-- The modes that `tsf_ptp_exit` distinguishes. -/
def stopMode (m : Module) : Module :=
  if m.syncMode = tsfSyncModeKernel then m.tsfSyncStopKernel
  else if m.syncMode = tsfSyncModeChardev then m.tsfSyncChardevUnregister
  else m

theorem frames_unregisterNotifier : Frames Kernel.config unregisterNetdeviceNotifier := by
  refine frames_read_bind fun devs => frames_forM fun dev _ => ?_
  unfold replayLeave
  split
  · exact frames_bind (frames_netdevEvent .unused .down dev) fun _ => frames_netdevEvent .unused .unregister dev
  · exact frames_netdevEvent .unused .unregister dev

theorem frames_removeCards : Frames Kernel.config removeCards := by
  refine frames_acquire_bind (frames_read_bind fun cards => frames_bind (frames_forM fun c _ => ?_) fun _ => trivial)
  exact frames_modify_bind (fun _ => rfl) trivial

theorem foldl_erase_self : ∀ cards : List CardPtr, cards.foldl List.erase cards = []
  | [] => rfl
  | c :: cards => by rw [List.foldl_cons, List.erase_cons_head, foldl_erase_self cards]

/-- Exit empties the list. -/
theorem removeCards_ptrs (s : Kernel) : (removeCards.run s).2.cardsList.ptrs = [] := by
  have hfold : ∀ (cards : List CardPtr) (s : Kernel),
      (cards.foldl (fun s c => ((removeCard c).run s).2) s).cardsList.ptrs = cards.foldl List.erase s.cardsList.ptrs := by
    intro cards
    induction cards with
    | nil => exact fun _ => rfl
    | cons c cards ih =>
      intro s
      rw [List.foldl_cons, List.foldl_cons, ih]
      rfl
  have hrun : (removeCards.run s).2 = s.cardsList.ptrs.foldl (fun s c => ((removeCard c).run s).2) s := by
    simp [removeCards, mutexLock, mutexUnlock, listEntries]
  rw [hrun, hfold, foldl_erase_self]

/-- After exit the rest is as the mode has left it. -/
theorem unloaded_exit_iff (m : Module) : m.tsfPtpExit.Unloaded ↔ m.stopMode.kernel.syncWork.pending = none ∧
    m.stopMode.workRunning = false ∧ m.stopMode.miscdev = false ∧
    ∀ initialised ∈ m.stopMode.cancels, initialised = true := by
  have hwork : m.tsfPtpExit.kernel.syncWork = m.stopMode.kernel.syncWork :=
    (config_exec _ frames_removeCards).trans (config_exec m.stopMode frames_unregisterNotifier)
  have hrunning : m.tsfPtpExit.workRunning = m.stopMode.workRunning := rfl
  have hdev : m.tsfPtpExit.miscdev = m.stopMode.miscdev := rfl
  have hcancels : m.tsfPtpExit.cancels = m.stopMode.cancels := rfl
  have hcards : m.tsfPtpExit.kernel.cardsList.ptrs = [] := removeCards_ptrs _
  rw [← hwork, ← hrunning, ← hdev, ← hcancels]
  constructor
  · rintro ⟨hp, hr, hd, -, hc⟩
    exact ⟨hp, hr, hd, hc⟩
  · rintro ⟨hp, hr, hd, hc⟩
    exact ⟨hp, hr, hd, hcards, hc⟩

section Exit

variable {params : ModuleParams} {miscRegister : Except Errno Unit} {mode : UInt32} {m : Module}

/-- The work is neither pending nor running unless it was started. -/
theorem Loaded.idle_iff (h : Loaded params miscRegister mode m) :
    (m.kernel.syncWork.pending = none ∧ m.workRunning = false) ↔ params.syncMode ≠ tsfSyncModeKernel := by
  rw [Ne, ← h.armed, not_or, Option.not_isSome_iff_eq_none, Bool.not_eq_true]

theorem Loaded.noDev_iff (h : Loaded params miscRegister mode m) :
    m.miscdev = false ↔ ¬(params.syncMode = tsfSyncModeChardev ∧ miscRegister = .ok ()) := by
  rw [← h.miscdev, Bool.not_eq_true]

/-- With the value 1, exit cancels the work. -/
theorem Loaded.stop_kernel (h : Loaded params miscRegister mode m) (hmode : mode = tsfSyncModeKernel) :
    m.tsfPtpExit.Unloaded ↔ params.syncMode = tsfSyncModeKernel := by
  have hstop : m.stopMode = m.tsfSyncStopKernel := if_pos (h.mode.trans hmode)
  rw [unloaded_exit_iff, hstop]
  show _ ∧ false = false ∧ m.miscdev = false ∧ (∀ b ∈ m.cancels ++ [m.kernel.syncWork.initialised], b = true) ↔ _
  rw [h.cancels, h.noDev_iff, ← h.initialised]
  constructor
  · rintro ⟨-, -, -, hcancel⟩
    exact hcancel _ (List.mem_singleton.mpr rfl)
  · intro hinit
    refine ⟨rfl, rfl, ?_, fun b hb => (List.mem_singleton.mp hb).trans hinit⟩
    rintro ⟨hc, -⟩
    exact absurd ((h.initialised.mp hinit).symm.trans hc) (by decide)

/-- With the value 2, exit removes `/dev/tsf_sync`. -/
theorem Loaded.stop_chardev (h : Loaded params miscRegister mode m) (hmode : mode = tsfSyncModeChardev) :
    m.tsfPtpExit.Unloaded ↔ params.syncMode ≠ tsfSyncModeKernel := by
  have hne : m.syncMode ≠ tsfSyncModeKernel := by rw [h.mode, hmode]; decide
  have hstop : m.stopMode = m.tsfSyncChardevUnregister := by
    rw [stopMode, if_neg hne, if_pos (h.mode.trans hmode)]
  have hdev : m.tsfSyncChardevUnregister.miscdev = false := by
    unfold tsfSyncChardevUnregister
    split
    · rfl
    · rename_i hflag
      rw [← h.flag]
      exact Bool.eq_false_iff.mpr hflag
  have hwork : m.tsfSyncChardevUnregister.kernel = m.kernel ∧ m.tsfSyncChardevUnregister.workRunning = m.workRunning ∧
      m.tsfSyncChardevUnregister.cancels = m.cancels := by
    unfold tsfSyncChardevUnregister
    split <;> exact ⟨rfl, rfl, rfl⟩
  obtain ⟨hkernel, hrunning, hcancels⟩ := hwork
  rw [unloaded_exit_iff, hstop, hkernel, hrunning, hcancels, hdev, h.cancels, ← h.idle_iff]
  constructor
  · rintro ⟨hp, hr, -, -⟩
    exact ⟨hp, hr⟩
  · rintro ⟨hp, hr⟩
    exact ⟨hp, hr, rfl, fun b hb => by cases hb⟩

/-- With any other value, exit stops nothing. -/
theorem Loaded.stop_nothing (h : Loaded params miscRegister mode m) (hk : mode ≠ tsfSyncModeKernel)
    (hc : mode ≠ tsfSyncModeChardev) : m.tsfPtpExit.Unloaded ↔
      params.syncMode ≠ tsfSyncModeKernel ∧ ¬(params.syncMode = tsfSyncModeChardev ∧ miscRegister = .ok ()) := by
  have hstop : m.stopMode = m := by
    rw [stopMode, if_neg (h.mode ▸ hk), if_neg (h.mode ▸ hc)]
  rw [unloaded_exit_iff, hstop, h.cancels, ← h.idle_iff, h.noDev_iff]
  constructor
  · rintro ⟨hp, hr, hd, -⟩
    exact ⟨⟨hp, hr⟩, hd⟩
  · rintro ⟨⟨hp, hr⟩, hd⟩
    exact ⟨hp, hr, hd, fun b hb => by cases hb⟩

/-- What is left after exit depends on what was started and on `sync_mode` then. -/
theorem Loaded.unloaded_exit (h : Loaded params miscRegister mode m) : m.tsfPtpExit.Unloaded ↔
    (params.syncMode = tsfSyncModeKernel ↔ mode = tsfSyncModeKernel) ∧
    (params.syncMode = tsfSyncModeChardev → miscRegister = .ok () → mode = tsfSyncModeChardev) := by
  have hne : tsfSyncModeKernel ≠ tsfSyncModeChardev := by decide
  by_cases hk : mode = tsfSyncModeKernel
  · rw [h.stop_kernel hk]
    constructor
    · intro hp
      exact ⟨⟨fun _ => hk, fun _ => hp⟩, fun hc => absurd (hp.symm.trans hc) hne⟩
    · rintro ⟨hiff, -⟩
      exact hiff.mpr hk
  by_cases hc : mode = tsfSyncModeChardev
  · rw [h.stop_chardev hc]
    constructor
    · intro hp
      exact ⟨⟨fun hp' => absurd hp' hp, fun hk' => absurd hk' hk⟩, fun _ _ => hc⟩
    · rintro ⟨hiff, -⟩ hp
      exact hk (hiff.mp hp)
  · rw [h.stop_nothing hk hc]
    constructor
    · rintro ⟨hp, hd⟩
      exact ⟨⟨fun hp' => absurd hp' hp, fun hk' => absurd hk' hk⟩, fun hpc hok => absurd ⟨hpc, hok⟩ hd⟩
    · rintro ⟨hiff, hdev⟩
      exact ⟨fun hp => hk (hiff.mp hp), fun hpc => hc (hdev hpc.1 hpc.2)⟩

end Exit

/-! ## A whole life -/

/-- **Unloading undoes loading exactly when the last value of `sync_mode` asks for what was started**: the sync loop for
the sync loop and for nothing else, and `/dev/tsf_sync` for a char device that was registered. -/
theorem unloaded_iff (params : ModuleParams) (netdevs : List NetDev) (wiphyPriv : (w : WiphyId) → Option (Local w))
    (notifierEnv discoverEnv : DevId → ProbeEnv) (miscRegister : Except Errno Unit) (as : List Action) {m : Module}
    (hrun : StepSystem.runs step as
      ((load params netdevs wiphyPriv).tsfPtpInit notifierEnv discoverEnv miscRegister) = some m) :
    m.tsfPtpExit.Unloaded ↔
      (params.syncMode = tsfSyncModeKernel ↔ lastMode params.syncMode as = tsfSyncModeKernel) ∧
      (params.syncMode = tsfSyncModeChardev → miscRegister = .ok () →
        lastMode params.syncMode as = tsfSyncModeChardev) :=
  ((loaded_init params netdevs wiphyPriv notifierEnv discoverEnv miscRegister).runs hrun).unloaded_exit

/-- Loaded for the sync loop, which runs twice, and unloaded. -/
theorem unloaded_iff_run : ∃ m, StepSystem.runs step [.timer, .worker, .timer]
      ((load { ModuleParams.default with syncMode := 1 } [] fun _ => none).tsfPtpInit (fun _ => .unused)
        (fun _ => .unused)
        (.ok ())) = some m ∧ m.tsfPtpExit.Unloaded := by
  refine ⟨_, rfl, ?_⟩
  exact (unloaded_iff { ModuleParams.default with syncMode := 1 } [] (fun _ => none) (fun _ => .unused) (fun _ => .unused)
    (.ok ()) [.timer, .worker, .timer] rfl).mpr ⟨Iff.rfl, fun h => absurd h (by decide)⟩

/-- Loaded for the sync loop, then `sync_mode` is written to 0: the work is still pending after exit. Loaded without
it, then written to 1: exit cancels a work that was never initialised. -/
theorem unloaded_counterexample :
    (∃ m, StepSystem.runs step [.setSyncMode 0]
      ((load { ModuleParams.default with syncMode := 1 } [] fun _ => none).tsfPtpInit (fun _ => .unused)
        (fun _ => .unused)
        (.ok ())) = some m ∧ m.tsfPtpExit.kernel.syncWork.pending = some 10 ∧ ¬m.tsfPtpExit.Unloaded) ∧
    ∃ m, StepSystem.runs step [.setSyncMode 1]
      ((load .default [] fun _ => none).tsfPtpInit (fun _ => .unused) (fun _ => .unused) (.ok ())) = some m ∧
      m.tsfPtpExit.cancels = [false] ∧ ¬m.tsfPtpExit.Unloaded := by
  refine ⟨⟨_, rfl, rfl, fun h => ?_⟩, _, rfl, rfl, fun h => ?_⟩
  · exact absurd h.pending (by decide)
  · exact absurd (h.cancels false (List.mem_singleton.mpr rfl)) (by decide)

end Module

end TsfSync
