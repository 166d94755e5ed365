import TsfSync.Daemon.ModeB
import TsfSync.Daemon.Processes

/-!
# What does a failed start leave behind?

A start that fails has dropped the processes it had started. The module is another matter: nothing on the way out unloads
it, though `stop` does. So a failed start leaves nothing behind exactly when it has not loaded the module
(`leavesNothing_iff`).
-/

namespace TsfSync

open User User.DaemonM Children FailingRun

/-- What is documented of the rest of the machine: a failed `insmod` has not loaded the module, and the start and the end
of a process and a read of `/dev/tsf_sync` neither load nor unload it. -/
structure User.Host.KeepsModule {W : Type} (h : Host W) : Prop where
  insmod : ∀ args w, h.module w = none → (h.insmod args w).1 ≠ .ok (.ok ()) → h.module (h.insmod args w).2 = none
  spawn : ∀ bin args w, (h.module (h.spawn bin args w).2).isSome = (h.module w).isSome
  dropProcess : ∀ child w, (h.module (h.dropProcess child w)).isSome = (h.module w).isSome
  findPrimaryIndex : ∀ phy w, (h.module (h.findPrimaryIndex phy w).2).isSome = (h.module w).isSome

/-- `modprobe` succeeds, or `insmod` of the file of the build after it. -/
def User.Host.CommandLoads {W : Type} (h : Host W) (args : List ParamArg) (w : W) : Prop :=
  (h.modprobe args w).1 = .ok (.ok ()) ∨
    h.koExists (h.modprobe args w).2 = true ∧ (h.insmod args (h.modprobe args w).2).1 = .ok (.ok ())

/-- A start loads the module: a card needs it, `/proc/modules` can be read and does not name it, and one of the two
commands succeeds. -/
structure User.Host.LoadsModule {W : Type} (h : Host W) (o : StartOptions) (w : W) : Prop where
  needs : h.Needs w
  missing : h.module w = none
  readable : ∃ names, h.procModules w = .ok names
  loads : h.CommandLoads (Host.loadParams o.adjtimeThresholdNs o.syncMode
    (if o.primary ≠ auto then some o.primary else none) (some o.syncIntervalMs)) w

/-! ## The module -/

section Loaded

variable {W : Type} {h : Host W} {w : W} {o : StartOptions} {d : Daemon W}

/-- After `insmod` the module is loaded exactly if the file is there and the command has succeeded. -/
theorem loaded_insmod (hd : h.Documented) (hk : h.KeepsModule) {args : List ParamArg} {e : ModuleError}
    (hnone : h.module w = none) :
    (h.module (if h.koExists w then (Host.commandResult (h.insmod args w).1, (h.insmod args w).2)
      else (.error e, w)).2).isSome = true ↔ h.koExists w = true ∧ (h.insmod args w).1 = .ok (.ok ()) := by
  split
  · rename_i hko
    by_cases hok : (h.insmod args w).1 = .ok (.ok ())
    · obtain ⟨m, hm, -⟩ := hd.insmod args w hnone hok
      exact iff_of_true (Option.isSome_iff_exists.mpr ⟨m, hm⟩) ⟨hko, hok⟩
    · refine iff_of_false ?_ fun hboth => hok hboth.2
      rw [hk.insmod args w hnone hok]
      exact Bool.false_ne_true
  · rename_i hko
    refine iff_of_false ?_ fun hboth => hko hboth.1
    rw [hnone]
    exact Bool.false_ne_true

/-- After the two commands the module is loaded exactly if one has succeeded. -/
theorem loaded_commands (hd : h.Documented) (hk : h.KeepsModule) {args : List ParamArg} (hnone : h.module w = none) :
    (h.module (match h.modprobe args w with
      | (.ok (.ok ()), w) => ((.ok (), w) : Except ModuleError Unit × W)
      | (.ok (.error _), w) | (.error _, w) =>
        if h.koExists w then (Host.commandResult (h.insmod args w).1, (h.insmod args w).2)
        else (.error (.modprobe (utf8 "tsf_ptp module not found via modprobe or at kernel/tsf_ptp.ko")), w)).2).isSome =
      true ↔ h.CommandLoads args w := by
  have hmod := hd.modprobe args w hnone
  unfold Host.CommandLoads
  rcases hout : h.modprobe args w with ⟨e | stderr | u, w'⟩ <;> rw [hout] at hmod
  · rw [if_neg (by simp)] at hmod
    exact (loaded_insmod hd hk hmod).trans (or_iff_right (by simp)).symm
  · rw [if_neg (by simp)] at hmod
    exact (loaded_insmod hd hk hmod).trans (or_iff_right (by simp)).symm
  · rw [if_pos rfl] at hmod
    obtain ⟨m, hm, -⟩ := hmod
    exact iff_of_true (Option.isSome_iff_exists.mpr ⟨m, hm⟩) (Or.inl rfl)

/-- After `load_tsf_ptp` the module is loaded exactly if it was, or if it was missing and one of the commands has
succeeded. -/
theorem loaded_loadTsfPtp (hd : h.Documented) (hk : h.KeepsModule) (thr : UInt64) (mode : SyncMode)
    (primary : Option Str) (interval : Option UInt32) (w : W) :
    (h.module (h.loadTsfPtp thr mode primary interval w).2).isSome = true ↔ (h.module w).isSome = true ∨
      h.module w = none ∧ (∃ names, h.procModules w = .ok names) ∧
        h.CommandLoads (Host.loadParams thr mode primary interval) w := by
  unfold Host.loadTsfPtp Host.isTsfPtpLoaded
  cases hproc : h.procModules w with
  | error e =>
    refine (or_iff_left ?_).symm
    rintro ⟨-, ⟨names, hnames⟩, -⟩
    cases hnames
  | ok names =>
    have hloaded := isModuleLoadedFrom_iff hd hproc
    dsimp only
    cases hl : isModuleLoadedFrom names moduleName with
    | true =>
      have hsome := hloaded.mp hl
      exact iff_of_true hsome (Or.inl hsome)
    | false =>
      have hnone : h.module w = none := by
        rw [← Option.not_isSome_iff_eq_none, ← hloaded, hl]
        exact Bool.false_ne_true
      refine (loaded_commands hd hk hnone).trans ?_
      rw [hnone]
      constructor
      · exact fun hcommand => Or.inr ⟨rfl, ⟨names, rfl⟩, hcommand⟩
      · rintro (hsome | ⟨-, -, hcommand⟩)
        · cases hsome
        · exact hcommand

/-- The sleep after a load changes nothing of this. -/
theorem loaded_load (hd : h.Documented) (hk : h.KeepsModule) (thr : UInt64) (mode : SyncMode) (primary : Option Str)
    (interval : Option UInt32) (d : Daemon W) :
    (h.module ((act (h.loadTsfPtp thr mode primary interval) >>= fun loaded => orFail .module loaded >>= fun _ =>
        act fun w => ((), h.sleep w) : DaemonM W Unit) d).2.world).isSome = true ↔
      (h.module d.world).isSome = true ∨ h.module d.world = none ∧ (∃ names, h.procModules d.world = .ok names) ∧
        h.CommandLoads (Host.loadParams thr mode primary interval) d.world := by
  rw [← loaded_loadTsfPtp hd hk, act_bind]
  rcases hresult : h.loadTsfPtp thr mode primary interval d.world with ⟨e | u, w₁⟩
  · rw [orFail_error_bind]
  · rw [orFail_ok_bind]
    obtain ⟨m, hm⟩ : ∃ m, h.module w₁ = some m := by
      rcases loadTsfPtp_ok hd hresult with ⟨hsome, rfl⟩ | ⟨-, m, hm, -⟩
      · exact Option.isSome_iff_exists.mp hsome
      · exact ⟨m, hm⟩
    obtain ⟨m', hm', -⟩ := sleep_ok hd hm
    exact iff_of_true (Option.isSome_iff_exists.mpr ⟨m', hm'⟩) (Option.isSome_iff_exists.mpr ⟨m, hm⟩)

/-- Before the second discovery the module is loaded exactly if it was, or if the start has loaded it. -/
theorem loaded_prepare (hd : h.Documented) (hk : h.KeepsModule) (o : StartOptions) (d : Daemon W) :
    (h.module (h.prepare o d).2.world).isSome = true ↔
      (h.module d.world).isSome = true ∨ h.LoadsModule o d.world := by
  unfold Host.prepare
  rw [look_bind]
  cases hcards : (h.sysfs d.world).discoverCards with
  | error e =>
    rw [orFail_error_bind]
    refine (or_iff_left ?_).symm
    rintro ⟨⟨cards, hfound, -⟩, -⟩
    rw [hcards] at hfound
    cases hfound
  | ok cards =>
    rw [orFail_ok_bind]
    unfold Host.loadIfNeeded
    split
    · rename_i hneeds
      refine (loaded_load hd hk _ _ _ _ d).trans (or_congr Iff.rfl ?_)
      constructor
      · rintro ⟨hmissing, hreadable, hcommand⟩
        exact ⟨⟨cards, hcards, hneeds⟩, hmissing, hreadable, hcommand⟩
      · rintro ⟨-, hmissing, hreadable, hcommand⟩
        exact ⟨hmissing, hreadable, hcommand⟩
    · rename_i hneeds
      refine (or_iff_left ?_).symm
      rintro ⟨⟨cards', hfound, hneeds'⟩, -⟩
      rw [hcards] at hfound
      cases hfound
      exact hneeds hneeds'

/-- To start processes, and to drop them, does not change whether the module is loaded. -/
theorem startAll_preserves (hk : h.KeepsModule) (b : Bool) (bin : Str) (primary : WifiCard) (cards : List WifiCard)
    (processes : List SyncProcess) :
    Preserves (fun d => (h.module d.world).isSome = b) (h.startAll bin primary cards processes) := by
  have hdropAll : ∀ (processes : List SyncProcess) w,
      (h.module (processes.foldl (fun w p => h.dropProcess p.child w) w)).isSome = (h.module w).isSome := by
    intro processes
    induction processes with
    | nil => exact fun _ => rfl
    | cons p rest ih => exact fun w => (ih _).trans (hk.dropProcess _ _)
  induction cards generalizing processes with
  | nil => exact ensures_pure fun _ hd => hd
  | cons card cards ih =>
    unfold Host.startAll
    split
    · exact ih processes
    · refine Preserves.bind ?_ fun r => ?_
      · unfold Host.startPhc2sys Host.spawnProcess
        refine Preserves.bind (ensures_info fun _ hd => hd) fun _ => ?_
        refine Preserves.bind (ensures_act fun d hd => (hk.spawn _ _ _).trans hd) fun r => ?_
        cases r <;> exact ensures_pure fun _ hd => hd
      · cases r with
        | ok proc => exact ih (processes ++ [proc])
        | error e =>
          exact Preserves.bind (ensures_act fun d hd => (hdropAll processes d.world).trans hd) fun _ =>
            ensures_throw fun _ hd => hd

/-- From the second discovery on it does not change either. -/
theorem startSync_preserves (hk : h.KeepsModule) (b : Bool) (o : StartOptions) (cards : List WifiCard) :
    Preserves (fun d => (h.module d.world).isSome = b) (h.startSync o cards) := by
  unfold Host.startSync
  dsimp only
  split
  · exact ensures_throw fun _ hd => hd
  refine Preserves.bind (ensures_orFail (fun _ _ hd => hd) fun _ hd => hd) fun card => ?_
  refine Preserves.bind (ensures_info fun _ hd => hd) fun _ => ?_
  unfold Host.startMode
  cases o.syncMode with
  | ptp => exact Preserves.bind (startAll_preserves hk b _ _ _ []) fun _ => ensures_pure fun _ hd => hd
  | kernel => exact ensures_pure fun _ hd => hd
  | iouring =>
    dsimp only
    split
    · refine Preserves.bind (ensures_act fun d hd => (hk.findPrimaryIndex _ _).trans hd) fun _ => ?_
      exact Preserves.bind (ensures_orFail (fun _ _ hd => hd) fun _ hd => hd) fun _ => ensures_pure fun _ hd => hd
    · exact ensures_throw fun _ hd => hd

/-- After a start, however it ends, the module is loaded exactly if it was, or if the start has loaded it. -/
theorem loaded_start (hd : h.Documented) (hk : h.KeepsModule) (o : StartOptions) (d : Daemon W) :
    (h.module (h.start o d).2.world).isSome = true ↔ (h.module d.world).isSome = true ∨ h.LoadsModule o d.world := by
  rw [← loaded_prepare hd hk o d]
  unfold Host.start
  rcases hprep : h.prepare o d with ⟨e | u, d₁⟩
  · rw [bind_error hprep]
  · rw [bind_ok hprep, look_bind]
    cases hcards : (h.sysfs d₁.world).discoverCards with
    | error e => rw [orFail_error_bind]
    | ok cards =>
      rw [orFail_ok_bind]
      have hkeeps := startSync_preserves hk (h.module d₁.world).isSome o cards d₁ rfl
      rcases hrun : h.startSync o cards d₁ with ⟨e | state, d₂⟩
      · rw [hkeeps.2 e d₂ hrun]
      · rw [hkeeps.1 state d₂ hrun]

end Loaded

/-! ## What is left -/

section WithChildren

variable {W : Type} {h : Host W} (lives : Pid → W → Child)

theorem documented_withChildren (hd : h.Documented) : (h.withChildren lives).Documented where
  procModules := fun w names hproc => hd.procModules w.1 names hproc
  modprobe := fun args w hnone => hd.modprobe args w.1 hnone
  insmod := fun args w hnone hok => hd.insmod args w.1 hnone hok
  sleep := fun w m hm => hd.sleep w.1 m hm

theorem keepsModule_withChildren (hk : h.KeepsModule) : (h.withChildren lives).KeepsModule where
  insmod := fun args w hnone hfail => hk.insmod args w.1 hnone hfail
  spawn := fun bin args w => by
    have hspawn := hk.spawn bin args w.1
    unfold Host.withChildren
    dsimp only
    rcases hout : h.spawn bin args w.1 with ⟨e | pid, w'⟩ <;> rw [hout] at hspawn <;> exact hspawn
  dropProcess := fun child w => hk.dropProcess child w.1
  findPrimaryIndex := fun phy w => hk.findPrimaryIndex phy w.1

end WithChildren

/-- **A failed start leaves nothing behind**: the module is loaded exactly if it was, and every child that has been
started has ended. -/
structure LeavesNothing {W : Type} (h : Host W) (lives : Pid → W → Child) (w w' : W × Table) : Prop where
  module : ((h.withChildren lives).module w').isSome = true ↔ ((h.withChildren lives).module w).isSome = true
  children : ∀ child, w.2.count ≤ child → child < w'.2.count → w'.2.Ended child

/-- **A failed start leaves nothing behind exactly when it has not loaded the module.** -/
theorem leavesNothing_iff {W : Type} {h : Host W} (hd : h.Documented) (hk : h.KeepsModule) {lives : Pid → W → Child}
    {o : StartOptions} {d d' : Daemon (W × Table)} {e : DaemonError}
    (hs : (h.withChildren lives).start o d = (.error e, d')) :
    LeavesNothing h lives d.world d'.world ↔ ¬(h.withChildren lives).LoadsModule o d.world := by
  have hloaded := loaded_start (documented_withChildren lives hd) (keepsModule_withChildren lives hk) o d
  have hcleaned := (start_processes h lives o d.world.2 d (Started.refl d.world.2)).2 e d' hs
  rw [hs] at hloaded
  constructor
  · rintro ⟨hmodule, -⟩ hloads
    have hsome := hmodule.mp (hloaded.mpr (Or.inr hloads))
    rw [hloads.missing] at hsome
    cases hsome
  · exact fun hloads => ⟨hloaded.trans (or_iff_left hloads), hcleaned.ended⟩

/-! ## A machine -/

theorem keepsModule_bench (tree : Option Module → Sysfs) : (Host.bench tree Module.loadTwo).KeepsModule where
  insmod := fun args w hw hfail => by
    obtain rfl : w = none := hw
    cases hparse : ModuleParams.parse args with
    | none => simp [Host.bench, hparse]
    | some params => simp [Host.bench, hparse] at hfail
  spawn := fun _ _ _ => rfl
  dropProcess := fun _ _ => rfl
  findPrimaryIndex := fun _ _ => rfl

/-- A process that runs until it is killed. -/
def stubborn : Pid → Option Module → Child := fun _ _ => ⟨none, none, false⟩

/-- The module is loaded already, and there is no `phy2`. -/
theorem leavesNothing_iff_loaded : ∃ d' e, (Host.twoRadios.withChildren stubborn).start
      (StartOptions.kernel (utf8 "phy2")) ⟨(some (Module.loadTwo .default), .empty), []⟩ = (.error e, d') ∧
    LeavesNothing Host.twoRadios stubborn (some (Module.loadTwo .default), .empty) d'.world := by
  have hstart : (Host.twoRadios.withChildren stubborn).start (StartOptions.kernel (utf8 "phy2"))
      ⟨(some (Module.loadTwo .default), .empty), []⟩ =
      (.error (.config (.primaryNotFound (utf8 "phy2"))), ⟨(some (Module.loadTwo .default), .empty), []⟩) := rfl
  refine ⟨_, _, hstart, (leavesNothing_iff (documented_bench _) (keepsModule_bench _) hstart).mpr fun hloads => ?_⟩
  cases hloads.missing

/-- The start loads the module, and there is no `phy2`: the module stays. -/
theorem leavesNothing_counterexample : ∃ d' e, (Host.twoRadios.withChildren stubborn).start
      (StartOptions.kernel (utf8 "phy2")) ⟨(none, .empty), []⟩ = (.error e, d') ∧
    ¬LeavesNothing Host.twoRadios stubborn (none, .empty) d'.world := by
  refine ⟨_, _, rfl, ?_⟩
  rintro ⟨hmodule, -⟩
  cases hmodule.mp rfl

end TsfSync
