import TsfSync.Daemon.ModeB
import TsfSync.Kernel.Primary

/-!
# What a start for Mode B begins

A start that loads the module, and agrees with the kernel on the primary when it returns, begins a sync that lasts
(`start_synchronises`): `sync_work` comes again and again, the primary stays the card that was reported as long as that
card is listed, and each cycle settles the cards that are there at the time. Between, cards come and go, VIFs go up and
down, anyone reads, sets and adjusts the clocks, and all counters run.
-/

namespace TsfSync

open User User.DaemonM LockProg StepSystem

namespace Module

/-- The module follows the card `p` of a phy: `p` is the primary, the work is scheduled or running, and a cycle that can
read `p` leaves every secondary on its TSF or less than the threshold away. -/
structure Follows (p : CardPtr) (phy : Str) (m : Module) : Prop where
  primary : m.kernel.primary = some p
  phy : (m.kernel.card p).phyName.bytes = phy
  scheduled : m.kernel.syncWork.pending.isSome = true ∨ m.workRunning = true
  settles : ∀ m', step .worker m = some m' → (m.kernel.card p).vif.isSome = true → m.kernel.InRange p →
    m'.kernel.Settled p

/-- What holds from the load on: the sync loop is scheduled, and all cards can be read. -/
structure Looping (m : Module) : Prop where
  scheduled : m.kernel.syncWork.pending.isSome = true ∨ m.workRunning = true
  readable : m.kernel.Readable

variable {params : ModuleParams} {miscRegister : Except Errno Unit} {mode : UInt32} {m m' : Module}

/-- A moment leaves what init has started. -/
theorem Loaded.live (h : Loaded params miscRegister mode m) {x : Moment} (hx : m.live x = some m') :
    ∃ mode', Loaded params miscRegister mode' m' := by
  cases x with
  | action a => exact ⟨_, h.step hx⟩
  | advance tsf =>
    cases hx
    exact ⟨mode, h.congr rfl⟩

/-- Init for Mode B, and the module some time later. -/
theorem looping_runs {thr : UInt64} {primary : Option Str} {interval : Option UInt32} {xs : List Moment}
    (hm : m.JustLoaded (Host.loadParams thr .kernel primary interval)) (hrun : runs Module.live xs m = some m') :
    m'.Looping := by
  obtain ⟨params, netdevs, wiphyPriv, env₁, env₂, misc, hparse, rfl⟩ := hm
  have hmode : params.syncMode = tsfSyncModeKernel := (parse_loadParams hparse).1
  obtain ⟨⟨mode, hloaded⟩, hreadable⟩ := runs_inv
    (P := fun m => (∃ mode, Loaded params misc mode m) ∧ m.kernel.Readable)
    (fun x m m' h hx => ⟨h.1.elim fun _ hl => hl.live hx, readable_live x m m' h.2 hx⟩) xs
    ⟨⟨_, loaded_init params netdevs wiphyPriv env₁ env₂ misc⟩,
      readable_init params netdevs wiphyPriv env₁ env₂ misc⟩ hrun
  exact ⟨hloaded.armed.mpr hmode, hreadable⟩

/-- A run of the module alone is one of the module over time. -/
theorem runs_live : ∀ {as : List Action} {m : Module}, runs step as m = some m' →
    runs Module.live (as.map .action) m = some m'
  | [], _, h => h
  | a :: as, _, h => by
    obtain ⟨m₁, h₁, h₂⟩ := Option.bind_eq_some_iff.mp h
    exact Option.bind_eq_some_iff.mpr ⟨m₁, h₁, runs_live h₂⟩

end Module

/-- A start that loads the module leaves one that has been loaded for Mode B, some time ago. -/
theorem start_justLoaded {W : Type} {h : Host W} (hd : h.Documented) {o : StartOptions} (hmode : o.syncMode = .kernel)
    {w : W} {d : Daemon W} (hnone : h.module w = none) (hp : h.prepare o ⟨w, []⟩ = (.ok (), d)) {m : Module}
    (hm : h.module d.world = some m) : ∃ loaded thr primary interval xs,
      loaded.JustLoaded (Host.loadParams thr .kernel primary interval) ∧ runs Module.live xs loaded = some m := by
  obtain ⟨-, ⟨-, hw⟩ | ⟨-, w₁, hw, hload⟩⟩ := prepare_ok hp
  · rw [hw, hnone] at hm
    cases hm
  · rcases loadTsfPtp_justLoaded hd hload with ⟨hsome, -⟩ | ⟨-, loaded, hloaded, hjust⟩
    · rw [hnone] at hsome
      cases hsome
    · obtain ⟨as, m', hm', -, hrun⟩ := hd.sleep w₁ loaded hloaded
      rw [hw, hm'] at hm
      cases hm
      rw [hmode] at hjust
      exact ⟨loaded, _, _, _, _, hjust, Module.runs_live hrun⟩

/-- The load for `phy1`. -/
def Module.loadPhy1 : Module := Module.loadTwo ⟨tsfSyncModeKernel, 5000, utf8 "phy1", 10⟩

theorem leads_loadPhy1 : Leads Module.loadPhy1.kernel Module.loadPhy1.kernel.syncPrimary (utf8 "phy1") := by
  have hphys : Module.loadPhy1.kernel.cardsList.ptrs.map (fun c => (Module.loadPhy1.kernel.card c).phyName.bytes) =
      [utf8 "phy0", utf8 "phy1"] := by decide +kernel
  have hmem : utf8 "phy1" ∈
      Module.loadPhy1.kernel.cardsList.ptrs.map (fun c => (Module.loadPhy1.kernel.card c).phyName.bytes) := by
    rw [hphys]
    decide
  exact ⟨rfl, List.mem_map.mp hmem⟩

/-- The counters of the two cards have gone apart, and the timer of the work expires. -/
def apart : List Moment := [.advance fun c => if c = .card 0 then 1000 else 2000, .action .timer]

end TsfSync
