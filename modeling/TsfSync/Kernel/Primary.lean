import TsfSync.Kernel.Drift
import TsfSync.Kernel.Module
import TsfSync.Lib.Turnover

/-!
# The primary while cards come and go

The sync loop chooses its primary anew in every cycle. Cards leave `cards_list` and new ones come to its end, so the choice
stays the same as long as that card is listed, whatever else is plugged, set or adjusted (`primary_stays`), and a cycle
settles the secondaries that there are then (`settled_worker`).
-/

namespace TsfSync

open LockProg StepSystem

/-! ## What an event does to the cards -/

/-- The list, the parameter that names the primary, and of every card its name and its driver's ops. -/
def Kernel.lineup (s : Kernel) : CardsList × List UInt8 × (CardPtr → CStr 32 × Ops) :=
  (s.cardsList, s.syncPrimary, fun c => ((s.card c).phyName, (s.card c).hw.ops))

/-- Cards have left the list or come to its end. Those that stayed keep their names and their drivers, and those that came
have `get_tsf`. -/
structure Churns (s s' : Kernel) : Prop where
  turnover : Turnover s.cardsList.ptrs s'.cardsList.ptrs
  stayed : ∀ c ∈ s.cardsList.ptrs, (s'.card c).phyName = (s.card c).phyName ∧ (s'.card c).hw.ops = (s.card c).hw.ops
  came : ∀ c ∈ s'.cardsList.ptrs, c ∉ s.cardsList.ptrs → (s'.card c).hw.ops.getTsf = true
  syncPrimary : s'.syncPrimary = s.syncPrimary

section Churns

variable {s s' : Kernel} {c : CardPtr} {w : WiphyId} {dev : NetDev}

theorem lineup_card (h : s'.lineup = s.lineup) (c : CardPtr) :
    (s'.card c).phyName = (s.card c).phyName ∧ (s'.card c).hw.ops = (s.card c).hw.ops :=
  Prod.mk.inj (congrFun (congrArg (·.2.2) h) c)

theorem lineup_ptrs (h : s'.lineup = s.lineup) : s'.cardsList.ptrs = s.cardsList.ptrs :=
  congrArg (fun l => CardsList.ptrs l.1) h

/-- Nothing has changed. -/
theorem churns_of_lineup (h : s'.lineup = s.lineup) : Churns s s' where
  turnover := by
    rw [lineup_ptrs h]
    exact Turnover.refl _
  stayed := fun c _ => lineup_card h c
  came := fun c hc hn => absurd (lineup_ptrs h ▸ hc) hn
  syncPrimary := congrArg (·.2.1) h

/-- A change after one that leaves the line-up. -/
theorem Churns.after {s₁ : Kernel} (h : s₁.lineup = s.lineup) (h' : Churns s₁ s') : Churns s s' where
  turnover := by
    rw [← lineup_ptrs h]
    exact h'.turnover
  stayed := fun c hc => by
    obtain ⟨hname, hops⟩ := h'.stayed c (lineup_ptrs h ▸ hc)
    obtain ⟨hname₁, hops₁⟩ := lineup_card h c
    exact ⟨hname.trans hname₁, hops.trans hops₁⟩
  came := fun c hc hn => h'.came c hc (lineup_ptrs h ▸ hn)
  syncPrimary := h'.syncPrimary.trans (congrArg (·.2.1) h)

theorem lineup_setVif (s : Kernel) (c : CardPtr) (vif : Option DevId) : (s.setVif c vif).lineup = s.lineup := by
  have hcard : ∀ d, ((s.setVif c vif).card d).phyName = (s.card d).phyName ∧
      ((s.setVif c vif).card d).hw.ops = (s.card d).hw.ops := by
    intro d
    by_cases hd : d = c
    · subst hd
      simp [Kernel.setVif]
    · simp [Kernel.setVif, Kernel.setCard_ne _ _ hd]
  refine congrArg (fun f => (s.cardsList, s.syncPrimary, f)) (funext fun d => ?_)
  exact Prod.ext (hcard d).1 (hcard d).2

theorem lineup_vifCallback {p : KProg Unit} (hp : p = captureVif w dev ∨ p = releaseVif w dev) :
    (p.run s).2.lineup = s.lineup := by
  rcases run_vifCallback (s := s) hp with h | ⟨c, vif, h⟩
  · rw [h]
  · rw [h, lineup_setVif]

/-- Memory that is no card of the list can hold anything. -/
theorem churns_setCard (hc : c ∉ s.cardsList.ptrs) (f : Card → Card) : Churns s (s.setCard c f) where
  turnover := Turnover.refl _
  stayed := fun d hd => by
    have hne : d ≠ c := fun e => hc (e ▸ hd)
    rw [s.setCard_ne f hne]
    exact ⟨rfl, rfl⟩
  came := fun d hd hn => absurd hd hn
  syncPrimary := rfl

theorem churns_addCard (hc : c ∉ s.cardsList.ptrs ∧ c ≠ .head) {loc : Local w} (hget : loc.hw.ops.getTsf = true) :
    Churns s (s.addCard c loc) := by
  have hptrs : (s.addCard c loc).cardsList.ptrs = s.cardsList.ptrs ++ [c] := CardsList.addTail_ptrs _ hc
  refine ⟨hptrs ▸ turnover_append hc.1, (churns_setCard hc.1 fun _ => Card.new loc).stayed, fun d hd hn => ?_, rfl⟩
  rw [hptrs] at hd
  rcases List.mem_append.mp hd with hd | hd
  · exact absurd hd hn
  · cases List.mem_singleton.mp hd
    rw [Kernel.addCard, Kernel.setCard_self]
    exact hget

theorem churns_delCard (s : Kernel) (c : CardPtr) : Churns s (s.delCard c) where
  turnover := turnover_erase _ c
  stayed := fun _ _ => ⟨rfl, rfl⟩
  came := fun _ hd hn => absurd (List.mem_of_mem_erase hd) hn
  syncPrimary := rfl

theorem churns_probe (env : ProbeEnv) (loc : Local w) : Churns s ((tsfPtpProbe env loc).run s).2 := by
  unfold tsfPtpProbe
  cases hget : loc.hw.ops.getTsf with
  | false => simpa using churns_of_lineup (s := s) rfl
  | true =>
    cases hf : s.cardOf loc.hw.wiphy with
    | some d => simpa [hf] using churns_of_lineup (s := s) rfl
    | none =>
      cases hk : env.kzalloc s.cardsList with
      | none => simpa [hf, hk] using churns_of_lineup (s := s) rfl
      | some c =>
        cases hp : env.ptpClockRegister with
        | error e => simpa [hf, hk, hp] using churns_setCard c.2.1 fun _ => Card.new loc
        | ok u => simpa [hf, hk, hp, listAddTail, Kernel.addCard] using churns_addCard c.2 hget

theorem churns_hotplugProbe (env : ProbeEnv) (w : WiphyId) : Churns s ((tsfPtpTryHotplugProbe env w).run s).2 := by
  unfold tsfPtpTryHotplugProbe
  cases hf : s.cardOf w with
  | some d => simpa [hf] using churns_of_lineup (s := s) rfl
  | none =>
    cases hloc : s.wiphyPriv w with
    | none => simpa [hf, hloc] using churns_of_lineup (s := s) rfl
    | some loc => simpa [hf, hloc] using churns_probe env loc

theorem churns_hotplugRemove (s : Kernel) (w : WiphyId) : Churns s ((tsfPtpTryHotplugRemove w).run s).2 := by
  rw [run_hotplugRemove]
  split
  · exact churns_of_lineup rfl
  · cases s.cardOf w with
    | none => exact churns_of_lineup rfl
    | some c => exact churns_delCard s c

theorem churns_netdevEvent (env : ProbeEnv) (event : NetdevEvent) (dev : NetDev) :
    Churns s ((tsfPtpNetdevEvent env event dev).run s).2 := by
  rw [netdevEvent_eq]
  cases dev.wiphy with
  | none => exact churns_of_lineup rfl
  | some w =>
    cases event with
    | register => exact churns_hotplugProbe env w
    | up => exact churns_of_lineup (lineup_vifCallback (Or.inl rfl))
    | down => exact churns_of_lineup (lineup_vifCallback (Or.inr rfl))
    | unregister =>
      have hrelease : ((releaseVif w dev).run s).2.lineup = s.lineup := lineup_vifCallback (Or.inr rfl)
      simpa only [Prog.run_bind] using (churns_hotplugRemove ((releaseVif w dev).run s).2 w).after hrelease
    | other => exact churns_of_lineup rfl

/-- An event for a listed device, after a change that leaves the line-up. -/
theorem churns_callNotifier {s₁ : Kernel} (h : s₁.lineup = s.lineup) (event : NetdevEvent) (id : DevId) :
    Churns s ((callNotifier event id).run s₁).2 := by
  refine Churns.after h ?_
  unfold callNotifier
  cases hf : s₁.findNetdev id with
  | none => simpa [hf] using churns_of_lineup (s := s₁) rfl
  | some dev => simpa [hf] using churns_netdevEvent .unused event dev

/-- A change of a net_device. -/
theorem churns_rtnlStep {a : RtnlStep} (ha : a.IsEvent) (h : rtnlStep s a = some s') : Churns s s' := by
  cases a with
  | registerNotifier env => exact absurd ha id
  | discover env => exact absurd ha id
  | scan => exact absurd ha id
  | register env dev =>
    obtain ⟨-, -, rfl⟩ := rtnlStep_register h
    have hlist : (s.listNetdevice dev).lineup = s.lineup := rfl
    simpa [registerNetdevice] using (churns_netdevEvent env .register dev).after hlist
  | up id =>
    obtain ⟨dev, -, -, rfl⟩ := rtnlStep_up h
    have hup : (s.setUp id true).lineup = s.lineup := rfl
    simpa [devOpen] using churns_callNotifier hup .up id
  | down id =>
    obtain ⟨dev, -, -, rfl⟩ := rtnlStep_down h
    have hdown : (s.setUp id false).lineup = s.lineup := rfl
    simpa [devClose] using churns_callNotifier hdown .down id
  | unregister id =>
    obtain ⟨dev, -, -, rfl⟩ := rtnlStep_unregister h
    have hunlist : (s.unlistNetdevice dev.id).lineup = s.lineup := rfl
    simpa [unregisterNetdevice] using (churns_netdevEvent .unused .unregister dev).after hunlist

end Churns

/-! ## The module over time -/

/-- Something happens to the loaded module, or the clocks have moved on. -/
inductive Moment
  | action (a : Module.Action)
  | advance (tsf : CardPtr → UInt64)

/-- Nobody writes `sync_primary`. -/
def Moment.KeepsName : Moment → Prop
  | .action (.setSyncPrimary _) => False
  | .action _ | .advance _ => True

/-- One moment; none where an action cannot be taken. -/
def Module.live : Moment → Module → Option Module
  | .action a, m => Module.step a m
  | .advance tsf, m => some { m with kernel := m.kernel.advance tsf }

/-- A card is listed all the time. -/
def Module.Lists (p : CardPtr) (xs : List Moment) (m : Module) : Prop :=
  StepSystem.EveryState Module.live (fun m => p ∈ m.kernel.cardsList.ptrs) xs m

section Live

variable {m m' : Module} {x : Moment}

theorem offClocks_lineup : Kernel.OffClocks Kernel.lineup := by
  refine ⟨fun _ _ => rfl, fun s c tsf calls => ?_, fun _ _ => rfl, fun _ _ => rfl⟩
  refine congrArg (fun f => (s.cardsList, s.syncPrimary, f)) (funext fun d => ?_)
  by_cases hd : d = c
  · subst hd
    simp
  · simp [Kernel.setCard_ne _ _ hd]

theorem lineup_of_sameSetup {s s' : Kernel} (h : SameSetup s s') : s'.lineup = s.lineup := by
  have hcard : (fun c => ((s'.card c).phyName, (s'.card c).hw.ops)) =
      fun c => ((s.card c).phyName, (s.card c).hw.ops) :=
    funext fun c => Prod.ext (h.card c).2.1 (h.card c).2.2
  exact Prod.ext h.cardsList (Prod.ext h.syncPrimary hcard)

/-- What one moment does to the cards. -/
theorem churns_live (hx : x.KeepsName) (h : m.live x = some m') : Churns m.kernel m'.kernel := by
  cases x with
  | advance tsf =>
    cases h
    exact churns_of_lineup (lineup_of_sameSetup (sameSetup_advance m.kernel tsf))
  | action a =>
    cases a with
    | setSyncPrimary v => exact absurd hx id
    | setSyncMode v | setAdjtimeThresholdNs v | setSyncIntervalMs v =>
      cases h
      exact churns_of_lineup rfl
    | timer =>
      obtain ⟨-, heq⟩ := Option.ite_none_right_eq_some.mp h
      cases heq
      exact churns_of_lineup rfl
    | worker =>
      obtain ⟨-, heq⟩ := Option.ite_none_right_eq_some.mp h
      cases heq
      exact churns_of_lineup (lineup_of_sameSetup (sameSetup_workFn m.kernel))
    | call call =>
      obtain ⟨kernel, rfl, hk⟩ := Module.step_call offClocks_lineup h
      exact churns_of_lineup hk
    | netdev a =>
      obtain ⟨ha, hstep⟩ := Option.ite_none_right_eq_some.mp h
      obtain ⟨kernel, hk, rfl⟩ := Option.map_eq_some_iff.mp hstep
      exact churns_rtnlStep ha hk

end Live

/-! ## The primary stays -/

namespace Kernel

/-- A card that `find_primary_locked` would take if it came first. -/
def eligible (s : Kernel) (c : CardPtr) : Bool := s.syncPrimary == [] || (s.card c).phyName.bytes == s.syncPrimary

/-- The primary is the first card that is eligible. -/
theorem primary_eq_find (s : Kernel) : s.primary = s.cardsList.ptrs.find? s.eligible := by
  show (if s.syncPrimary ≠ [] then s.cardsList.ptrs.find? fun c => (s.card c).phyName.bytes == s.syncPrimary
    else s.cardsList.ptrs.head?) = _
  by_cases hname : s.syncPrimary = []
  · have hall : s.eligible = fun _ => true := funext fun c => by simp [eligible, hname]
    rw [if_neg (not_not.mpr hname), hall]
    cases s.cardsList.ptrs <;> simp
  · have hnamed : s.eligible = fun c => (s.card c).phyName.bytes == s.syncPrimary :=
      funext fun c => by simp [eligible, hname]
    rw [if_pos hname, hnamed]

end Kernel

section Runs

variable {m m' : Module} {xs : List Moment} {p : CardPtr}

/-- **The primary stays** as long as it is listed and nobody renames it: whatever else comes and goes, whoever sets and
adjusts the clocks, and however they run. -/
theorem primary_stays (hxs : ∀ x ∈ xs, x.KeepsName) (hlisted : m.Lists p xs) (hrun : runs Module.live xs m = some m')
    (hp : m.kernel.primary = some p) : m'.kernel.primary = some p := by
  have hn : ∀ m : Module, m.kernel.cardsList.ptrs.Nodup := fun m => m.kernel.cardsList.nodup
  have hstep : ∀ (x : Moment) (m m' : Module), x.KeepsName → m.live x = some m' →
      Turnover m.kernel.cardsList.ptrs m'.kernel.cardsList.ptrs ∧
        ∀ c ∈ m.kernel.cardsList.ptrs, m'.kernel.eligible c = m.kernel.eligible c := by
    intro x m m' hx h
    have hchurns := churns_live hx h
    refine ⟨hchurns.turnover, fun c hc => ?_⟩
    rw [Kernel.eligible, Kernel.eligible, hchurns.syncPrimary, (hchurns.stayed c hc).1]
  rw [Kernel.primary_eq_find] at hp ⊢
  exact find?_runs hn hstep hxs hlisted hrun hp

/-- A card keeps its name as long as it is listed. -/
theorem name_stays : ∀ {xs : List Moment} {m : Module}, (∀ x ∈ xs, x.KeepsName) → m.Lists p xs →
    runs Module.live xs m = some m' → (m'.kernel.card p).phyName = (m.kernel.card p).phyName
  | [], _, _, _, h => by cases h; rfl
  | x :: xs, m, hxs, hlisted, h => by
    obtain ⟨m₁, h₁, h₂⟩ := Option.bind_eq_some_iff.mp h
    obtain ⟨hx, hrest⟩ := List.forall_mem_cons.mp hxs
    exact (name_stays hrest (hlisted.2 m₁ h₁) h₂).trans ((churns_live hx h₁).stayed p hlisted.head).1

end Runs

/-! ## Every cycle settles the cards that there are -/

/-- The driver of every listed card has `get_tsf`. -/
def Kernel.Readable (s : Kernel) : Prop := ∀ c ∈ s.cardsList.ptrs, (s.card c).hw.ops.getTsf = true

section Readable

variable {s s' : Kernel} {m m' : Module}

theorem Churns.readable (h : Churns s s') (hs : s.Readable) : s'.Readable := by
  intro c hc
  by_cases hmem : c ∈ s.cardsList.ptrs
  · rw [(h.stayed c hmem).2]
    exact hs c hmem
  · exact h.came c hc hmem

theorem readable_replay (env : DevId → ProbeEnv) (dev : NetDev) (hs : s.Readable) :
    ((replayNetdev env dev).run s).2.Readable := by
  have hregister := (churns_netdevEvent (env dev.id) .register dev).readable hs
  cases hup : dev.up with
  | false => simpa [replayNetdev, hup] using hregister
  | true => simpa [replayNetdev, hup] using (churns_netdevEvent .unused .up dev).readable hregister

theorem readable_discoverLoop (env : DevId → ProbeEnv) : ∀ (devs : List NetDev) (count : Nat) {s : Kernel},
    s.Readable → ((discoverLoop env devs count).run s).2.Readable
  | [], _, _, hs => hs
  | dev :: devs, count, s, hs => by
    unfold discoverLoop
    cases hw : dev.wiphy with
    | none => exact readable_discoverLoop env devs count hs
    | some w =>
      cases hloc : s.wiphyPriv w with
      | none => simpa [hloc] using readable_discoverLoop env devs count hs
      | some loc =>
        have hprobe := (churns_probe (env dev.id) loc).readable hs
        cases hr : ((tsfPtpProbe (env dev.id) loc).run s).1 with
        | ok u => simpa [hloc, hr] using readable_discoverLoop env devs (count + 1) hprobe
        | error e => simpa [hloc, hr] using readable_discoverLoop env devs count hprobe

theorem readable_discover (env : DevId → ProbeEnv) (hs : s.Readable) :
    ((tsfPtpDiscoverFromNetdevs env).run s).2.Readable := by
  simpa [tsfPtpDiscoverFromNetdevs] using readable_discoverLoop env (initNetdevs s) 0 hs

theorem readable_scanExistingVif (dev : NetDev) (hs : s.Readable) : ((scanExistingVif dev).run s).2.Readable := by
  unfold scanExistingVif
  split
  · exact hs
  · split
    · exact (churns_of_lineup (lineup_vifCallback (Or.inl rfl))).readable hs
    · exact hs

theorem readable_registerNotifier (env : DevId → ProbeEnv) (hs : s.Readable) :
    ((registerNetdeviceNotifier env).run s).2.Readable := by
  have hreplays : ((forM s.netdevs (replayNetdev env)).run s).2.Readable :=
    Prog.run_forM_inv Kernel.Readable (fun dev _ _ hs => readable_replay env dev hs) hs
  simpa [registerNetdeviceNotifier] using hreplays

theorem readable_scan (hs : s.Readable) : (tsfPtpScanExistingVifs.run s).2.Readable := by
  have hrounds : ((forM (initNetdevs s) scanExistingVif).run s).2.Readable :=
    Prog.run_forM_inv Kernel.Readable (fun dev _ _ hs => readable_scanExistingVif dev hs) hs
  simpa [tsfPtpScanExistingVifs] using hrounds

/-- Init lists only cards that can be read. -/
theorem readable_init (params : ModuleParams) (netdevs : List NetDev) (wiphyPriv : (w : WiphyId) → Option (Local w))
    (notifierEnv discoverEnv : DevId → ProbeEnv) (miscRegister : Except Errno Unit) :
    ((Module.load params netdevs wiphyPriv).tsfPtpInit notifierEnv discoverEnv miscRegister).kernel.Readable := by
  have hload : (Module.load params netdevs wiphyPriv).kernel.Readable := fun _ hc => by cases hc
  have hcards : ((((Module.load params netdevs wiphyPriv).exec (registerNetdeviceNotifier notifierEnv)).exec
      (tsfPtpDiscoverFromNetdevs discoverEnv)).exec tsfPtpScanExistingVifs).kernel.Readable :=
    readable_scan (readable_discover discoverEnv (readable_registerNotifier notifierEnv hload))
  unfold Module.tsfPtpInit
  dsimp only
  generalize (((Module.load params netdevs wiphyPriv).exec (registerNetdeviceNotifier notifierEnv)).exec
    (tsfPtpDiscoverFromNetdevs discoverEnv)).exec tsfPtpScanExistingVifs = m at hcards ⊢
  split
  · exact hcards
  split
  · cases miscRegister <;> exact hcards
  · exact hcards

/-- Every moment keeps the cards readable. -/
theorem readable_live (x : Moment) (m m' : Module) (hm : m.kernel.Readable) (h : m.live x = some m') :
    m'.kernel.Readable := by
  cases x with
  | advance tsf => exact (churns_live (by trivial) h).readable hm
  | action a =>
    cases a with
    | setSyncPrimary v =>
      cases h
      exact hm
    | setSyncMode v | setAdjtimeThresholdNs v | setSyncIntervalMs v | timer | worker | call c | netdev e =>
      exact (churns_live (by trivial) h).readable hm

/-- A run of the sync loop that finds its primary settles every secondary. -/
theorem settled_worker {p : CardPtr} (hm : m.kernel.Readable) (hp : m.kernel.primary = some p)
    (hvif : (m.kernel.card p).vif.isSome = true) (hrange : m.kernel.InRange p)
    (h : Module.step .worker m = some m') : m'.kernel.Settled p := by
  obtain ⟨-, heq⟩ := Option.ite_none_right_eq_some.mp h
  cases heq
  have hsucceeds : m.kernel.cycleSucceeds = true := by simpa [Kernel.cycleSucceeds, hp] using hvif
  exact (settled_workFn hp hm hrange hsucceeds).1

end Readable

end TsfSync
