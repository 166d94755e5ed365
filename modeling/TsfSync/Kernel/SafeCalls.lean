import TsfSync.Kernel.Lifetime
import TsfSync.Kernel.Refines

/-!
# The calls under `rtnl_lock` keep the registry safe

What the calls do alone, one after the other, as long as the kernel makes them (`LegalCalls`): no wiphy has two cards,
and every VIF held is that of a device of its wiphy that is up (`safe_calls`). The functions refine those without memory
(`Refines.lean`), event by event.
-/

namespace TsfSync

open LockProg

namespace Lifetime

variable {ι α : Type} [DecidableEq ι] {readers : List ι} {r : ι} {s : Kernel} {h : Heap} {dev : NetDev}

theorem Settled.listedAllocated (hs : Settled (s, h)) : ListedAllocated s h :=
  fun c hc => hs.1.clocked c (hs.1.listed c hc)

theorem KeepsSettled.run {p : SysProg ι α} (hp : KeepsSettled readers r p) {s : Sys} (hs : Settled s) :
    Settled (p.run s).2 := by
  obtain ⟨H, P, ⟨-, hP⟩, hend⟩ := Promise.Outline.run hp hs
  exact hP _ hend

/-- The calls that the kernel makes: a device is registered down, changes its flag, and is unregistered down. -/
def RegistryCall.Legal (s : Kernel) : RegistryCall → Prop
  | .register _ dev => s.findNetdev dev.id = none ∧ dev.up = false
  | .up dev => s.findNetdev dev.id = some dev ∧ dev.up = false
  | .down dev => s.findNetdev dev.id = some dev ∧ dev.up = true
  | .unregister dev => s.findNetdev dev.id = some dev ∧ dev.up = false
  | .registerNotifier _ | .discover _ | .scan | .exit => True

/-- Calls that the kernel makes one after the other. -/
def LegalCalls (readers : List ι) : List RegistryCall → Sys → Prop
  | [], _ => True
  | call :: calls, s => call.Legal s.1 ∧ LegalCalls readers calls ((call.prog readers).run s).2

/-- What the loops over the net_devices keep. -/
structure Steady (devs : List NetDev) (s : Sys) : Prop where
  safe : s.1.Safe
  settled : Settled s
  netdevs : s.1.netdevs = devs

variable (hn : readers.Nodup)

include hn

/-- An event does to the registry what it does without memory. -/
theorem does_event {r : Registry} (i : ι) (env : AllocEnv) (event : NetdevEvent) (hs : Settled (s, h))
    (hdoes : Does s ((TsfSync.tsfPtpNetdevEvent (env.toProbeEnv h) event dev).run s).2 r) :
    Does s ((tsfPtpNetdevEvent readers env event dev).run (s, h)).2.1 r ∧
      Settled ((tsfPtpNetdevEvent readers env event dev).run (s, h)).2 := by
  rw [refines_netdevEvent readers env event dev hs.listedAllocated]
  exact ⟨hdoes, (keepsSettled_netdevEvent (r := i) hn env event dev).run hs⟩

theorem steady_event {devs : List NetDev} {s : Sys} (i : ι) (env : AllocEnv) (event : NetdevEvent) (dev : NetDev)
    (hs : Steady devs s) (hdev : event = .up → dev ∈ devs ∧ dev.up = true) :
    Steady devs ((tsfPtpNetdevEvent readers env event dev).run s).2 := by
  obtain ⟨s, h⟩ := s
  obtain ⟨hsafe, hset, rfl⟩ := hs
  have key : ∀ r : Registry, r.Sound → r.netdevs = s.netdevs →
      Does s ((TsfSync.tsfPtpNetdevEvent (env.toProbeEnv h) event dev).run s).2 r →
      Steady s.netdevs ((tsfPtpNetdevEvent readers env event dev).run (s, h)).2 := by
    intro r hr hnet hdoes
    obtain ⟨hd, hs'⟩ := does_event hn i env event hset hdoes
    exact ⟨hd.safe hr, hs', hd.netdevs.trans hnet⟩
  cases event with
  | register => exact key _ (hsafe.sound.enrol _) (Registry.enrol_netdevs _) (does_eventRegister _ dev hsafe.ok)
  | up =>
    obtain ⟨hm, hup⟩ := hdev rfl
    exact key _ (hsafe.sound.capture hm hup) Registry.capture_netdevs (does_eventUp _ dev hsafe.ok)
  | down => exact key _ hsafe.sound.release Registry.release_netdevs (does_eventDown _ dev hsafe.ok)
  | unregister =>
    exact key _ hsafe.sound.release.dropIfLast (Registry.dropIfLast_netdevs.trans Registry.release_netdevs)
      (does_eventUnregister _ dev hsafe.ok)
  | other =>
    refine key _ hsafe.sound rfl ?_
    rw [netdevEvent_eq]
    cases dev.wiphy <;> exact Does.refl hsafe.ok

theorem steady_replay {devs : List NetDev} {s : Sys} (i : ι) (env : DevId → AllocEnv) (hs : Steady devs s) :
    Steady devs ((forM devs fun dev : NetDev => do
      tsfPtpNetdevEvent readers (env dev.id) .register dev
      if dev.up then
        tsfPtpNetdevEvent readers .unused .up dev).run s).2 := by
  refine Prog.run_forM_inv (Steady devs) (fun dev hdev s' hs' => ?_) hs
  have hreg := steady_event hn i (env dev.id) .register dev hs' (by simp)
  cases hup : dev.up with
  | false => simpa [hup] using hreg
  | true => simpa [hup] using steady_event hn i .unused .up dev hreg fun _ => ⟨hdev, hup⟩

omit hn in
theorem steady_discoverLoop (i : ι) (env : DevId → AllocEnv) : ∀ (rest : List NetDev) (count : Nat)
    {devs : List NetDev} {s : Sys}, Steady devs s →
    Steady devs ((discoverLoop env rest count : SysProg ι Nat).run s).2
  | [], _, _, _, hs => hs
  | dev :: rest, count, devs, (s, h), hs => by
    unfold discoverLoop
    cases hw : dev.wiphy with
    | none => exact steady_discoverLoop i env rest count hs
    | some w =>
      cases hloc : s.wiphyPriv w with
      | none => simpa [hloc] using steady_discoverLoop i env rest count hs
      | some loc =>
        obtain ⟨hsafe, hset, hnet⟩ := hs
        have hdoes := does_probe ((env dev.id).toProbeEnv h) hsafe.ok hloc
        have hprobe : KeepsSettled [] i (tsfPtpProbe (env dev.id) loc) := keepsSettled_probe _ _
        have hstep : Steady devs ((tsfPtpProbe (env dev.id) loc : SysProg ι Int32).run (s, h)).2 := by
          refine ⟨?_, hprobe.run hset, ?_⟩
          · rw [refines_probe _ _ hset.listedAllocated]
            refine hdoes.safe ?_
            split
            · exact hsafe.sound.add
            · exact hsafe.sound
          · rw [refines_probe _ _ hset.listedAllocated, hdoes.netdevs]
            split <;> exact hnet
        simpa [hloc] using steady_discoverLoop i env rest _ hstep

omit [DecidableEq ι] hn in
/-- A module without cards is safe. -/
theorem safe_of_empty {s s' : Kernel} (hs : s.Safe) (hlist : s'.cardsList.ptrs = []) (hnet : s'.netdevs = s.netdevs) :
    s'.Safe where
  ok := ⟨by rw [hlist]; exact List.nodup_nil, fun c hc => by rw [hlist] at hc; cases hc⟩
  sound :=
    { ids := by
        show (s'.netdevs.map (·.id)).Nodup
        rw [hnet]
        exact hs.sound.ids
      held := fun w id h => by
        have hnone : s'.cardOf w = none := Kernel.cardOf_eq_none.mpr fun c hc => by rw [hlist] at hc; cases hc
        simp [Kernel.view, hnone] at h }

omit [DecidableEq ι] hn in
theorem run_removeCard_netdevs (c : CardPtr) (s : Sys) :
    ((removeCard readers c).run s).2.1.netdevs = s.1.netdevs := by
  obtain ⟨s, h⟩ := s
  simp [removeCard, listDel]

/-- The end of the module leaves no card. -/
theorem safe_exit (i : ι) (hsafe : s.Safe) (hset : Settled (s, h)) :
    ((RegistryCall.exit.prog readers).run (s, h)).2.1.Safe := by
  obtain ⟨H, P, ⟨-, hP⟩, hend⟩ := Promise.Outline.run (outline_exit (r := i) hn) hset
  refine safe_of_empty hsafe (hP _ hend).2 ?_
  have hdevs : Steady s.netdevs ((forM s.netdevs fun dev : NetDev => do
      if dev.up then
        tsfPtpNetdevEvent readers .unused .down dev
      tsfPtpNetdevEvent readers .unused .unregister dev).run (s, h)).2 := by
    refine Prog.run_forM_inv (Steady s.netdevs) (fun dev _ s' hs' => ?_) ⟨hsafe, hset, rfl⟩
    have hunreg : ∀ s'' : Sys, Steady s.netdevs s'' → _ := fun s'' hs'' =>
      steady_event hn i .unused .unregister dev hs'' (by simp)
    cases hup : dev.up with
    | false => simpa [hup] using hunreg s' hs'
    | true => simpa [hup] using hunreg _ (steady_event hn i .unused .down dev hs' (by simp))
  have hcards : ∀ (cards : List CardPtr) (s' : Sys),
      ((forM cards (removeCard readers)).run s').2.1.netdevs = s'.1.netdevs := fun cards s' =>
    Prog.run_forM_inv (fun s'' => s''.1.netdevs = s'.1.netdevs)
      (fun c _ s'' h => (run_removeCard_netdevs c s'').trans h) rfl
  simp only [RegistryCall.prog, removeCards, Prog.run_bind, run_lift, Prog.run_read, Prog.run_acquire,
    Prog.run_release]
  exact (hcards _ _).trans hdevs.netdevs

/-- **A call that the kernel makes keeps the registry safe.** -/
theorem safe_call (i : ι) (call : RegistryCall) (hlegal : call.Legal s) (hsafe : s.Safe) (hset : Settled (s, h)) :
    ((call.prog readers).run (s, h)).2.1.Safe := by
  -- the event after a change of the net_devices, as a step of the kernel
  have hevent : ∀ (s' : Kernel) (env : AllocEnv) (event : NetdevEvent) (dev : NetDev) (a : RtnlStep),
      s'.cardsList = s.cardsList →
      rtnlStep s a = some ((TsfSync.tsfPtpNetdevEvent (env.toProbeEnv h) event dev).run s').2 →
      ((tsfPtpNetdevEvent readers env event dev).run (s', h)).2.1.Safe := by
    intro s' env event dev a hlist hstep
    rw [refines_netdevEvent readers env event dev fun c hc => hset.listedAllocated c (hlist ▸ hc)]
    exact rtnlStep_safe hsafe hstep
  cases call with
  | registerNotifier env =>
    have hrun := (steady_replay hn i env ⟨hsafe, hset, rfl⟩).safe
    simpa only [RegistryCall.prog, Prog.run_bind, run_lift, Prog.run_read] using hrun
  | discover env =>
    have hrun := (steady_discoverLoop i env (initNetdevs s) 0 ⟨hsafe, hset, rfl⟩).safe
    simpa only [RegistryCall.prog, Prog.run_bind, run_lift, Prog.run_read, Prog.run_pure] using hrun
  | scan => simpa only [RegistryCall.prog, run_lift] using safe_scan hsafe
  | register env dev =>
    have hsafe' := hevent (s.listNetdevice dev) env .register dev (.register (env.toProbeEnv h) dev) rfl (if_pos hlegal)
    simpa [RegistryCall.prog] using hsafe'
  | up dev =>
    have hsafe' := hevent (s.setUp dev.id true) .unused .up dev (.up dev.id) rfl (by
      simp only [rtnlStep, hlegal.1, hlegal.2, devOpen, callNotifier, Prog.run_bind, Prog.run_modify, Prog.run_read,
        findNetdev_setUp hlegal.1]
      rfl)
    simpa [RegistryCall.prog] using hsafe'
  | down dev =>
    have hsafe' := hevent (s.setUp dev.id false) .unused .down dev (.down dev.id) rfl (by
      simp only [rtnlStep, hlegal.1, hlegal.2, devClose, callNotifier, Prog.run_bind, Prog.run_modify, Prog.run_read,
        findNetdev_setUp hlegal.1]
      rfl)
    simpa [RegistryCall.prog] using hsafe'
  | unregister dev =>
    have hsafe' := hevent (s.unlistNetdevice dev.id) .unused .unregister dev (.unregister dev.id) rfl (by
      simp only [rtnlStep, hlegal.1, hlegal.2]
      rfl)
    simpa [RegistryCall.prog] using hsafe'
  | exit => exact safe_exit hn i hsafe hset

/-- **Calls that the kernel makes one after the other keep the registry safe.** -/
theorem safe_calls (i : ι) : ∀ (calls : List RegistryCall) {s : Sys}, LegalCalls readers calls s → s.1.Safe →
    Settled s → ((forM calls (RegistryCall.prog readers)).run s).2.1.Safe
  | [], _, _, hsafe, _ => hsafe
  | call :: calls, s, ⟨hlegal, hrest⟩, hsafe, hset => by
    have hset' := (keepsSettled_registryCall (r := i) hn call).run hset
    rw [List.forM_cons, Prog.run_bind]
    exact safe_calls i calls hrest (safe_call hn i call hlegal hsafe hset) hset'

end Lifetime

end TsfSync
