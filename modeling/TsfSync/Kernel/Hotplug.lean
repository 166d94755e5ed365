import Mathlib.Algebra.Order.BigOperators.Group.List
import Mathlib.Algebra.Order.Ring.Nat
import TsfSync.Kernel.Coverage

/-!
# Cards follow their wiphys

A wiphy whose driver has `get_tsf` should have a card exactly while it has a net_device (`Kernel.FollowsWiphy`). The
replay to the new notifier makes that true (`followsWiphy_registerNotifier`) and all steps but one keep it; a
`NETDEV_UNREGISTER` keeps it if and only if a sibling that stays behind is in the initial namespace, or none stays,
because `tsf_ptp_try_hotplug_remove` looks for siblings in that namespace only (`followsWiphy_unregister_iff`). So over a
run the property holds in every state if and only if every `NETDEV_UNREGISTER` meets its condition (`followsWiphy_iff`).
-/

namespace TsfSync

open LockProg

/-- Allocation and `ptp_clock_register` succeed. -/
structure ProbeEnv.Succeeds (env : ProbeEnv) : Prop where
  kzalloc : ∀ l, (env.kzalloc l).isSome = true
  ptpClockRegister : env.ptpClockRegister = .ok ()

/-- The probes of a step succeed. -/
def RtnlStep.Succeeds : RtnlStep → Prop
  | .registerNotifier env | .discover env => ∀ id, (env id).Succeeds
  | .register env _ => env.Succeeds
  | .scan | .up _ | .down _ | .unregister _ => True

namespace Registry

variable {r : Registry} {dev : NetDev} {w : WiphyId}

/-- The wiphy has a card. -/
def HasCard (r : Registry) (w : WiphyId) : Prop := (r.vifs w).isSome = true

/-- The wiphy has a registered device. -/
def HasDevice (r : Registry) (w : WiphyId) : Prop := ∃ dev ∈ r.netdevs, dev.wiphy = some w

theorem hasDevice_congr {r r' : Registry} (h : r'.netdevs = r.netdevs) (w : WiphyId) :
    r'.HasDevice w ↔ r.HasDevice w := by
  rw [HasDevice, HasDevice, h]

/-! ## Which wiphys have a card after a change -/

/-- A change that neither makes nor drops a card. -/
theorem hasCard_change {w' : WiphyId} {f : Option (Option DevId) → Option (Option DevId)}
    (hf : ∀ vif, (f vif).isSome = vif.isSome) : (r.change w' f).HasCard w ↔ r.HasCard w := by
  unfold HasCard
  by_cases e : w = w'
  · subst e
    rw [change_self, hf]
  · rw [change_ne f e]

@[simp] theorem hasCard_capture : (r.capture dev).HasCard w ↔ r.HasCard w := by
  unfold capture
  split
  · exact Iff.rfl
  · exact hasCard_change fun vif => Option.isSome_map

@[simp] theorem hasCard_release : (r.release dev).HasCard w ↔ r.HasCard w := by
  unfold release
  split
  · exact Iff.rfl
  · exact hasCard_change fun vif => Option.isSome_map

theorem hasCard_add {w' : WiphyId} : (r.add w').HasCard w ↔ r.HasCard w ∨ w' = w := by
  unfold HasCard add
  by_cases e : w = w'
  · subst e
    simp
  · rw [change_ne _ e]
    simp [Ne.symm e]

/-- The card of a device's wiphy goes when no device of the wiphy is left in the initial namespace. -/
theorem hasCard_dropIfLast : (r.dropIfLast dev).HasCard w ↔
    r.HasCard w ∧ (dev.wiphy = some w → ∃ d ∈ r.netdevs, d.net = 0 ∧ d.wiphy = some w) := by
  unfold dropIfLast
  split
  · rename_i hnone
    simp [hnone]
  · rename_i w' hw'
    split
    · rename_i hany
      refine (and_iff_left fun hw => ?_).symm
      obtain rfl : w' = w := Option.some.inj (hw'.symm.trans hw)
      simpa [and_assoc] using hany
    · rename_i hany
      unfold HasCard
      by_cases e : w = w'
      · subst e
        rw [change_self]
        simpa [hw', and_assoc] using fun _ => hany
      · rw [change_ne _ e]
        refine (and_iff_left fun hw => ?_).symm
        exact absurd (Option.some.inj (hw.symm.trans hw')) e

/-! ## Which wiphys have a device after a change -/

theorem hasDevice_list : (r.list dev).HasDevice w ↔ r.HasDevice w ∨ dev.wiphy = some w := by
  simp [HasDevice, list, or_and_right, exists_or]

theorem hasDevice_unlist {id : DevId} : (r.unlist id).HasDevice w ↔ ∃ d ∈ r.netdevs, d.id ≠ id ∧ d.wiphy = some w := by
  simp [HasDevice, unlist, and_assoc]

theorem hasDevice_setUp {id : DevId} {up : Bool} : (r.setUp id up).HasDevice w ↔ r.HasDevice w := by
  unfold HasDevice setUp
  constructor
  · rintro ⟨d, hd, hw⟩
    obtain ⟨d₀, hd₀, rfl⟩ := List.mem_map.mp hd
    refine ⟨d₀, hd₀, ?_⟩
    split at hw
    · exact hw
    · exact hw
  · rintro ⟨d, hd, hw⟩
    refine ⟨_, List.mem_map_of_mem hd, ?_⟩
    split
    · exact hw
    · exact hw

end Registry

open Kernel

variable {s s' s'' : Kernel} {w : WiphyId}

namespace Kernel

/-- The driver of a wiphy has `get_tsf`. -/
def HasGetTsf (s : Kernel) (w : WiphyId) : Prop := ∃ loc, s.wiphyPriv w = some loc ∧ loc.hw.ops.getTsf = true

/-- **Clock registration follows the wiphy**: one whose driver has `get_tsf` has a card exactly while one of its
net_devices is registered. -/
def FollowsWiphy (s : Kernel) : Prop :=
  ∀ w, s.HasGetTsf w → ((∃ c ∈ s.cardsList.ptrs, (s.card c).hw.wiphy = w) ↔ ∃ dev ∈ s.netdevs, dev.wiphy = some w)

end Kernel

theorem hasCard_view : s.view.HasCard w ↔ ∃ c ∈ s.cardsList.ptrs, (s.card c).hw.wiphy = w := by
  rw [Registry.HasCard]
  cases hc : s.cardOf w with
  | none =>
    have hno := cardOf_eq_none.mp hc
    simpa [Kernel.view, hc, wiphyOf] using hno
  | some c =>
    have hex : ∃ c ∈ s.cardsList.ptrs, (s.card c).hw.wiphy = w := ⟨c, mem_of_cardOf hc, wiphyOf_of_cardOf hc⟩
    simpa [Kernel.view, hc] using hex

theorem followsWiphy_iff_view : s.FollowsWiphy ↔ ∀ w, s.HasGetTsf w → (s.view.HasCard w ↔ s.view.HasDevice w) :=
  forall₂_congr fun w _ => by rw [hasCard_view]; rfl

/-! ## Probing -/

/-- From `s` to `s'` the wiphys of some devices have got their cards, as far as their drivers have `get_tsf`. -/
structure Enrols (s s' : Kernel) (devs : List NetDev) : Prop where
  ok : s'.CardsOk
  priv : s'.wiphyPriv = s.wiphyPriv
  netdevs : s'.netdevs = s.netdevs
  cards : ∀ w, s.HasGetTsf w → (s'.view.HasCard w ↔ s.view.HasCard w ∨ ∃ dev ∈ devs, dev.wiphy = some w)

namespace Enrols

theorem refl (h : s.CardsOk) : Enrols s s [] := ⟨h, rfl, rfl, fun w _ => by simp⟩

theorem trans {xs ys : List NetDev} (h : Enrols s s' xs) (h' : Enrols s' s'' ys) : Enrols s s'' (xs ++ ys) where
  ok := h'.ok
  priv := h'.priv.trans h.priv
  netdevs := h'.netdevs.trans h.netdevs
  cards := fun w hw => by
    have hw' : s'.HasGetTsf w := by rwa [HasGetTsf, h.priv]
    rw [h'.cards w hw', h.cards w hw, or_assoc]
    simp [or_and_right, exists_or]

theorem hasDevice {devs : List NetDev} (h : Enrols s s' devs) (w : WiphyId) : s'.view.HasDevice w ↔ s.view.HasDevice w :=
  Registry.hasDevice_congr (show s'.view.netdevs = s.view.netdevs from h.netdevs) w

/-- A step of the module that makes and drops no card. -/
theorem of_does {r : Registry} (h : Does s s' r) (hn : r.netdevs = s.netdevs)
    (hc : ∀ w, r.HasCard w ↔ s.view.HasCard w) : Enrols s s' [] where
  ok := h.ok
  priv := h.priv
  netdevs := h.netdevs.trans hn
  cards := fun w _ => by
    rw [h.view, hc w]
    simp

/-- A probe that succeeds gives the wiphy of a device its card. -/
theorem of_probe {env : ProbeEnv} {dev : NetDev} (henv : env.Succeeds) (hw : dev.wiphy = some w)
    (h : Does s s' (if s.registers env w then s.view.add w else s.view)) : Enrols s s' [dev] where
  ok := h.ok
  priv := h.priv
  netdevs := by
    rw [h.netdevs]
    split <;> rfl
  cards := fun w' hget => by
    have hdev : (∃ d ∈ [dev], d.wiphy = some w') ↔ w = w' := by simp [hw]
    rw [h.view, hdev]
    cases hreg : s.registers env w with
    | true =>
      rw [if_pos rfl]
      exact Registry.hasCard_add
    | false =>
      rw [if_neg Bool.false_ne_true]
      refine (or_iff_left_of_imp fun e => ?_).symm
      subst e
      obtain ⟨loc, hloc, hops⟩ := hget
      have hcard : (s.cardOf w).isSome = true := by
        by_contra hnone
        have hyes : s.registers env w = true := by
          simp only [Bool.not_eq_true, Option.isSome_eq_false_iff] at hnone
          simp [registers, hnone, hloc, hops, henv.kzalloc, henv.ptpClockRegister, Except.isOk, Except.toBool]
        rw [hyes] at hreg
        cases hreg
      simpa [Registry.HasCard, Kernel.view] using hcard

/-- `NETDEV_REGISTER` of a device. -/
theorem eventRegister {env : ProbeEnv} (henv : env.Succeeds) (dev : NetDev) (h : s.CardsOk) :
    Enrols s ((tsfPtpNetdevEvent env .register dev).run s).2 [dev] := by
  rw [netdevEvent_eq]
  cases hw : dev.wiphy with
  | none =>
    refine ⟨h, rfl, rfl, fun w _ => ?_⟩
    simp [hw]
  | some w => exact of_probe henv hw (does_hotplugProbe env w h)

/-- The events replayed for one device. -/
theorem replay {env : DevId → ProbeEnv} (henv : ∀ id, (env id).Succeeds) (dev : NetDev) (h : s.CardsOk) :
    Enrols s ((replayNetdev env dev).run s).2 [dev] := by
  have h₁ := eventRegister (henv dev.id) dev h
  cases hup : dev.up with
  | false => simpa [replayNetdev, hup] using h₁
  | true =>
    have h₂ : Enrols _ _ [] := of_does (does_eventUp .unused dev h₁.ok) Registry.capture_netdevs
      fun w => Registry.hasCard_capture
    have h₃ := h₁.trans h₂
    rw [List.append_nil] at h₃
    simpa [replayNetdev, hup] using h₃

/-- `register_netdevice_notifier`. -/
theorem registerNotifier {env : DevId → ProbeEnv} (henv : ∀ id, (env id).Succeeds) (h : s.CardsOk) :
    Enrols s ((registerNetdeviceNotifier env).run s).2 s.netdevs := by
  have key : ∀ (devs : List NetDev) {t : Kernel}, t.CardsOk →
      Enrols t ((forM devs (replayNetdev env) : KProg Unit).run t).2 devs := by
    intro devs
    induction devs with
    | nil => exact fun ht => refl ht
    | cons dev devs ih =>
      intro t ht
      have h₁ := replay henv dev ht
      simpa using h₁.trans (ih h₁.ok)
  simpa [registerNetdeviceNotifier] using key s.netdevs h

/-- The walk of `tsf_ptp_discover_from_netdevs`. -/
theorem discoverLoop {env : DevId → ProbeEnv} (henv : ∀ id, (env id).Succeeds) (devs : List NetDev) (count : Nat)
    {s : Kernel} (h : s.CardsOk) : Enrols s ((TsfSync.discoverLoop env devs count).run s).2 devs := by
  induction devs generalizing count s with
  | nil => exact refl h
  | cons dev devs ih =>
    have skip : (∀ w, s.HasGetTsf w → ¬dev.wiphy = some w) →
        Enrols s ((TsfSync.discoverLoop env devs count).run s).2 (dev :: devs) := fun hno => by
      have hrest := ih count h
      refine ⟨hrest.ok, hrest.priv, hrest.netdevs, fun w hw => ?_⟩
      rw [hrest.cards w hw]
      simp [hno w hw]
    unfold TsfSync.discoverLoop
    cases hw : dev.wiphy with
    | none => exact skip fun w _ he => by rw [hw] at he; cases he
    | some w =>
      cases hloc : s.wiphyPriv w with
      | none =>
        have hskip := skip fun w' hget he => by
          obtain ⟨loc, hloc', -⟩ := hget
          obtain rfl : w = w' := Option.some.inj (hw.symm.trans he)
          rw [hloc] at hloc'
          cases hloc'
        simpa [hloc] using hskip
      | some loc =>
        have h₁ := of_probe (henv dev.id) hw (does_probe (env dev.id) h hloc)
        cases hr : ((tsfPtpProbe (env dev.id) loc).run s).1 with
        | ok u => simpa [hloc, hr] using h₁.trans (ih (count + 1) h₁.ok)
        | error e => simpa [hloc, hr] using h₁.trans (ih count h₁.ok)

/-- `tsf_ptp_discover_from_netdevs`. -/
theorem discover {env : DevId → ProbeEnv} (henv : ∀ id, (env id).Succeeds) (h : s.CardsOk) :
    Enrols s ((tsfPtpDiscoverFromNetdevs env).run s).2 (initNetdevs s) := by
  have hloop := discoverLoop henv (initNetdevs s) 0 h
  rw [tsfPtpDiscoverFromNetdevs, Prog.run_bind, Prog.run_read]
  exact hloop

/-- Cards for wiphys that have devices keep the property. -/
theorem followsWiphy {devs : List NetDev} (h : Enrols s s' devs) (hsub : ∀ dev ∈ devs, dev ∈ s.netdevs)
    (hf : s.FollowsWiphy) : s'.FollowsWiphy := by
  rw [followsWiphy_iff_view] at hf ⊢
  intro w hw
  have hw' : s.HasGetTsf w := by rwa [HasGetTsf, h.priv] at hw
  rw [h.cards w hw', h.hasDevice w, hf w hw']
  exact or_iff_left_of_imp fun ⟨dev, hd, hdw⟩ => ⟨dev, hsub dev hd, hdw⟩

end Enrols

/-- After the replay to the new notifier every wiphy with a device and `get_tsf` has its card. -/
theorem followsWiphy_registerNotifier {netdevs : List NetDev} {priv : (w : WiphyId) → Option (Local w)}
    {env : DevId → ProbeEnv} (hids : (netdevs.map (·.id)).Nodup) (henv : ∀ id, (env id).Succeeds) :
    ((registerNetdeviceNotifier env).run (Kernel.load netdevs priv)).2.FollowsWiphy := by
  have h := Enrols.registerNotifier henv (safe_load hids priv).ok
  rw [followsWiphy_iff_view]
  intro w hw
  have hw' : (Kernel.load netdevs priv).HasGetTsf w := by rwa [HasGetTsf, h.priv] at hw
  have hnone : ¬(Kernel.load netdevs priv).view.HasCard w := fun hc => by cases hc
  rw [h.cards w hw', or_iff_right hnone, h.hasDevice w]
  rfl

/-! ## Steps -/

/-- The condition on `NETDEV_UNREGISTER`: if a wiphy with `get_tsf` keeps a device, it keeps one in the initial
namespace. -/
def UnregisterOk (s : Kernel) : RtnlStep → Prop
  | .unregister id => ∀ dev ∈ s.netdevs, dev.id = id → ∀ w, dev.wiphy = some w → s.HasGetTsf w →
      (∃ d ∈ s.netdevs, d.id ≠ id ∧ d.wiphy = some w) → ∃ d ∈ s.netdevs, d.id ≠ id ∧ d.net = 0 ∧ d.wiphy = some w
  | _ => True

/-- A change of an interface that neither makes nor drops a card. -/
theorem followsWiphy_of_does {r : Registry} (hf : s.FollowsWiphy) (hd : Does s s' r)
    (hcard : ∀ w, r.HasCard w ↔ s.view.HasCard w) (hdevice : ∀ w, r.HasDevice w ↔ s.view.HasDevice w) :
    s'.FollowsWiphy := by
  rw [followsWiphy_iff_view] at hf ⊢
  intro w hw
  rw [hd.view, hcard, hdevice]
  exact hf w (by rwa [HasGetTsf, hd.priv] at hw)

/-- A device that is registered gets its wiphy the card it should have. -/
theorem followsWiphy_register {env : ProbeEnv} (henv : env.Succeeds) {dev : NetDev} (hs : s.CardsOk)
    (hf : s.FollowsWiphy) : ((registerNetdevice env dev).run s).2.FollowsWiphy := by
  have h := Enrols.eventRegister (s := s.listNetdevice dev) henv dev ⟨hs.wiphys, hs.tracked⟩
  have hrun : (registerNetdevice env dev).run s = (tsfPtpNetdevEvent env .register dev).run (s.listNetdevice dev) := by
    simp [registerNetdevice]
  rw [followsWiphy_iff_view] at hf
  rw [hrun, followsWiphy_iff_view]
  intro w hw
  have hw' : s.HasGetTsf w := by rwa [HasGetTsf, h.priv] at hw
  have hlist : (s.listNetdevice dev).view.HasDevice w ↔ s.view.HasDevice w ∨ dev.wiphy = some w :=
    Registry.hasDevice_list (r := s.view)
  have hcard : (s.listNetdevice dev).view.HasCard w ↔ s.view.HasCard w := Iff.rfl
  rw [h.cards w hw', h.hasDevice w, hcard, hf w hw', hlist]
  simp

/-- After `NETDEV_UNREGISTER`, what is left of a wiphy, and whether it has kept its card. -/
theorem view_unregister (dev : NetDev) (hs : s.Safe) (hf : s.FollowsWiphy) (hw : s.HasGetTsf w) :
    (((unregisterNetdevice dev).run s).2.view.HasCard w ↔ s.view.HasDevice w ∧ (dev.wiphy = some w →
      ∃ d ∈ s.netdevs, d.id ≠ dev.id ∧ d.net = 0 ∧ d.wiphy = some w)) ∧
    (((unregisterNetdevice dev).run s).2.view.HasDevice w ↔ ∃ d ∈ s.netdevs, d.id ≠ dev.id ∧ d.wiphy = some w) := by
  have hcard : (s.view.unlist dev.id).HasCard w ↔ s.view.HasCard w := Iff.rfl
  rw [(does_unregisterNetdevice dev hs.ok).view, Registry.hasCard_dropIfLast, Registry.hasCard_release, hcard,
    followsWiphy_iff_view.mp hf w hw, Registry.hasDevice_congr Registry.dropIfLast_netdevs,
    Registry.hasDevice_congr Registry.release_netdevs, Registry.hasDevice_unlist, Registry.release_netdevs]
  refine ⟨and_congr_right fun _ => imp_congr_right fun _ => ?_, Iff.rfl⟩
  simp [Registry.unlist, Kernel.view, and_assoc]

/-- `NETDEV_UNREGISTER` keeps the property exactly under its condition. -/
theorem followsWiphy_unregister_iff {dev : NetDev} (hs : s.Safe) (hf : s.FollowsWiphy) (hm : dev ∈ s.netdevs) :
    ((unregisterNetdevice dev).run s).2.FollowsWiphy ↔ UnregisterOk s (.unregister dev.id) := by
  have hpriv := (does_unregisterNetdevice dev hs.ok).priv
  have hself : ∀ {d : NetDev}, d ∈ s.netdevs → d.id = dev.id → d = dev := fun hd he => hs.sound.eq_of_id hd hm he
  rw [followsWiphy_iff_view]
  constructor
  · intro hall d hdm he w hw hget hleft
    obtain rfl := hself hdm he
    obtain ⟨hcard, hdev⟩ := view_unregister d hs hf hget
    have hkept := (hall w (by rwa [HasGetTsf, hpriv])).mpr (hdev.mpr hleft)
    exact (hcard.mp hkept).2 hw
  · intro hok w hw
    have hget : s.HasGetTsf w := by rwa [HasGetTsf, hpriv] at hw
    obtain ⟨hcard, hdev⟩ := view_unregister dev hs hf hget
    rw [hcard, hdev]
    constructor
    · rintro ⟨⟨d, hdm, hdw⟩, hinit⟩
      by_cases hw' : dev.wiphy = some w
      · obtain ⟨d', hd', hne, -, hdw'⟩ := hinit hw'
        exact ⟨d', hd', hne, hdw'⟩
      · exact ⟨d, hdm, fun he => hw' (hself hdm he ▸ hdw), hdw⟩
    · rintro ⟨d, hdm, hne, hdw⟩
      exact ⟨⟨d, hdm, hdw⟩, fun hw' => hok dev hm rfl w hw' hget ⟨d, hdm, hne, hdw⟩⟩

/-- After one step. -/
theorem followsWiphy_step_iff {a : RtnlStep} (hs : s.Safe) (hf : s.FollowsWiphy) (ha : a.Succeeds)
    (hstep : rtnlStep s a = some s') : s'.FollowsWiphy ↔ UnregisterOk s a := by
  cases a with
  | registerNotifier env =>
    cases hstep
    exact iff_true_intro ((Enrols.registerNotifier ha hs.ok).followsWiphy (fun _ hd => hd) hf)
  | discover env =>
    cases hstep
    exact iff_true_intro ((Enrols.discover ha hs.ok).followsWiphy (fun _ hd => (List.mem_filter.mp hd).1) hf)
  | scan =>
    cases hstep
    have hcard : ∀ (devs : List NetDev) (r : Registry) (w : WiphyId),
        (devs.foldl Registry.scanDev r).HasCard w ↔ r.HasCard w := by
      intro devs r w
      unfold Registry.HasCard
      rw [Registry.vifs_scan, Option.isSome_map]
    exact iff_true_intro (followsWiphy_of_does hf (does_scan hs.ok) (fun w => hcard _ _ w)
      (Registry.hasDevice_congr (Registry.scan_netdevs _ _)))
  | register env dev =>
    obtain ⟨-, -, rfl⟩ := rtnlStep_register hstep
    exact iff_true_intro (followsWiphy_register ha hs.ok hf)
  | up id =>
    obtain ⟨dev, hfind, -, rfl⟩ := rtnlStep_up hstep
    refine iff_true_intro (followsWiphy_of_does hf (does_devOpen hs.ok hfind) (fun w => Registry.hasCard_capture)
      fun w => ?_)
    rw [Registry.hasDevice_congr Registry.capture_netdevs, Registry.hasDevice_setUp]
  | down id =>
    obtain ⟨dev, hfind, -, rfl⟩ := rtnlStep_down hstep
    refine iff_true_intro (followsWiphy_of_does hf (does_devClose hs.ok hfind) (fun w => Registry.hasCard_release)
      fun w => ?_)
    rw [Registry.hasDevice_congr Registry.release_netdevs, Registry.hasDevice_setUp]
  | unregister id =>
    obtain ⟨dev, hfind, -, rfl⟩ := rtnlStep_unregister hstep
    obtain ⟨hm, rfl⟩ := findNetdev_mem hfind
    exact followsWiphy_unregister_iff hs hf hm

/-- **Clock registration follows the wiphy** in every state of a run that begins when the notifier has been registered,
if and only if every `NETDEV_UNREGISTER` meets its condition. -/
theorem followsWiphy_iff (netdevs : List NetDev) (hids : (netdevs.map (·.id)).Nodup)
    (priv : (w : WiphyId) → Option (Local w)) {env : DevId → ProbeEnv} (henv : ∀ id, (env id).Succeeds)
    (steps : List RtnlStep) (hsteps : ∀ a ∈ steps, a.Succeeds) :
    EveryState Kernel.FollowsWiphy steps ((registerNetdeviceNotifier env).run (Kernel.load netdevs priv)).2 ↔
      EveryStep UnregisterOk steps ((registerNetdeviceNotifier env).run (Kernel.load netdevs priv)).2 :=
  everyState_iff_everyStep RtnlStep.Succeeds (fun hs hf ha h => followsWiphy_step_iff hs hf ha h) steps hsteps
    (safe_registerNotifier env (safe_load hids priv)) (followsWiphy_registerNotifier hids henv)

/-- Probes that find memory at an address beyond those of all cards. -/
def ProbeEnv.fresh : ProbeEnv where
  kzalloc := fun l =>
    let addr := (l.ptrs.map fun | .card a => a + 1 | .head => 0).sum
    if h : CardPtr.card addr ∉ l.ptrs then some ⟨.card addr, h, by simp⟩ else none
  ptpClockRegister := .ok ()

theorem ProbeEnv.fresh_succeeds : ProbeEnv.fresh.Succeeds := by
  refine ⟨fun l => ?_, rfl⟩
  have hnew : CardPtr.card (l.ptrs.map fun | .card a => a + 1 | .head => 0).sum ∉ l.ptrs := fun hmem => by
    have hle := List.single_le_sum (fun _ _ => Nat.zero_le _) _ (List.mem_map_of_mem
      (f := fun | CardPtr.card a => a + 1 | .head => 0) hmem)
    simp only at hle
    omega
  simp [fresh, hnew]

/-- A wiphy with a device in the initial namespace and one in another: the latter leaves, then the former. -/
theorem followsWiphy_iff_run : EveryState Kernel.FollowsWiphy [.discover fun _ => .fresh, .scan, .unregister 1,
      .unregister 0] ((registerNetdeviceNotifier fun _ => .fresh).run
        (.load [.wlan 0 0 7 false, .wlan 1 5 7 false] fun w => some (.both w))).2 := by
  refine (followsWiphy_iff [.wlan 0 0 7 false, .wlan 1 5 7 false] (by decide) (fun w => some (.both w))
    (fun _ => ProbeEnv.fresh_succeeds) [.discover fun _ => .fresh, .scan, .unregister 1, .unregister 0] ?_).mpr ?_
  · simp [RtnlStep.Succeeds, ProbeEnv.fresh_succeeds]
  · refine fun s₁ h₁ => ⟨trivial, fun s₂ h₂ => ⟨trivial, fun s₃ h₃ => ⟨?_, fun s₄ h₄ => ⟨?_, trivial⟩⟩⟩⟩
    · cases h₁
      cases h₂
      rintro dev - - w - - ⟨d, hd, hne, hdw⟩
      have hmem : d ∈ [NetDev.wlan 0 0 7 false, .wlan 1 5 7 false] := hd
      refine ⟨d, hd, hne, ?_, hdw⟩
      rcases List.mem_pair.mp hmem with rfl | rfl
      · rfl
      · exact absurd rfl hne
    · cases h₁
      cases h₂
      cases h₃
      rintro dev - - w - - ⟨d, hd, hne, -⟩
      have hmem : d ∈ [NetDev.wlan 0 0 7 false] := hd
      exact absurd (congrArg NetDev.id (List.mem_singleton.mp hmem)) hne

/-- Two devices of one wiphy in a namespace of their own, and one of them leaves: the card is gone. -/
theorem followsWiphy_counterexample : ¬EveryState Kernel.FollowsWiphy [.unregister 0]
    ((registerNetdeviceNotifier fun _ => .fresh).run
      (.load [.wlan 0 5 7 false, .wlan 1 5 7 false] fun w => some (.both w))).2 := by
  rintro ⟨-, hall⟩
  have hcard := (hall _ rfl 7 ⟨.both 7, rfl, rfl⟩).mpr ⟨.wlan 1 5 7 false, List.mem_cons_self, rfl⟩
  obtain ⟨c, hc, -⟩ := hcard
  cases hc

end TsfSync
