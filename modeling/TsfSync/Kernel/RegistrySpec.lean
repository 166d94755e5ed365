import Mathlib.Data.List.Find
import Mathlib.Data.List.Nodup
import TsfSync.Kernel.Netdev
import TsfSync.Kernel.Spec
import TsfSync.Kernel.VifModel

/-!
# The notifier refines the registry

`Kernel.view` is the registry that a state of the module stands for. Every function of the notifier and of the module's
initialisation does to the view what the model says (`does_captureVif`, `does_releaseVif`, `does_probe`,
`does_hotplugRemove`, …) and keeps `CardsOk`: no wiphy has two cards, and every card is one of a wiphy with `get_tsf`.
From these, step by step (`rtnlStep_safe`) and over every run (`rtnlSteps_safe`), the card registry is safe.
-/

namespace TsfSync

open LockProg Function

namespace Kernel

variable {s s' : Kernel} {c : CardPtr} {w : WiphyId}

/-- The wiphy of a card. -/
def wiphyOf (s : Kernel) (c : CardPtr) : WiphyId := (s.card c).hw.wiphy

/-- The card of a wiphy. -/
def cardOf (s : Kernel) (w : WiphyId) : Option CardPtr := s.cardsList.ptrs.find? fun c => s.wiphyOf c == w

/-- The registry that a state stands for. -/
def view (s : Kernel) : Registry := ⟨s.netdevs, fun w => (s.cardOf w).map fun c => (s.card c).vif⟩

/-- The hardware is that of a known wiphy whose driver has `get_tsf`. -/
def Tracks (priv : (w : WiphyId) → Option (Local w)) (hw : Hw) : Prop :=
  ∃ w loc, hw.wiphy = w ∧ priv w = some loc ∧ hw.ops = loc.hw.ops ∧ loc.hw.ops.getTsf = true

/-- No wiphy has two cards, and every card is one of a known wiphy whose driver has `get_tsf`. -/
structure CardsOk (s : Kernel) : Prop where
  wiphys : (s.cardsList.ptrs.map s.wiphyOf).Nodup
  tracked : ∀ c ∈ s.cardsList.ptrs, Tracks s.wiphyPriv (s.card c).hw

theorem mem_of_cardOf (h : s.cardOf w = some c) : c ∈ s.cardsList.ptrs := List.mem_of_find?_eq_some h

theorem wiphyOf_of_cardOf (h : s.cardOf w = some c) : s.wiphyOf c = w := by
  simpa using List.find?_some h

theorem cardOf_eq_none : s.cardOf w = none ↔ ∀ c ∈ s.cardsList.ptrs, s.wiphyOf c ≠ w := by
  simp [cardOf, List.find?_eq_none]

/-- A listed card is the card of its wiphy. -/
theorem CardsOk.cardOf_self (h : s.CardsOk) (hc : c ∈ s.cardsList.ptrs) : s.cardOf (s.wiphyOf c) = some c := by
  cases hf : s.cardOf (s.wiphyOf c) with
  | none => exact absurd rfl (cardOf_eq_none.mp hf c hc)
  | some d => rw [List.inj_on_of_nodup_map h.wiphys (mem_of_cardOf hf) hc (wiphyOf_of_cardOf hf)]

/-! ## A change of the VIF -/

/-- Set the VIF of a card. -/
def setVif (s : Kernel) (c : CardPtr) (vif : Option DevId) : Kernel := s.setCard c fun k => { k with vif := vif }

theorem setVif_hw (vif : Option DevId) (d : CardPtr) : ((s.setVif c vif).card d).hw = (s.card d).hw := by
  by_cases h : d = c
  · subst h; simp [setVif]
  · rw [setVif, setCard_ne _ _ h]

@[simp] theorem setVif_wiphyOf (vif : Option DevId) : (s.setVif c vif).wiphyOf = s.wiphyOf :=
  funext fun d => congrArg Hw.wiphy (setVif_hw vif d)

@[simp] theorem setVif_cardOf (vif : Option DevId) : (s.setVif c vif).cardOf = s.cardOf := by
  funext w
  simp only [cardOf, setVif_wiphyOf]
  rfl

theorem CardsOk.setVif (h : s.CardsOk) (vif : Option DevId) : (s.setVif c vif).CardsOk where
  wiphys := by rw [setVif_wiphyOf]; exact h.wiphys
  tracked := fun d hd => by rw [setVif_hw]; exact h.tracked d hd

/-- Setting the VIF of the card of a wiphy changes what the registry knows of the wiphy. -/
theorem view_setVif (h : s.cardOf w = some c) (vif : Option DevId) :
    (s.setVif c vif).view = s.view.change w fun _ => some vif := by
  refine congrArg (Registry.mk s.netdevs) (funext fun w' => ?_)
  simp only [setVif_cardOf]
  by_cases e : w' = w
  · subst e; simp [h, Kernel.setVif]
  · rw [Function.update_of_ne e]
    cases hw : s.cardOf w' with
    | none => simp [view, hw]
    | some d =>
      have hd : d ≠ c := fun e' => e (by rw [← wiphyOf_of_cardOf hw, ← wiphyOf_of_cardOf h, e'])
      simp [view, hw, Kernel.setVif, setCard_ne _ _ hd]

/-- The state after `captureVif`. -/
def captured (s : Kernel) (w : WiphyId) (id : DevId) : Kernel :=
  match s.cardOf w with
  | none => s
  | some c => if (s.card c).vif.isNone then s.setVif c (some id) else s

/-- The state after `releaseVif`. -/
def released (s : Kernel) (w : WiphyId) (id : DevId) : Kernel :=
  match s.cardOf w with
  | none => s
  | some c => if (s.card c).vif == some id then s.setVif c none else s

end Kernel

open Kernel

variable {s s' : Kernel} {c : CardPtr} {w : WiphyId} {dev : NetDev}

@[simp] theorem run_findCard : (findCardByWiphyLocked w).run s = (s.cardOf w, s) := rfl

theorem run_captureVif : (captureVif w dev).run s = ((), s.captured w dev.id) := by
  unfold captureVif captured
  cases h : s.cardOf w with
  | none => simp [h]
  | some c => cases hv : (s.card c).vif <;> simp [h, hv, Kernel.setVif]

theorem run_releaseVif : (releaseVif w dev).run s = ((), s.released w dev.id) := by
  unfold releaseVif released
  cases h : s.cardOf w with
  | none => simp [h]
  | some c =>
    by_cases hv : (s.card c).vif = some dev.id
    · simp [h, hv, Kernel.setVif]
    · simp [h, hv]

/-! ## What a function of the module does to the registry -/

/-- A step of the module from `s` to `s'` that turns the registry into `r`. -/
structure Does (s s' : Kernel) (r : Registry) : Prop where
  ok : s'.CardsOk
  view : s'.view = r
  priv : s'.wiphyPriv = s.wiphyPriv

theorem Does.refl (h : s.CardsOk) : Does s s s.view := ⟨h, rfl, rfl⟩

theorem Registry.change_eq_self {r : Registry} {f : Option (Option DevId) → Option (Option DevId)}
    (h : f (r.vifs w) = r.vifs w) : r.change w f = r := by
  cases r
  exact congrArg (Registry.mk _) (by rw [h]; exact update_eq_self _ _)

/-- A VIF is set if the wiphy has a card whose VIF meets a condition: what the model then does with what it holds. -/
theorem does_setVifIf (h : s.CardsOk) (cond : Option DevId → Bool) (vif : Option DevId)
    {f : Option (Option DevId) → Option (Option DevId)} (hnone : f none = none)
    (hyes : ∀ held, cond held = true → f (some held) = some vif)
    (hno : ∀ held, cond held = false → f (some held) = some held) :
    Does s (match s.cardOf w with
      | none => s
      | some c => if cond (s.card c).vif then s.setVif c vif else s) (s.view.change w f) := by
  cases hc : s.cardOf w with
  | none =>
    have hv : s.view.vifs w = none := by simp [Kernel.view, hc]
    rw [Registry.change_eq_self (by rw [hv, hnone])]
    exact Does.refl h
  | some c =>
    have hv : s.view.vifs w = some (s.card c).vif := by simp [Kernel.view, hc]
    dsimp only
    cases hcond : cond (s.card c).vif with
    | true =>
      rw [if_pos rfl]
      exact ⟨h.setVif _, by rw [view_setVif hc]; simp [Registry.change, hv, hyes _ hcond], rfl⟩
    | false =>
      rw [if_neg Bool.false_ne_true, Registry.change_eq_self (by rw [hv, hno _ hcond])]
      exact Does.refl h

/-- `NETDEV_UP` captures. -/
theorem does_captureVif (h : s.CardsOk) (hw : dev.wiphy = some w) :
    Does s ((captureVif w dev).run s).2 (s.view.capture dev) := by
  rw [run_captureVif]
  simp only [Registry.capture, hw]
  refine does_setVifIf h Option.isNone _ rfl (fun held hh => ?_) fun held hh => ?_
  · rw [Option.isNone_iff_eq_none.mp hh]; rfl
  · obtain ⟨id, rfl⟩ := Option.isSome_iff_exists.mp (by simpa using hh)
    rfl

/-- `NETDEV_DOWN` and the first half of `NETDEV_UNREGISTER` release. -/
theorem does_releaseVif (h : s.CardsOk) (hw : dev.wiphy = some w) :
    Does s ((releaseVif w dev).run s).2 (s.view.release dev) := by
  rw [run_releaseVif]
  simp only [Registry.release, hw]
  refine does_setVifIf h (· == some dev.id) _ rfl (fun held hh => ?_) fun held hh => ?_
  · simp [beq_iff_eq.mp hh]
  · have hne : held ≠ some dev.id := by simpa using hh
    simp [hne]

/-- Either leaves the state as it is or sets the VIF of one card. -/
theorem run_vifCallback {p : KProg Unit} (hp : p = captureVif w dev ∨ p = releaseVif w dev) :
    (p.run s).2 = s ∨ ∃ c vif, (p.run s).2 = s.setVif c vif := by
  rcases hp with rfl | rfl <;> [rw [run_captureVif, captured]; rw [run_releaseVif, released]]
  all_goals
    split
    · exact Or.inl rfl
    · split
      · exact Or.inr ⟨_, _, rfl⟩
      · exact Or.inl rfl

/-! ## Registration and removal -/

namespace Kernel

/-- The conditions under which a probe for a wiphy adds a card. -/
def registers (env : ProbeEnv) (s : Kernel) (w : WiphyId) : Bool :=
  (s.cardOf w).isNone && (s.wiphyPriv w).any (·.hw.ops.getTsf) && (env.kzalloc s.cardsList).isSome &&
    env.ptpClockRegister.isOk

/-- The state with a new card at the end of the list. -/
def addCard (s : Kernel) (c : CardPtr) (loc : Local w) : Kernel :=
  { s.setCard c fun _ => Card.new loc with cardsList := s.cardsList.addTail c }

/-- The state without a card. -/
def delCard (s : Kernel) (c : CardPtr) : Kernel := { s with cardsList := s.cardsList.del c }

/-- Memory that is no card of the list can hold anything. -/
theorem does_setCard (h : s.CardsOk) (hc : c ∉ s.cardsList.ptrs) (f : Card → Card) : Does s (s.setCard c f) s.view := by
  have hcard : ∀ d ∈ s.cardsList.ptrs, (s.setCard c f).card d = s.card d := fun d hd =>
    setCard_ne _ _ fun e => hc (e ▸ hd)
  have hof : (s.setCard c f).cardOf = s.cardOf := funext fun w =>
    List.find?_congr fun d hd => by rw [wiphyOf, hcard d hd]; rfl
  refine ⟨⟨?_, fun d hd => ?_⟩, ?_, rfl⟩
  · rw [List.map_congr_left fun d hd => by rw [wiphyOf, hcard d hd]]
    exact h.wiphys
  · rw [hcard d hd]
    exact h.tracked d hd
  · refine congrArg (Registry.mk s.netdevs) (funext fun w => ?_)
    rw [hof]
    cases hd : s.cardOf w with
    | none => rfl
    | some d => simp [hcard d (mem_of_cardOf hd)]

/-- A new card is added to the registry. -/
theorem does_addCard {loc : Local w} (h : s.CardsOk) (hc : c ∉ s.cardsList.ptrs ∧ c ≠ .head)
    (hloc : s.wiphyPriv w = some loc) (hget : loc.hw.ops.getTsf = true) (hnone : s.cardOf w = none) :
    Does s (s.addCard c loc) (s.view.add w) := by
  have hptrs : (s.addCard c loc).cardsList.ptrs = s.cardsList.ptrs ++ [c] := CardsList.addTail_ptrs _ hc
  have hnew : (s.addCard c loc).card c = Card.new loc := setCard_self s c fun _ => Card.new loc
  have hold : ∀ d ∈ s.cardsList.ptrs, (s.addCard c loc).card d = s.card d := fun d hd =>
    s.setCard_ne (fun _ => Card.new loc) fun e => hc.1 (e ▸ hd)
  have hw : (s.addCard c loc).wiphyOf c = w := by rw [wiphyOf, hnew]; exact loc.back
  have hwo : ∀ d ∈ s.cardsList.ptrs, (s.addCard c loc).wiphyOf d = s.wiphyOf d := fun d hd => by
    rw [wiphyOf, hold d hd]; rfl
  refine ⟨⟨?_, fun d hd => ?_⟩, ?_, rfl⟩
  · rw [hptrs, List.map_append, List.map_congr_left hwo]
    refine h.wiphys.append (List.nodup_singleton _) fun w' hw' hs => ?_
    obtain ⟨d, hd, rfl⟩ := List.mem_map.mp hw'
    exact cardOf_eq_none.mp hnone d hd (by simpa [hw] using hs)
  · rw [hptrs, List.mem_append, List.mem_singleton] at hd
    rcases hd with hd | rfl
    · rw [hold d hd]; exact h.tracked d hd
    · rw [hnew]; exact ⟨w, loc, loc.back, hloc, rfl, hget⟩
  · have hof : ∀ w', (s.addCard c loc).cardOf w' = (s.cardOf w').or (if w = w' then some c else none) := fun w' => by
      rw [cardOf, hptrs, List.find?_append, List.find?_congr fun d hd => by rw [hwo d hd]]
      congr 1
      by_cases e : w = w' <;> simp [hw, e]
    refine congrArg (Registry.mk s.netdevs) (funext fun w' => ?_)
    rw [hof w']
    by_cases e : w' = w
    · subst e; simp [hnone, hnew, Card.new]
    · rw [update_of_ne e, if_neg (Ne.symm e), Option.or_none]
      cases hd : s.cardOf w' with
      | none => simp [view, hd]
      | some d => simp [view, hd, hold d (mem_of_cardOf hd)]

/-- A card that is removed takes its wiphy out of the registry. -/
theorem does_delCard (h : s.CardsOk) (hc : s.cardOf w = some c) :
    Does s (s.delCard c) (s.view.change w fun _ => none) := by
  have hw := wiphyOf_of_cardOf hc
  have hmem : ∀ d, d ∈ (s.delCard c).cardsList.ptrs ↔ d ≠ c ∧ d ∈ s.cardsList.ptrs := fun d =>
    s.cardsList.nodup.mem_erase_iff
  have hok : (s.delCard c).CardsOk :=
    ⟨h.wiphys.sublist (List.erase_sublist.map _), fun d hd => h.tracked d ((hmem d).mp hd).2⟩
  refine ⟨hok, congrArg (Registry.mk s.netdevs) (funext fun w' => ?_), rfl⟩
  by_cases e : w' = w
  · subst e
    have hnone : (s.delCard c).cardOf w' = none := cardOf_eq_none.mpr fun d hd e => by
      obtain ⟨hne, hd⟩ := (hmem d).mp hd
      exact hne (List.inj_on_of_nodup_map h.wiphys hd (mem_of_cardOf hc) (e.trans hw.symm))
    simp [hnone]
  · rw [update_of_ne e]
    cases hd : s.cardOf w' with
    | none =>
      have hnone : (s.delCard c).cardOf w' = none := cardOf_eq_none.mpr fun d hd' =>
        cardOf_eq_none.mp hd d ((hmem d).mp hd').2
      simp [view, hd, hnone]
    | some d =>
      have hne : d ≠ c := fun e' => e (by rw [← wiphyOf_of_cardOf hd, e', hw])
      have hself := hok.cardOf_self ((hmem d).mpr ⟨hne, mem_of_cardOf hd⟩)
      have hwd : (s.delCard c).wiphyOf d = w' := wiphyOf_of_cardOf (s := s) hd
      rw [hwd] at hself
      simp only [view, hd, hself]
      rfl

end Kernel

theorem Does.trans {s₁ s₂ s₃ : Kernel} {r₂ r₃ : Registry} (h : Does s₁ s₂ r₂) (h' : s₂.CardsOk → Does s₂ s₃ r₃) :
    Does s₁ s₃ r₃ :=
  ⟨(h' h.ok).ok, (h' h.ok).view, (h' h.ok).priv.trans h.priv⟩

/-- A probe adds a card where the conditions hold, and only there. -/
theorem does_probe (env : ProbeEnv) {loc : Local w} (h : s.CardsOk) (hloc : s.wiphyPriv w = some loc) :
    Does s ((tsfPtpProbe env loc).run s).2 (if s.registers env w then s.view.add w else s.view) := by
  unfold tsfPtpProbe
  cases hget : loc.hw.ops.getTsf with
  | false => simpa [Kernel.registers, hloc, hget] using Does.refl h
  | true =>
    cases hf : s.cardOf w with
    | some d => simpa [Kernel.registers, hget, hf, loc.back] using Does.refl h
    | none =>
      cases hk : env.kzalloc s.cardsList with
      | none => simpa [Kernel.registers, hget, hf, hk, loc.back] using Does.refl h
      | some c =>
        cases hp : env.ptpClockRegister with
        | error e =>
          simpa [Kernel.registers, hget, hf, hk, hp, loc.back, Except.isOk, Except.toBool] using
            Kernel.does_setCard h c.2.1 fun _ => Card.new loc
        | ok u =>
          simpa [Kernel.registers, hloc, hget, hf, hk, hp, loc.back, Except.isOk, Except.toBool, listAddTail,
            Kernel.addCard] using Kernel.does_addCard h c.2 hloc hget hf

/-- `NETDEV_REGISTER` adds a card where the conditions hold. -/
theorem does_hotplugProbe (env : ProbeEnv) (w : WiphyId) (h : s.CardsOk) :
    Does s ((tsfPtpTryHotplugProbe env w).run s).2 (if s.registers env w then s.view.add w else s.view) := by
  unfold tsfPtpTryHotplugProbe
  cases hf : s.cardOf w with
  | some d => simpa [Kernel.registers, hf] using Does.refl h
  | none =>
    cases hloc : s.wiphyPriv w with
    | none => simpa [Kernel.registers, hf, hloc] using Does.refl h
    | some loc => simpa [hf, hloc] using does_probe env h hloc

/-- What `tsf_ptp_try_hotplug_remove` does to the list. -/
theorem run_hotplugRemove (s : Kernel) (w : WiphyId) : ((tsfPtpTryHotplugRemove w).run s).2 =
    if (initNetdevs s).any fun dev => dev.wiphy == some w then s
    else match s.cardOf w with
      | none => s
      | some c => s.delCard c := by
  unfold tsfPtpTryHotplugRemove
  cases ha : (initNetdevs s).any fun dev => dev.wiphy == some w with
  | true => simp [ha]
  | false => cases hc : s.cardOf w <;> simp [ha, hc, listDel, Kernel.delCard]

/-- The second half of `NETDEV_UNREGISTER` drops the card of a wiphy without devices. -/
theorem does_hotplugRemove (h : s.CardsOk) (hw : dev.wiphy = some w) :
    Does s ((tsfPtpTryHotplugRemove w).run s).2 (s.view.dropIfLast dev) := by
  have hany : ((initNetdevs s).any fun dev => dev.wiphy == some w) =
      s.view.netdevs.any fun dev => dev.net == 0 && dev.wiphy == some w := by
    simp [initNetdevs, Kernel.view, List.any_filter]
  rw [run_hotplugRemove, hany]
  simp only [Registry.dropIfLast, hw]
  split
  · exact Does.refl h
  · cases hc : s.cardOf w with
    | none =>
      have hv : s.view.vifs w = none := by simp [Kernel.view, hc]
      rw [Registry.change_eq_self hv.symm]
      exact Does.refl h
    | some c => exact Kernel.does_delCard h hc

/-! ## The notifier -/

/-- The notifier acts on devices that belong to a wiphy. -/
theorem netdevEvent_eq (env : ProbeEnv) (event : NetdevEvent) (dev : NetDev) :
    tsfPtpNetdevEvent env event dev =
      match dev.wiphy with
      | none => return
      | some w =>
        match event with
        | .register => tsfPtpTryHotplugProbe env w
        | .up => captureVif w dev
        | .down => releaseVif w dev
        | .unregister => do
          releaseVif w dev
          tsfPtpTryHotplugRemove w
        | .other => return := by
  unfold tsfPtpNetdevEvent NetDev.wiphy
  cases dev.ieee80211Ptr with
  | none => rfl
  | some wdev =>
    cases h : wdev.wiphy with
    | none => simp [h]
    | some w => cases event <;> simp [h]

/-- The wiphy that `NETDEV_REGISTER` of a device adds a card for. -/
def Kernel.enrols (env : ProbeEnv) (s : Kernel) (dev : NetDev) : Option WiphyId := dev.wiphy.filter (s.registers env)

theorem does_eventRegister (env : ProbeEnv) (dev : NetDev) (h : s.CardsOk) :
    Does s ((tsfPtpNetdevEvent env .register dev).run s).2 (s.view.enrol (s.enrols env dev)) := by
  rw [netdevEvent_eq, Kernel.enrols]
  cases hw : dev.wiphy with
  | none => exact Does.refl h
  | some w =>
    have := does_hotplugProbe env w h
    cases hr : s.registers env w <;> simpa [hr, Option.filter, Registry.enrol] using this

theorem does_eventUp (env : ProbeEnv) (dev : NetDev) (h : s.CardsOk) :
    Does s ((tsfPtpNetdevEvent env .up dev).run s).2 (s.view.capture dev) := by
  rw [netdevEvent_eq]
  cases hw : dev.wiphy with
  | none => simpa [Registry.capture, hw] using Does.refl h
  | some w => exact does_captureVif h hw

theorem does_eventDown (env : ProbeEnv) (dev : NetDev) (h : s.CardsOk) :
    Does s ((tsfPtpNetdevEvent env .down dev).run s).2 (s.view.release dev) := by
  rw [netdevEvent_eq]
  cases hw : dev.wiphy with
  | none => simpa [Registry.release, hw] using Does.refl h
  | some w => exact does_releaseVif h hw

theorem does_eventUnregister (env : ProbeEnv) (dev : NetDev) (h : s.CardsOk) :
    Does s ((tsfPtpNetdevEvent env .unregister dev).run s).2 ((s.view.release dev).dropIfLast dev) := by
  rw [netdevEvent_eq]
  cases hw : dev.wiphy with
  | none => simpa [Registry.release, Registry.dropIfLast, hw] using Does.refl h
  | some w =>
    have h₁ := does_releaseVif h hw
    have h₂ := does_hotplugRemove h₁.ok hw
    rw [h₁.view] at h₂
    simpa using h₁.trans fun _ => h₂

/-! ## The steps of the kernel -/

theorem findNetdev_mem {id : DevId} (h : s.findNetdev id = some dev) : dev ∈ s.netdevs ∧ dev.id = id :=
  ⟨List.mem_of_find?_eq_some h, by simpa using List.find?_some h⟩

theorem findNetdev_setUp {id : DevId} (h : s.findNetdev id = some dev) (up : Bool) :
    (s.setUp id up).findNetdev id = some { dev with up := up } := by
  have hid : (fun d : NetDev => d.id == id) ∘ (fun d => if d.id = id then { d with up := up } else d) =
      fun d => d.id == id := by
    funext d
    simp only [comp_apply]
    split <;> rfl
  have hd : dev.id = id := (findNetdev_mem h).2
  rw [Kernel.findNetdev, Kernel.setUp, List.find?_map, hid]
  rw [Kernel.findNetdev] at h
  simp [h, hd]

theorem does_devOpen {id : DevId} (h : s.CardsOk) (hf : s.findNetdev id = some dev) :
    Does s ((devOpen id).run s).2 ((s.view.setUp id true).capture { dev with up := true }) := by
  have h₁ : (s.setUp id true).CardsOk := ⟨h.wiphys, h.tracked⟩
  have h₂ := does_eventUp .unused { dev with up := true } h₁
  have hrun : (devOpen id).run s = (tsfPtpNetdevEvent .unused .up { dev with up := true }).run (s.setUp id true) := by
    simp [devOpen, callNotifier, findNetdev_setUp hf]
  rw [hrun]
  exact ⟨h₂.ok, h₂.view, h₂.priv⟩

theorem does_devClose {id : DevId} (h : s.CardsOk) (hf : s.findNetdev id = some dev) :
    Does s ((devClose id).run s).2 ((s.view.setUp id false).release dev) := by
  have h₁ : (s.setUp id false).CardsOk := ⟨h.wiphys, h.tracked⟩
  have h₂ := does_eventDown .unused { dev with up := false } h₁
  have hrun : (devClose id).run s =
      (tsfPtpNetdevEvent .unused .down { dev with up := false }).run (s.setUp id false) := by
    simp [devClose, callNotifier, findNetdev_setUp hf]
  rw [hrun]
  exact ⟨h₂.ok, h₂.view, h₂.priv⟩

theorem does_registerNetdevice (env : ProbeEnv) (dev : NetDev) (h : s.CardsOk) :
    Does s ((registerNetdevice env dev).run s).2 ((s.view.list dev).enrol (s.enrols env dev)) := by
  have h₁ : (s.listNetdevice dev).CardsOk := ⟨h.wiphys, h.tracked⟩
  have h₂ := does_eventRegister env dev h₁
  have hrun : (registerNetdevice env dev).run s = (tsfPtpNetdevEvent env .register dev).run (s.listNetdevice dev) := by
    simp [registerNetdevice]
  rw [hrun]
  exact ⟨h₂.ok, h₂.view, h₂.priv⟩

theorem does_unregisterNetdevice (dev : NetDev) (h : s.CardsOk) :
    Does s ((unregisterNetdevice dev).run s).2 (((s.view.unlist dev.id).release dev).dropIfLast dev) := by
  have h₁ : (s.unlistNetdevice dev.id).CardsOk := ⟨h.wiphys, h.tracked⟩
  have h₂ := does_eventUnregister .unused dev h₁
  have hrun : (unregisterNetdevice dev).run s =
      (tsfPtpNetdevEvent .unused .unregister dev).run (s.unlistNetdevice dev.id) := by
    simp [unregisterNetdevice]
  rw [hrun]
  exact ⟨h₂.ok, h₂.view, h₂.priv⟩

/-- One round of the scan captures an up device. -/
theorem does_scanExistingVif (dev : NetDev) (h : s.CardsOk) :
    Does s ((scanExistingVif dev).run s).2 (if dev.up then s.view.capture dev else s.view) := by
  unfold scanExistingVif
  cases hw : dev.wiphy with
  | none => simpa [Registry.capture, hw] using Does.refl h
  | some w =>
    cases hup : dev.up with
    | false => simpa [hup] using Does.refl h
    | true => simpa [hup] using does_captureVif h hw

/-! ## Safety of the registry -/

/-- **Registry safety**: no wiphy has two cards, every card's wiphy has `get_tsf`, and every held VIF is that of an up
device of the card's wiphy. -/
structure Kernel.Safe (s : Kernel) : Prop where
  ok : s.CardsOk
  sound : s.view.Sound

/-- A module that has just been loaded has no cards. -/
theorem safe_load {netdevs : List NetDev} (h : (netdevs.map (·.id)).Nodup)
    (priv : (w : WiphyId) → Option (Local w)) : (Kernel.load netdevs priv).Safe where
  ok := ⟨List.nodup_nil, fun _ hc => by cases hc⟩
  sound := ⟨h, fun _ _ hw => by cases hw⟩

theorem Does.safe {r : Registry} (h : Does s s' r) (hr : r.Sound) : s'.Safe := ⟨h.ok, by rw [h.view]; exact hr⟩

theorem Does.netdevs {r : Registry} (h : Does s s' r) : s'.netdevs = r.netdevs := congrArg Registry.netdevs h.view

/-- The replay to a new notifier. -/
theorem safe_registerNotifier (env : DevId → ProbeEnv) (h : s.Safe) :
    ((registerNetdeviceNotifier env).run s).2.Safe := by
  have key : ∀ dev ∈ s.netdevs, ∀ s' : Kernel, s'.Safe ∧ s'.netdevs = s.netdevs →
      ((replayNetdev env dev).run s').2.Safe ∧ ((replayNetdev env dev).run s').2.netdevs = s.netdevs := by
    rintro dev hdev s' ⟨hs', hn⟩
    have h₁ := does_eventRegister (env dev.id) dev hs'.ok
    have hsafe := h₁.safe (hs'.sound.enrol _)
    have hn₁ : ((tsfPtpNetdevEvent (env dev.id) .register dev).run s').2.netdevs = s.netdevs := by
      rw [h₁.netdevs, Registry.enrol_netdevs]; exact hn
    cases hup : dev.up with
    | false => simpa [replayNetdev, hup] using ⟨hsafe, hn₁⟩
    | true =>
      have h₂ := does_eventUp .unused dev hsafe.ok
      have hmem : dev ∈ ((tsfPtpNetdevEvent (env dev.id) .register dev).run s').2.netdevs := by rw [hn₁]; exact hdev
      have hcap := h₂.safe (hsafe.sound.capture hmem hup)
      have hn₂ := h₂.netdevs.trans (Registry.capture_netdevs.trans hn₁)
      simpa [replayNetdev, hup] using ⟨hcap, hn₂⟩
  have hrun := Prog.run_forM_inv (f := replayNetdev env) (fun s' => s'.Safe ∧ s'.netdevs = s.netdevs) key ⟨h, rfl⟩
  simpa [registerNetdeviceNotifier] using hrun.1

/-- The walk of the discovery. -/
theorem safe_discoverLoop (env : DevId → ProbeEnv) : ∀ (devs : List NetDev) (count : Nat) {s : Kernel}, s.Safe →
    ((discoverLoop env devs count).run s).2.Safe
  | [], _, _, h => h
  | dev :: devs, count, s, h => by
    unfold discoverLoop
    cases hw : dev.wiphy with
    | none => exact safe_discoverLoop env devs count h
    | some w =>
      cases hloc : s.wiphyPriv w with
      | none => simpa [hloc] using safe_discoverLoop env devs count h
      | some loc =>
        have hd := does_probe (env dev.id) h.ok hloc
        have hs : ((tsfPtpProbe (env dev.id) loc).run s).2.Safe := hd.safe (by
          split
          · exact h.sound.add
          · exact h.sound)
        cases hr : ((tsfPtpProbe (env dev.id) loc).run s).1 with
        | ok u => simpa [hloc, hr] using safe_discoverLoop env devs (count + 1) hs
        | error e => simpa [hloc, hr] using safe_discoverLoop env devs count hs

/-- The scan for devices that are up. -/
theorem safe_scan (h : s.Safe) : (tsfPtpScanExistingVifs.run s).2.Safe := by
  have key : ∀ dev ∈ initNetdevs s, ∀ s' : Kernel, s'.Safe ∧ s'.netdevs = s.netdevs →
      ((scanExistingVif dev).run s').2.Safe ∧ ((scanExistingVif dev).run s').2.netdevs = s.netdevs := by
    rintro dev hdev s' ⟨hs', hn⟩
    have hd := does_scanExistingVif dev hs'.ok
    have hmem : dev ∈ s'.netdevs := hn ▸ (List.mem_filter.mp hdev).1
    cases hup : dev.up with
    | false =>
      rw [if_neg (by simp [hup])] at hd
      exact ⟨hd.safe hs'.sound, hd.netdevs.trans hn⟩
    | true =>
      rw [if_pos hup] at hd
      exact ⟨hd.safe (hs'.sound.capture hmem hup), hd.netdevs.trans (Registry.capture_netdevs.trans hn)⟩
  have hrun := Prog.run_forM_inv (f := scanExistingVif) (fun s' => s'.Safe ∧ s'.netdevs = s.netdevs) key ⟨h, rfl⟩
  simpa [tsfPtpScanExistingVifs] using hrun.1

/-! ### What a step of the kernel can be -/

theorem rtnlStep_register {env : ProbeEnv} (h : rtnlStep s (.register env dev) = some s') :
    s.findNetdev dev.id = none ∧ dev.up = false ∧ s' = ((registerNetdevice env dev).run s).2 := by
  simp only [rtnlStep, Option.ite_none_right_eq_some, Option.some.injEq] at h
  exact ⟨h.1.1, h.1.2, h.2.symm⟩

theorem rtnlStep_up {id : DevId} (h : rtnlStep s (.up id) = some s') :
    ∃ dev, s.findNetdev id = some dev ∧ dev.up = false ∧ s' = ((devOpen id).run s).2 := by
  cases hf : s.findNetdev id with
  | none => simp [rtnlStep, hf] at h
  | some dev => cases hup : dev.up <;> simp [rtnlStep, hf, hup] at h; exact ⟨dev, rfl, hup, h.symm⟩

theorem rtnlStep_down {id : DevId} (h : rtnlStep s (.down id) = some s') :
    ∃ dev, s.findNetdev id = some dev ∧ dev.up = true ∧ s' = ((devClose id).run s).2 := by
  cases hf : s.findNetdev id with
  | none => simp [rtnlStep, hf] at h
  | some dev => cases hup : dev.up <;> simp [rtnlStep, hf, hup] at h; exact ⟨dev, rfl, hup, h.symm⟩

theorem rtnlStep_unregister {id : DevId} (h : rtnlStep s (.unregister id) = some s') :
    ∃ dev, s.findNetdev id = some dev ∧ dev.up = false ∧ s' = ((unregisterNetdevice dev).run s).2 := by
  cases hf : s.findNetdev id with
  | none => simp [rtnlStep, hf] at h
  | some dev => cases hup : dev.up <;> simp [rtnlStep, hf, hup] at h; exact ⟨dev, rfl, hup, h.symm⟩

/-- Every step keeps the registry safe. -/
theorem rtnlStep_safe {a : RtnlStep} (hs : s.Safe) (h : rtnlStep s a = some s') : s'.Safe := by
  cases a with
  | registerNotifier env => cases h; exact safe_registerNotifier env hs
  | discover env =>
    cases h
    simpa [tsfPtpDiscoverFromNetdevs] using safe_discoverLoop env (initNetdevs s) 0 hs
  | scan => cases h; exact safe_scan hs
  | register env dev =>
    obtain ⟨hf, -, rfl⟩ := rtnlStep_register h
    have hnew : dev.id ∉ s.view.netdevs.map (·.id) := fun hm => by
      obtain ⟨d, hd, he⟩ := List.mem_map.mp hm
      have := List.find?_eq_none.mp hf d hd
      simp [he] at this
    exact (does_registerNetdevice env dev hs.ok).safe ((hs.sound.list hnew).enrol _)
  | up id =>
    obtain ⟨dev, hf, -, rfl⟩ := rtnlStep_up h
    obtain ⟨hm, hid⟩ := findNetdev_mem hf
    refine (does_devOpen hs.ok hf).safe (hs.sound.setUp_true.capture (List.mem_map.mpr ⟨dev, hm, ?_⟩) rfl)
    rw [if_pos hid]
  | down id =>
    obtain ⟨dev, hf, -, rfl⟩ := rtnlStep_down h
    obtain ⟨hm, rfl⟩ := findNetdev_mem hf
    exact (does_devClose hs.ok hf).safe (hs.sound.setUp_false_release hm)
  | unregister id =>
    obtain ⟨dev, hf, hdown, rfl⟩ := rtnlStep_unregister h
    obtain ⟨hm, -⟩ := findNetdev_mem hf
    refine (does_unregisterNetdevice dev hs.ok).safe (Registry.Sound.dropIfLast (hs.sound.unlist ?_).release)
    intro d hd he
    rw [hs.sound.eq_of_id hd hm he, hdown]

/-- A whole run keeps the registry safe. -/
theorem rtnlSteps_safe : ∀ (steps : List RtnlStep) {s s' : Kernel}, s.Safe → rtnlSteps steps s = some s' → s'.Safe
  | [], _, _, hs, h => by cases h; exact hs
  | _ :: steps, _, _, hs, h => by
    obtain ⟨s₁, h₁, h₂⟩ := Option.bind_eq_some_iff.mp h
    exact rtnlSteps_safe steps (rtnlStep_safe hs h₁) h₂

/-- **Card registry safety.** In every state that initialisation steps and events reach from module load, no two cards
have one wiphy, every card's wiphy has `get_tsf`, and each card's VIF is that of an up device of the card's wiphy. -/
theorem registry_safety (netdevs : List NetDev) (hids : (netdevs.map (·.id)).Nodup)
    (priv : (w : WiphyId) → Option (Local w)) (steps : List RtnlStep)
    (hrun : rtnlSteps steps (Kernel.load netdevs priv) = some s') :
    (s'.cardsList.ptrs.map fun c => (s'.card c).hw.wiphy).Nodup ∧
      (∀ c ∈ s'.cardsList.ptrs, ∃ w loc, (s'.card c).hw.wiphy = w ∧ s'.wiphyPriv w = some loc ∧
        loc.hw.ops.getTsf = true) ∧
      ∀ c ∈ s'.cardsList.ptrs, ∀ id, (s'.card c).vif = some id →
        ∃ dev ∈ s'.netdevs, dev.id = id ∧ dev.up = true ∧ dev.wiphy = some (s'.card c).hw.wiphy := by
  have hs := rtnlSteps_safe steps (safe_load hids priv) hrun
  refine ⟨hs.ok.wiphys, fun c hc => ?_, fun c hc id hid => ?_⟩
  · obtain ⟨w, loc, hw, hloc, -, hget⟩ := hs.ok.tracked c hc
    exact ⟨w, loc, hw, hloc, hget⟩
  · refine hs.sound.held _ id ?_
    have hself := hs.ok.cardOf_self hc
    rw [Kernel.wiphyOf] at hself
    simp [Kernel.view, hself, hid]

/-- A run with two devices of one wiphy, one of them in another namespace: the card holds the VIF of the first. -/
theorem registry_safety_run : ∃ s, rtnlSteps [.registerNotifier .accepts, .discover .accepts, .scan, .down 1, .up 1]
    (.load [.wlan 0 0 7 true, .wlan 1 5 7 true] fun w => some (.both w)) = some s ∧
    (s.card (.card 0)).vif = some 0 ∧ ∃ dev ∈ s.netdevs, dev.id = 0 ∧ dev.up = true ∧ dev.wiphy = some 7 := by
  refine ⟨_, rfl, rfl, ?_⟩
  exact (registry_safety [.wlan 0 0 7 true, .wlan 1 5 7 true] (by decide) (fun w => some (.both w))
    [.registerNotifier .accepts, .discover .accepts, .scan, .down 1, .up 1] rfl).2.2 (.card 0) (by decide) 0 rfl

end TsfSync
