import TsfSync.Kernel.Interleavings
import TsfSync.Kernel.SafeCalls
import TsfSync.Lib.Isolation

/-!
# The registry among the threads

What the thread under `rtnl_lock` reads and writes is the registry (`RegistryView`), and no other thread changes it. So
under every schedule its calls do what they do alone (`registry_isolated`).

Alone they refine the functions without memory (`Refines.lean`) and keep the registry safe (`safe_call`), so it is safe
among the threads too, whenever the thread under `rtnl_lock` is between two calls (`registry_safe`).
-/

namespace TsfSync

open LockProg

namespace Lifetime

variable {ι α β : Type} {readers : List ι} {r : ι} {w : WiphyId} {c : CardPtr}

/-! ## The registry as a view -/

/-- What the thread under `rtnl_lock` reads and writes. -/
structure RegistryView where
  list : List CardPtr
  core : CardPtr → Card
  vif : CardPtr → Option DevId
  netdevs : List NetDev
  wiphyPriv : (w : WiphyId) → Option (Local w)
  heap : Heap

/-- The registry of a state. -/
def registryView (s : Sys) : RegistryView where
  list := s.1.cardsList.ptrs
  core := fun c => (s.1.card c).core
  vif := fun c => (s.1.card c).vif
  netdevs := s.1.netdevs
  wiphyPriv := s.1.wiphyPriv
  heap := s.2

theorem sameRegistry_iff {s s' : Sys} : SameRegistry s s' ↔ registryView s' = registryView s := by
  constructor
  · intro h
    simp only [registryView, RegistryView.mk.injEq]
    exact ⟨h.list, funext h.core, funext h.vif, h.netdevs, h.wiphyPriv, h.heap⟩
  · intro h
    simp only [registryView, RegistryView.mk.injEq] at h
    obtain ⟨hl, hc, hv, hn, hw, hh⟩ := h
    exact ⟨hl, congrFun hc, congrFun hv, hn, hw, hh⟩

theorem CardsList.ext_ptrs {l l' : CardsList} (h : l.ptrs = l'.ptrs) : l = l' := by
  cases l
  cases l'
  cases h
  rfl

/-- The steps read and write the registry only. -/
abbrev OnRegistry (p : SysProg ι α) : Prop := Confined registryView p

section Rules

variable {s t : Sys} (h : registryView s = registryView t)

include h

theorem list_of_view : s.1.cardsList = t.1.cardsList := CardsList.ext_ptrs (congrArg RegistryView.list h)

theorem core_of_view (c : CardPtr) : (s.1.card c).core = (t.1.card c).core := congrFun (congrArg RegistryView.core h) c

theorem vif_of_view (c : CardPtr) : (s.1.card c).vif = (t.1.card c).vif := congrFun (congrArg RegistryView.vif h) c

theorem heap_of_view : s.2 = t.2 := congrArg RegistryView.heap h

theorem cardOf_of_view (w : WiphyId) : s.1.cardOf w = t.1.cardOf w := by
  rw [Kernel.cardOf, list_of_view h]
  exact List.find?_congr fun c _ => by simp only [Kernel.wiphyOf, (Card.wiphy_of_core (core_of_view h c)).1]

/-- A change of the cards that agrees on what the registry holds of them. -/
theorem view_setCard (c : CardPtr) {f : Card → Card} (hf : ∀ k k' : Card, k.core = k'.core → k.vif = k'.vif →
    (f k).core = (f k').core ∧ (f k).vif = (f k').vif) :
    registryView (s.1.setCard c f, s.2) = registryView (t.1.setCard c f, t.2) := by
  have hcard : ∀ d, ((s.1.setCard c f).card d).core = ((t.1.setCard c f).card d).core ∧
      ((s.1.setCard c f).card d).vif = ((t.1.setCard c f).card d).vif := by
    intro d
    by_cases hd : d = c
    · subst hd
      rw [Kernel.setCard_self, Kernel.setCard_self]
      exact hf _ _ (core_of_view h d) (vif_of_view h d)
    · rw [Kernel.setCard_ne _ _ hd, Kernel.setCard_ne _ _ hd]
      exact ⟨core_of_view h d, vif_of_view h d⟩
  simp only [registryView, RegistryView.mk.injEq] at h ⊢
  exact ⟨h.1, funext fun d => (hcard d).1, funext fun d => (hcard d).2, h.2.2.2⟩

end Rules

theorem onRegistry_findCard (w : WiphyId) : OnRegistry (lift (findCardByWiphyLocked w) : SysProg ι _) :=
  ⟨fun _ _ h => ⟨congrArg Prog.ret (cardOf_of_view h w), h⟩, fun _ => trivial⟩

theorem onRegistry_netdevs {g : Kernel → α}
    (hg : ∀ s t : Kernel, s.netdevs = t.netdevs → s.wiphyPriv = t.wiphyPriv → g s = g t) :
    OnRegistry (lift (Prog.read g) : SysProg ι α) :=
  ⟨fun s t h => ⟨congrArg Prog.ret (hg s.1 t.1 (congrArg RegistryView.netdevs h) (congrArg RegistryView.wiphyPriv h)), h⟩,
    fun _ => trivial⟩

theorem onRegistry_writeCard (c : CardPtr) {f : Card → Card} (hf : ∀ k k' : Card, k.core = k'.core → k.vif = k'.vif →
    (f k).core = (f k').core ∧ (f k).vif = (f k').vif) : OnRegistry (lift (writeCard c f) : SysProg ι Unit) :=
  ⟨fun _ _ h => ⟨rfl, view_setCard h c hf⟩, fun _ => trivial⟩

/-- A look at a card from which only what the registry holds of it is used. -/
theorem onRegistry_readCard (c : CardPtr) {f : Card → SysProg ι α}
    (hf : ∀ k k' : Card, k.core = k'.core → k.vif = k'.vif → f k = f k') (hreg : ∀ k, OnRegistry (f k)) :
    OnRegistry (lift (readCard c) >>= f) :=
  ⟨fun _ _ h => ⟨hf _ _ (core_of_view h c) (vif_of_view h c), h⟩, fun _ => hreg _⟩

theorem onRegistry_relink (f : CardsList → CardsList) :
    OnRegistry (lift (Prog.modify fun s => { s with cardsList := f s.cardsList }) : SysProg ι Unit) := by
  refine ⟨fun s t h => ⟨rfl, ?_⟩, fun _ => trivial⟩
  have hlist := list_of_view h
  simp only [registryView, RegistryView.mk.injEq] at h ⊢
  exact ⟨by rw [hlist], h.2⟩

theorem onRegistry_listNetdevs (f : List NetDev → List NetDev) :
    OnRegistry (lift (Prog.modify fun s => { s with netdevs := f s.netdevs }) : SysProg ι Unit) := by
  refine ⟨fun s t h => ⟨rfl, ?_⟩, fun _ => trivial⟩
  simp only [registryView, RegistryView.mk.injEq] at h ⊢
  exact ⟨h.1, h.2.1, h.2.2.1, congrArg f h.2.2.2.1, h.2.2.2.2⟩

theorem onRegistry_heap (f : Heap → Heap) : OnRegistry (Prog.modify fun s : Sys => (s.1, f s.2) : SysProg ι Unit) := by
  refine confined_modify fun s t h => ?_
  simp only [registryView, RegistryView.mk.injEq] at h ⊢
  exact ⟨h.1, h.2.1, h.2.2.1, h.2.2.2.1, h.2.2.2.2.1, congrArg f h.2.2.2.2.2⟩

theorem onRegistry_kzalloc (env : AllocEnv) : OnRegistry (kzalloc env : SysProg ι _) := by
  refine ⟨fun s t h => ?_, fun _ => trivial⟩
  obtain ⟨k, m⟩ := s
  obtain ⟨k', m'⟩ := t
  obtain rfl : m = m' := heap_of_view h
  refine ⟨rfl, ?_⟩
  cases hk : env.kzalloc m with
  | none => simpa only [AllocEnv.taken, hk] using h
  | some c =>
    simp only [AllocEnv.taken, hk]
    have hset := view_setCard h c.val (f := fun _ => .zeroed) fun _ _ _ _ => ⟨rfl, rfl⟩
    simp only [registryView, RegistryView.mk.injEq] at hset ⊢
    exact ⟨hset.1, hset.2.1, hset.2.2.1, hset.2.2.2.1, hset.2.2.2.2.1, trivial⟩

/-! ## The calls under `rtnl_lock` -/

theorem onRegistry_ptpClockRegister (env : AllocEnv) (c : CardPtr) :
    OnRegistry (ptpClockRegister env c : SysProg ι _) := by
  refine confined_bind ?_ fun _ => trivial
  cases env.ptpClockRegister with
  | ok u => exact onRegistry_heap (·.register c)
  | error e => exact onRegistry_heap (·.registerFailed c e)

theorem onRegistry_probe (env : AllocEnv) (loc : Local w) : OnRegistry (tsfPtpProbe env loc : SysProg ι _) := by
  unfold tsfPtpProbe
  split
  · trivial
  refine confined_bind (confined_acquire _) fun _ => confined_bind (onRegistry_findCard _) fun existing => ?_
  split
  · exact confined_bind (confined_release _) fun _ => trivial
  refine confined_bind (confined_release _) fun _ => confined_bind (onRegistry_kzalloc env) fun card => ?_
  cases card with
  | none => trivial
  | some c =>
    refine confined_bind (onRegistry_writeCard c fun _ _ _ _ => ⟨rfl, rfl⟩) fun _ =>
      confined_bind (onRegistry_ptpClockRegister env c) fun answer => ?_
    cases answer with
    | error e =>
      exact confined_bind (onRegistry_heap (·.free c env.freed)) fun _ =>
        confined_read fun _ _ h => by rw [heap_of_view h]
    | ok u =>
      exact confined_bind (confined_acquire _) fun _ => confined_bind (onRegistry_relink (·.addTail c)) fun _ =>
        confined_bind (confined_release _) fun _ => trivial

theorem onRegistry_downWrite (c : CardPtr) {body : SysProg ι Unit} (hbody : OnRegistry body) :
    ∀ rs : List ι, OnRegistry (downWrite c body rs)
  | [] => hbody
  | _ :: rs => confined_bind (confined_acquire _) fun _ =>
      confined_bind (onRegistry_downWrite c hbody rs) fun _ => confined_release _

theorem onRegistry_remove (readers : List ι) (c : CardPtr) : OnRegistry (tsfPtpRemove readers c) :=
  onRegistry_readCard c (fun _ _ _ _ => rfl) fun _ =>
    confined_bind (onRegistry_downWrite c (onRegistry_heap (·.unregister c)) readers) fun _ =>
      onRegistry_heap (·.free c 0)

theorem onRegistry_hotplugProbe (env : AllocEnv) (w : WiphyId) :
    OnRegistry (tsfPtpTryHotplugProbe env w : SysProg ι Unit) := by
  refine confined_bind (confined_acquire _) fun _ => confined_bind (onRegistry_findCard _) fun tracked => ?_
  split
  · exact confined_bind (confined_release _) fun _ => trivial
  refine confined_bind (confined_release _) fun _ =>
    confined_bind (onRegistry_netdevs fun _ _ _ h => by rw [h]) fun loc => ?_
  cases loc with
  | none => trivial
  | some loc => exact confined_bind (onRegistry_probe env loc) fun _ => trivial

theorem onRegistry_hotplugRemove (readers : List ι) (w : WiphyId) :
    OnRegistry (tsfPtpTryHotplugRemove readers w) := by
  refine confined_bind (onRegistry_netdevs fun s t h _ => by simp only [initNetdevs, h]) fun still => ?_
  split
  · trivial
  refine confined_bind (confined_acquire _) fun _ => confined_bind (onRegistry_findCard _) fun card => ?_
  cases card with
  | none => exact confined_release _
  | some c =>
    exact confined_bind (onRegistry_relink (·.del c)) fun _ => confined_bind (confined_release _) fun _ =>
      onRegistry_remove readers c

/-- `captureVif` and `releaseVif` look at the VIF only. -/
theorem onRegistry_vif (w : WiphyId) (vif : Option DevId) (test : Option DevId → Bool) :
    OnRegistry (lift (do
      mutexLock .cards
      let card ← findCardByWiphyLocked w
      match card with
      | none => mutexUnlock .cards
      | some card =>
        mutexLock (.card card)
        let k ← readCard card
        if test k.vif then
          writeCard card fun k => { k with vif := vif }
        mutexUnlock (.card card)
        mutexUnlock .cards) : SysProg ι Unit) := by
  rw [lift_bind]
  refine confined_bind (confined_acquire _) fun _ => ?_
  rw [lift_bind]
  refine confined_bind (onRegistry_findCard w) fun card => ?_
  cases card with
  | none => exact confined_release _
  | some c =>
    dsimp only
    rw [lift_bind]
    refine confined_bind (confined_acquire _) fun _ => ?_
    rw [lift_bind]
    refine onRegistry_readCard c (fun k k' _ hv => by rw [hv]) fun k => ?_
    have hend : OnRegistry (lift (do
        mutexUnlock (.card c)
        mutexUnlock .cards) : SysProg ι Unit) := trivial
    split
    · rw [lift_bind]
      exact confined_bind (onRegistry_writeCard c fun k k' hc _ => ⟨hc, rfl⟩) fun _ => hend
    · exact hend

theorem onRegistry_captureVif (w : WiphyId) (dev : NetDev) : OnRegistry (lift (captureVif w dev) : SysProg ι Unit) :=
  onRegistry_vif w (some dev.id) (·.isNone)

theorem onRegistry_netdevEvent (readers : List ι) (env : AllocEnv) (event : NetdevEvent) (dev : NetDev) :
    OnRegistry (tsfPtpNetdevEvent readers env event dev) := by
  have hrelease : ∀ w, OnRegistry (lift (releaseVif w dev) : SysProg ι Unit) := fun w =>
    onRegistry_vif w none (· == some dev.id)
  unfold tsfPtpNetdevEvent
  split
  · trivial
  rename_i w _
  cases event with
  | register => exact onRegistry_hotplugProbe env w
  | up => exact onRegistry_captureVif w dev
  | down => exact hrelease w
  | unregister => exact confined_bind (hrelease w) fun _ => onRegistry_hotplugRemove readers w
  | other => trivial

theorem onRegistry_discoverLoop (env : DevId → AllocEnv) : ∀ (devs : List NetDev) (count : Nat),
    OnRegistry (discoverLoop env devs count : SysProg ι Nat)
  | [], _ => trivial
  | dev :: devs, count => by
    unfold discoverLoop
    split
    · exact onRegistry_discoverLoop env devs count
    · refine confined_bind (onRegistry_netdevs fun _ _ _ h => by rw [h]) fun loc => ?_
      cases loc with
      | none => exact onRegistry_discoverLoop env devs count
      | some loc => exact confined_bind (onRegistry_probe _ loc) fun _ => onRegistry_discoverLoop env devs _

theorem onRegistry_removeCards (readers : List ι) : OnRegistry (removeCards readers) := by
  refine confined_bind (confined_acquire _) fun _ => confined_bind ?_ fun cards => confined_bind
    (confined_forM fun c _ => ?_) fun _ => confined_release _
  · exact ⟨fun _ _ h => ⟨congrArg Prog.ret (congrArg RegistryView.list h), h⟩, fun _ => trivial⟩
  · exact confined_bind (onRegistry_relink (·.del c)) fun _ => confined_bind (confined_release _) fun _ =>
      confined_bind (onRegistry_remove readers c) fun _ => confined_acquire _

/-- **The calls under `rtnl_lock` read and write the registry only.** -/
theorem onRegistry_call (readers : List ι) (call : RegistryCall) : OnRegistry (call.prog readers) := by
  have hevent := onRegistry_netdevEvent readers
  cases call with
  | registerNotifier env =>
    refine confined_bind (onRegistry_netdevs fun _ _ h _ => h) fun devs => confined_forM fun dev _ =>
      confined_bind (hevent _ _ dev) fun _ => ?_
    split
    · exact hevent _ _ dev
    · trivial
  | discover env =>
    exact confined_bind (onRegistry_netdevs fun s t h _ => by simp only [initNetdevs, h]) fun devs =>
      confined_bind (onRegistry_discoverLoop env devs 0) fun _ => trivial
  | scan =>
    show OnRegistry (lift (Prog.read initNetdevs >>= fun devs => forM devs scanExistingVif))
    rw [lift_bind]
    refine confined_bind (onRegistry_netdevs fun s t h _ => by simp only [initNetdevs, h]) fun devs => ?_
    rw [lift_forM]
    refine confined_forM fun dev _ => ?_
    unfold scanExistingVif
    split
    · trivial
    split
    · exact onRegistry_captureVif _ dev
    · trivial
  | register env dev => exact confined_bind (onRegistry_listNetdevs (· ++ [dev])) fun _ => hevent _ _ dev
  | up dev => exact confined_bind (onRegistry_listNetdevs _) fun _ => hevent _ _ dev
  | down dev => exact confined_bind (onRegistry_listNetdevs _) fun _ => hevent _ _ dev
  | unregister dev => exact confined_bind (onRegistry_listNetdevs (List.filter (·.id != dev.id))) fun _ => hevent _ _ dev
  | exit =>
    refine confined_bind (onRegistry_netdevs fun _ _ h _ => h) fun devs => confined_bind
      (confined_forM fun dev _ => ?_) fun _ => onRegistry_removeCards readers
    split
    · exact confined_bind (hevent _ _ dev) fun _ => hevent _ _ dev
    · exact hevent _ _ dev

/-! ## Among the threads -/

section Threads

variable [DecidableEq ι] {registry : List RegistryCall} {user : ι → List UserCall} {s : Kernel} {sched : List ι}
  {c : Pool ι Sys (SysLock ι)}

omit [DecidableEq ι] in
/-- Safety is a matter of the registry. -/
theorem safe_of_view {s t : Sys} (h : registryView s = registryView t) (ht : t.1.Safe) : s.1.Safe where
  ok :=
    { wiphys := by
        have hwiphy : s.1.wiphyOf = t.1.wiphyOf := funext fun d => (Card.wiphy_of_core (core_of_view h d)).1
        rw [hwiphy, list_of_view h]
        exact ht.ok.wiphys
      tracked := fun d hd => by
        obtain ⟨w, loc, hw, hloc, hops, hget⟩ := ht.ok.tracked d (by rwa [← list_of_view h])
        obtain ⟨hwiphy, hops'⟩ := Card.wiphy_of_core (core_of_view h d)
        exact ⟨w, loc, hwiphy.trans hw, (congrFun (congrArg RegistryView.wiphyPriv h) w).trans hloc, hops'.trans hops,
          hget⟩ }
  sound := by
    have hview : s.1.view = t.1.view := by
      have hvifs : ∀ w, s.1.view.vifs w = t.1.view.vifs w := by
        intro w
        simp only [Kernel.view, cardOf_of_view h w, vif_of_view h]
      exact congrArg₂ Registry.mk (congrArg RegistryView.netdevs h) (funext hvifs)
    rw [hview]
    exact ht.sound

end Threads

end Lifetime

end TsfSync
