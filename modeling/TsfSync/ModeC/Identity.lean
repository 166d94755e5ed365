import TsfSync.Kernel.RegistrySpec
import TsfSync.ModeC.Effect

/-!
# Positions as identities

Mode C names a card by its position in `cards_list`, from one access of the device to a later one: the index of the
primary for the life of the daemon, the index of an adjustment from the read to the write. New cards go to the end of
the list, so only a removal moves a position, and it moves those behind it. As long as every removed card stands behind
the primary, and between a read and its write behind every card that is to be adjusted, an index denotes the same card
at both ends (`identity_kept`); a removal in front of the primary makes another card the reference
(`reference_moves_counterexample`).
-/

namespace TsfSync

open LockProg MachineWord Uapi User User.IoUringSyncer

/-! ## Steps that only add cards -/

/-- The cards stay, each of its wiphy; new ones come after them. -/
structure Grows (s s' : Kernel) : Prop where
  list : s.cardsList.ptrs <+: s'.cardsList.ptrs
  wiphy : ∀ c ∈ s.cardsList.ptrs, s'.wiphyOf c = s.wiphyOf c

theorem Grows.refl (s : Kernel) : Grows s s := ⟨List.prefix_rfl, fun _ _ => rfl⟩

section Grows

variable {s : Kernel} {w : WiphyId} {dev : NetDev}

theorem grows_setVif (s : Kernel) (c : CardPtr) (vif : Option DevId) : Grows s (s.setVif c vif) :=
  ⟨List.prefix_rfl, fun d _ => congrFun (Kernel.setVif_wiphyOf vif) d⟩

theorem grows_vifCallback {p : KProg Unit} (hp : p = captureVif w dev ∨ p = releaseVif w dev) : Grows s (p.run s).2 := by
  rcases run_vifCallback (s := s) hp with h | ⟨c, vif, h⟩
  · rw [h]; exact Grows.refl s
  · rw [h]; exact grows_setVif s c vif

theorem grows_setCard {c : CardPtr} (hc : c ∉ s.cardsList.ptrs) (f : Card → Card) : Grows s (s.setCard c f) :=
  ⟨List.prefix_rfl, fun d hd => by
    have hne : d ≠ c := fun e => hc (e ▸ hd)
    rw [Kernel.wiphyOf, s.setCard_ne f hne]
    rfl⟩

theorem grows_addCard {c : CardPtr} (hc : c ∉ s.cardsList.ptrs ∧ c ≠ .head) (loc : Local w) :
    Grows s (s.addCard c loc) where
  list := by
    have hptrs : (s.addCard c loc).cardsList.ptrs = s.cardsList.ptrs ++ [c] := CardsList.addTail_ptrs _ hc
    exact hptrs ▸ List.prefix_append _ _
  wiphy := (grows_setCard hc.1 fun _ => Card.new loc).wiphy

theorem grows_probe (env : ProbeEnv) (loc : Local w) : Grows s ((tsfPtpProbe env loc).run s).2 := by
  unfold tsfPtpProbe
  cases hget : loc.hw.ops.getTsf with
  | false => simpa using Grows.refl s
  | true =>
    cases hf : s.cardOf loc.hw.wiphy with
    | some d => simpa [hf] using Grows.refl s
    | none =>
      cases hk : env.kzalloc s.cardsList with
      | none => simpa [hf, hk] using Grows.refl s
      | some c =>
        cases hp : env.ptpClockRegister with
        | error e => simpa [hf, hk, hp] using grows_setCard c.2.1 fun _ => Card.new loc
        | ok u => simpa [hf, hk, hp, listAddTail, Kernel.addCard] using grows_addCard c.2 loc

theorem grows_hotplugProbe (env : ProbeEnv) (w : WiphyId) : Grows s ((tsfPtpTryHotplugProbe env w).run s).2 := by
  unfold tsfPtpTryHotplugProbe
  cases hf : s.cardOf w with
  | some d => simpa [hf] using Grows.refl s
  | none =>
    cases hloc : s.wiphyPriv w with
    | none => simpa [hf, hloc] using Grows.refl s
    | some loc => simpa [hf, hloc] using grows_probe env loc

/-- Only `NETDEV_UNREGISTER` removes a card. -/
theorem grows_netdevEvent (env : ProbeEnv) (event : NetdevEvent) (h : event ≠ .unregister) (dev : NetDev) :
    Grows s ((tsfPtpNetdevEvent env event dev).run s).2 := by
  rw [netdevEvent_eq]
  cases dev.wiphy with
  | none => exact Grows.refl s
  | some w =>
    cases event with
    | register => exact grows_hotplugProbe env w
    | up => exact grows_vifCallback (Or.inl rfl)
    | down => exact grows_vifCallback (Or.inr rfl)
    | unregister => exact absurd rfl h
    | other => exact Grows.refl s

end Grows

/-! ## What happens between the accesses -/

/-- A step of the kernel: a net_device event, or time that passes. -/
inductive EnvStep
  | register (env : ProbeEnv) (dev : NetDev)
  | up (id : DevId)
  | down (id : DevId)
  | unregister (id : DevId)
  | clock (tsf : CardPtr → UInt64) (ktimeNs : Int64)

/-- All counters move on. -/
def Kernel.tick (s : Kernel) (tsf : CardPtr → UInt64) (ktimeNs : Int64) : Kernel :=
  { s with card := fun c => { s.card c with hw := { (s.card c).hw with tsf := tsf c } }, ktimeNs := ktimeNs }

/-- One step; one that the kernel does not take changes nothing. -/
def envStep (s : Kernel) : EnvStep → Kernel
  | .register env dev => (rtnlStep s (.register env dev)).getD s
  | .up id => (rtnlStep s (.up id)).getD s
  | .down id => (rtnlStep s (.down id)).getD s
  | .unregister id => (rtnlStep s (.unregister id)).getD s
  | .clock tsf ktimeNs => s.tick tsf ktimeNs

/-- The card that a step removes: that of a wiphy whose last device in the initial namespace is unregistered. -/
def removes (s : Kernel) : EnvStep → Option CardPtr
  | .unregister id =>
    match s.findNetdev id with
    | none => none
    | some dev =>
      match dev.wiphy with
      | none => none
      | some w =>
        if dev.up || (s.netdevs.any fun d => d.net == 0 && d.id != id && d.wiphy == some w) then none else s.cardOf w
  | _ => none

/-! ## What a step leaves at the front of the list -/

/-- The first `n` cards are there and stay where they are, each of its wiphy. -/
structure KeepsFirst (n : Nat) (s s' : Kernel) : Prop where
  le : n ≤ s'.cardsList.ptrs.length
  take : s'.cardsList.ptrs.take n = s.cardsList.ptrs.take n
  wiphy : ∀ c ∈ s.cardsList.ptrs.take n, s'.wiphyOf c = s.wiphyOf c

section KeepsFirst

variable {n : Nat} {s s' : Kernel}

theorem KeepsFirst.refl (h : n ≤ s.cardsList.ptrs.length) : KeepsFirst n s s := ⟨h, rfl, fun _ _ => rfl⟩

theorem KeepsFirst.trans {s₁ s₂ s₃ : Kernel} (h : KeepsFirst n s₁ s₂) (h' : KeepsFirst n s₂ s₃) : KeepsFirst n s₁ s₃ :=
  ⟨h'.le, h'.take.trans h.take, fun c hc => (h'.wiphy c (h.take ▸ hc)).trans (h.wiphy c hc)⟩

theorem Grows.keepsFirst (h : Grows s s') (hn : n ≤ s.cardsList.ptrs.length) : KeepsFirst n s s' where
  le := hn.trans h.list.length_le
  take := by
    obtain ⟨t, ht⟩ := h.list
    rw [← ht, List.take_append_of_le_length hn]
  wiphy := fun c hc => h.wiphy c (List.mem_of_mem_take hc)

/-- A card behind the first `n` is removed. -/
theorem keepsFirst_delCard {c : CardPtr} (hn : n ≤ s.cardsList.ptrs.length) (hc : c ∉ s.cardsList.ptrs.take n) :
    KeepsFirst n s (s.delCard c) := by
  have herase : (s.delCard c).cardsList.ptrs = s.cardsList.ptrs.take n ++ (s.cardsList.ptrs.drop n).erase c := by
    rw [Kernel.delCard, CardsList.del_ptrs]
    conv_lhs => rw [← List.take_append_drop n s.cardsList.ptrs]
    exact List.erase_append_right _ hc
  have hlen : (s.cardsList.ptrs.take n).length = n := List.length_take_of_le hn
  refine ⟨?_, ?_, fun _ _ => rfl⟩
  · rw [herase, List.length_append, hlen]; omega
  · rw [herase, List.take_left' hlen]

theorem keepsFirst_unregister {id : DevId} {dev : NetDev} (hf : s.findNetdev id = some dev) (hdown : dev.up = false)
    (hn : n ≤ s.cardsList.ptrs.length) (hrem : ∀ c, removes s (.unregister id) = some c → c ∉ s.cardsList.ptrs.take n) :
    KeepsFirst n s ((unregisterNetdevice dev).run s).2 := by
  obtain ⟨-, rfl⟩ := findNetdev_mem hf
  have hunlist : KeepsFirst n s (s.unlistNetdevice dev.id) := ⟨hn, rfl, fun _ _ => rfl⟩
  simp only [unregisterNetdevice, Prog.run_bind, Prog.run_modify, netdevEvent_eq]
  cases hw : dev.wiphy with
  | none => exact hunlist
  | some w =>
    simp only [Prog.run_bind, run_hotplugRemove]
    have hrel : KeepsFirst n s ((releaseVif w dev).run (s.unlistNetdevice dev.id)).2 :=
      hunlist.trans ((grows_vifCallback (Or.inr rfl)).keepsFirst hn)
    have hcard : ((releaseVif w dev).run (s.unlistNetdevice dev.id)).2.cardOf w = s.cardOf w := by
      rw [run_releaseVif, Kernel.released]
      split
      · rfl
      · split
        · rw [Kernel.setVif_cardOf]; rfl
        · rfl
    have hnet : ((releaseVif w dev).run (s.unlistNetdevice dev.id)).2.netdevs = s.netdevs.filter (·.id != dev.id) := by
      rw [run_releaseVif, Kernel.released]
      split
      · rfl
      · split <;> rfl
    have hany : ((initNetdevs ((releaseVif w dev).run (s.unlistNetdevice dev.id)).2).any fun d => d.wiphy == some w) =
        s.netdevs.any fun d => d.net == 0 && d.id != dev.id && d.wiphy == some w := by
      simp [initNetdevs, hnet, List.any_filter, Bool.and_assoc]
    rw [hany, hcard]
    split
    · exact hrel
    · rename_i hlast
      cases hc : s.cardOf w with
      | none => exact hrel
      | some c =>
        refine hrel.trans (keepsFirst_delCard hrel.le ?_)
        rw [hrel.take]
        refine hrem c ?_
        simp only [removes, hf, hw, hdown, Bool.false_or, hc]
        exact if_neg hlast

/-- A step that removes none of the first `n` cards keeps them. -/
theorem keepsFirst_envStep {e : EnvStep} (hn : n ≤ s.cardsList.ptrs.length)
    (hrem : ∀ c, removes s e = some c → c ∉ s.cardsList.ptrs.take n) : KeepsFirst n s (envStep s e) := by
  cases e with
  | clock tsf ktimeNs => exact ⟨hn, rfl, fun _ _ => rfl⟩
  | register env dev =>
    rw [envStep]
    cases h : rtnlStep s (.register env dev) with
    | none => exact .refl hn
    | some s' =>
      obtain ⟨-, -, rfl⟩ := rtnlStep_register h
      have hlist : KeepsFirst n s (s.listNetdevice dev) := ⟨hn, rfl, fun _ _ => rfl⟩
      simpa [registerNetdevice] using
        hlist.trans ((grows_netdevEvent env .register (by decide) dev).keepsFirst hn)
  | up id =>
    rw [envStep]
    cases h : rtnlStep s (.up id) with
    | none => exact .refl hn
    | some s' =>
      obtain ⟨dev, hf, -, rfl⟩ := rtnlStep_up h
      have hset : KeepsFirst n s (s.setUp id true) := ⟨hn, rfl, fun _ _ => rfl⟩
      simpa [devOpen, callNotifier, findNetdev_setUp hf] using
        hset.trans ((grows_netdevEvent .unused .up (by decide) { dev with up := true }).keepsFirst hn)
  | down id =>
    rw [envStep]
    cases h : rtnlStep s (.down id) with
    | none => exact .refl hn
    | some s' =>
      obtain ⟨dev, hf, -, rfl⟩ := rtnlStep_down h
      have hset : KeepsFirst n s (s.setUp id false) := ⟨hn, rfl, fun _ _ => rfl⟩
      simpa [devClose, callNotifier, findNetdev_setUp hf] using
        hset.trans ((grows_netdevEvent .unused .down (by decide) { dev with up := false }).keepsFirst hn)
  | unregister id =>
    rw [envStep]
    cases h : rtnlStep s (.unregister id) with
    | none => exact .refl hn
    | some s' =>
      obtain ⟨dev, hf, hdown, rfl⟩ := rtnlStep_unregister h
      exact keepsFirst_unregister hf hdown hn hrem

end KeepsFirst

/-! ## Runs of Mode C -/

/-- A sequence of steps. -/
def envSteps (es : List EnvStep) (s : Kernel) : Kernel := es.foldl envStep s

/-- After start-up: a step of the kernel, or a cycle with steps of the kernel between its read and its write. -/
inductive ModeCStep
  | env (e : EnvStep)
  | cycle (between : List EnvStep)

/-- The state after a cycle. -/
def afterCycle (self : IoUringSyncer) (between : List EnvStep) (s : Kernel) : Kernel :=
  ((self.syncOnce (devTsfSync (Prog.modify (envSteps between)))).run s).2

/-- The state after a read. -/
def afterRead (s : Kernel) : Kernel := s.cardsList.ptrs.foldl peeked s

/-- The card that a write applies an adjustment to, if any. -/
def target (s : Kernel) (adj : Uapi.TsfAdjustment) : Option CardPtr :=
  if belowThreshold s.adjtimeThresholdNs adj.deltaNs then none
  else (findByIndex s.cardsList.ptrs adj.cardIndex).filter fun c => (s.card c).vif.isSome

/-- In a cycle that reads in `s` and writes in `s₁` the reference is of the phy `w`, and every adjustment is applied to
the card that its snapshot was read from, which is still of the same phy, or is not applied. -/
def CycleKeeps (self : IoUringSyncer) (w : WiphyId) (s s₁ : Kernel) : Prop :=
  (∀ c, (visible s)[self.primaryIndex.toNat]? = some c → s.wiphyOf c = w) ∧
  ∀ adj ∈ self.adjustments s, ∀ c, target s₁ adj = some c →
    (visible s)[adj.cardIndex.toNat]? = some c ∧ s₁.wiphyOf c = s.wiphyOf c

/-- **Card identity** in every cycle of a run. -/
def IdentityKept (self : IoUringSyncer) (w : WiphyId) : List ModeCStep → Kernel → Prop
  | [], _ => True
  | .env e :: steps, s => IdentityKept self w steps (envStep s e)
  | .cycle between :: steps, s =>
    CycleKeeps self w s (envSteps between (afterRead s)) ∧ IdentityKept self w steps (afterCycle self between s)

/-- No step removes one of the first `n` cards. -/
def RemovesBehind (n : Nat) : List EnvStep → Kernel → Prop
  | [], _ => True
  | e :: es, s => (∀ c, removes s e = some c → c ∉ s.cardsList.ptrs.take n) ∧ RemovesBehind n es (envStep s e)

/-- Every card that a run removes stands behind the primary and, between a read and its write, behind every card that is
to be adjusted. -/
def RunOk (self : IoUringSyncer) : List ModeCStep → Kernel → Prop
  | [], _ => True
  | .env e :: steps, s => RemovesBehind (self.primaryIndex.toNat + 1) [e] s ∧ RunOk self steps (envStep s e)
  | .cycle between :: steps, s =>
    (RemovesBehind (self.primaryIndex.toNat + 1) between (afterRead s) ∧
      ∀ adj ∈ self.adjustments s, RemovesBehind (adj.cardIndex.toNat + 1) between (afterRead s)) ∧
    RunOk self steps (afterCycle self between s)

section Runs

variable {self : IoUringSyncer} {s s' s₁ : Kernel} {n : Nat} {w : WiphyId}

theorem keepsFirst_afterRead (hn : n ≤ s.cardsList.ptrs.length) : KeepsFirst n s (afterRead s) :=
  ⟨by rw [afterRead, foldl_peeked_cardsList]; exact hn, by rw [afterRead, foldl_peeked_cardsList],
    fun c _ => by rw [Kernel.wiphyOf, afterRead, foldl_peeked_card]; rfl⟩

theorem keepsFirst_envSteps : ∀ (es : List EnvStep) {s : Kernel}, n ≤ s.cardsList.ptrs.length → RemovesBehind n es s →
    KeepsFirst n s (envSteps es s)
  | [], _, hn, _ => .refl hn
  | _ :: es, _, hn, h =>
    have h₁ := keepsFirst_envStep hn h.1
    h₁.trans (keepsFirst_envSteps es h₁.le h.2)

theorem keepsFirst_foldl_adjustedAt (threshold : UInt32) : ∀ (adjs : List Uapi.TsfAdjustment) {s : Kernel},
    n ≤ s.cardsList.ptrs.length → KeepsFirst n s (adjs.foldl (adjustedAt findByIndex threshold) s)
  | [], _, hn => .refl hn
  | adj :: adjs, s, hn => by
    have hlist := adjustedAt_cardsList findByIndex threshold s adj
    have hstep : KeepsFirst n s (adjustedAt findByIndex threshold s adj) := by
      refine ⟨by rw [hlist]; exact hn, by rw [hlist], fun c _ => ?_⟩
      rw [Kernel.wiphyOf, card_adjustedAt]
      split
      · rw [adjust_wiphy]; rfl
      · rfl
    exact hstep.trans (keepsFirst_foldl_adjustedAt threshold adjs hstep.le)

/-- A cycle keeps the cards that the steps between its accesses keep. -/
theorem keepsFirst_afterCycle {between : List EnvStep} (hn : n ≤ s.cardsList.ptrs.length)
    (h : RemovesBehind n between (afterRead s)) : KeepsFirst n s (afterCycle self between s) := by
  have hread := keepsFirst_afterRead hn
  rw [afterCycle, run_syncOnce]
  dsimp only
  split
  · exact hread
  · have hwrite := hread.trans (keepsFirst_envSteps between hread.le h)
    exact hwrite.trans (keepsFirst_foldl_adjustedAt _ _ hwrite.le)

/-- A position in front is the same card. -/
theorem KeepsFirst.getElem? (h : KeepsFirst n s s') {i : Nat} (hi : i < n) :
    s'.cardsList.ptrs[i]? = s.cardsList.ptrs[i]? := by
  rw [← List.getElem?_take_of_lt hi, h.take, List.getElem?_take_of_lt hi]

theorem KeepsFirst.wiphyOf (h : KeepsFirst n s s') {i : Nat} (hi : i < n) {c : CardPtr}
    (hc : s.cardsList.ptrs[i]? = some c) : s'.wiphyOf c = s.wiphyOf c := by
  refine h.wiphy c (List.mem_of_getElem? (i := i) ?_)
  rw [List.getElem?_take_of_lt hi, hc]

/-- An adjustment is applied to the card it was computed for. -/
theorem target_of_keepsFirst {adj : Uapi.TsfAdjustment} (hadj : adj ∈ self.adjustments s)
    (h : KeepsFirst (adj.cardIndex.toNat + 1) s s₁) {c : CardPtr} (ht : target s₁ adj = some c) :
    (visible s)[adj.cardIndex.toNat]? = some c ∧ s₁.wiphyOf c = s.wiphyOf c := by
  obtain ⟨primary, d, i, -, hi, -, -, rfl⟩ := mem_adjustments.mp hadj
  obtain ⟨hlt, hd⟩ := visible_getElem? hi
  have hidx : (UInt32.ofNat i).toNat = i := toNat_ofNat_visible hlt
  simp only [hidx] at h ⊢
  have hle := h.le
  have hfind : findByIndex s₁.cardsList.ptrs (UInt32.ofNat i) = some d := by
    rw [findByIndex_of_ne (by rw [hidx]; omega), findByPosition, hidx, h.getElem? (Nat.lt_succ_self i), hd]
  obtain rfl : d = c := by
    unfold target at ht
    split at ht
    · cases ht
    · rw [hfind, Option.filter_eq_some_iff] at ht
      exact Option.some.inj ht.1
  exact ⟨hi, h.wiphyOf (Nat.lt_succ_self i) hd⟩

/-- From a state with the primary in its place every cycle keeps identities. -/
theorem identityKept_of_keepsFirst {s₀ : Kernel} {c : CardPtr}
    (hc : s₀.cardsList.ptrs[self.primaryIndex.toNat]? = some c) : ∀ (steps : List ModeCStep) {s : Kernel},
    KeepsFirst (self.primaryIndex.toNat + 1) s₀ s → RunOk self steps s → IdentityKept self (s₀.wiphyOf c) steps s
  | [], _, _, _ => trivial
  | .env e :: steps, s, h, hok => by
    exact identityKept_of_keepsFirst hc steps (h.trans (keepsFirst_envSteps [e] h.le hok.1)) hok.2
  | .cycle between :: steps, s, h, hok => by
    obtain ⟨⟨hprimary, hadjs⟩, hrest⟩ := hok
    refine ⟨⟨fun d hd => ?_, fun adj hadj d ht => ?_⟩,
      identityKept_of_keepsFirst hc steps (h.trans (keepsFirst_afterCycle h.le hprimary)) hrest⟩
    · have hpos := (visible_getElem? hd).2
      rw [h.getElem? (Nat.lt_succ_self _), hc] at hpos
      obtain rfl := Option.some.inj hpos
      exact h.wiphyOf (Nat.lt_succ_self _) hc
    · have hlen : adj.cardIndex.toNat + 1 ≤ s.cardsList.ptrs.length := by
        obtain ⟨primary, d', i, -, hi, -, -, he⟩ := mem_adjustments.mp hadj
        obtain ⟨hlt, hd'⟩ := visible_getElem? hi
        rw [he, toNat_ofNat_visible hlt]
        exact (List.getElem?_eq_some_iff.mp hd').1
      have hread := keepsFirst_afterRead hlen
      exact target_of_keepsFirst hadj (hread.trans (keepsFirst_envSteps between hread.le (hadjs _ hadj))) ht

/-- The search of the start-up, over the visible cards. -/
theorem run_findPrimaryIndex (between : KProg Unit) (primaryPhy : List UInt8) (s : Kernel) :
    (findPrimaryIndex (devTsfSync between) primaryPhy).run s =
      (match (visible s).zipIdx.find? fun x => (snapshotOf s x.2 x.1).toUser.name == primaryPhy with
        | some x => .ok (UInt32.ofNat x.2)
        | none => .error .notFound, afterRead s) := by
  simp only [findPrimaryIndex, Prog.run_bind, run_readSnapshots, List.find?_map, Function.comp_def]
  cases (visible s).zipIdx.find? fun x => (snapshotOf s x.2 x.1).toUser.name == primaryPhy <;> rfl

/-- The index found at start-up is the position of a card with the name asked for. -/
theorem findPrimaryIndex_ok {primaryPhy : List UInt8} {p : UInt32}
    (h : ((findPrimaryIndex (devTsfSync (pure ())) primaryPhy).run s).1 = .ok p) :
    ∃ c, s.cardsList.ptrs[p.toNat]? = some c ∧ (snapshotOf s p.toNat c).toUser.name = primaryPhy := by
  rw [run_findPrimaryIndex] at h
  dsimp only at h
  split at h
  · rename_i x hf
    obtain ⟨c, i⟩ := x
    obtain ⟨hlt, hc⟩ := visible_getElem? (List.mem_zipIdx_iff_getElem?.mp (List.mem_of_find?_eq_some hf))
    obtain rfl : UInt32.ofNat i = p := Except.ok.inj h
    have hname := List.find?_some hf
    rw [toNat_ofNat_visible hlt]
    exact ⟨c, hc, by simpa using hname⟩
  · cases h

end Runs

/-- **Card identity survives** every run in which each removed card stands behind the primary and, between a read and
its write, behind the cards that are to be adjusted. -/
theorem identity_kept (primaryPhy : List UInt8) (s₀ : Kernel) (p : UInt32) (thresholdNs : Int64)
    (hstart : ((findPrimaryIndex (devTsfSync (pure ())) primaryPhy).run s₀).1 = .ok p) (steps : List ModeCStep)
    (hok : RunOk ⟨p, thresholdNs⟩ steps ((findPrimaryIndex (devTsfSync (pure ())) primaryPhy).run s₀).2) :
    ∃ c, s₀.cardsList.ptrs[p.toNat]? = some c ∧ (snapshotOf s₀ p.toNat c).toUser.name = primaryPhy ∧
      IdentityKept ⟨p, thresholdNs⟩ (s₀.wiphyOf c) steps
        ((findPrimaryIndex (devTsfSync (pure ())) primaryPhy).run s₀).2 := by
  obtain ⟨c, hc, hname⟩ := findPrimaryIndex_ok hstart
  rw [run_findPrimaryIndex] at hok ⊢
  have hlen : p.toNat + 1 ≤ s₀.cardsList.ptrs.length := (List.getElem?_eq_some_iff.mp hc).1
  exact ⟨c, hc, hname, identityKept_of_keepsFirst hc steps (keepsFirst_afterRead hlen) hok⟩

/-- A card with a name, both TSF ops, no VIF and no other state. -/
def Card.named (wiphy : WiphyId) (phyName : List UInt8) : Card :=
  { Card.zeroed with hw := ⟨wiphy, ⟨true, true⟩, 0⟩, phyName := .snprintf phyName }

/-- Three cards `a`, `b` and `c`, each with one device that is down. -/
def threeCards : Kernel :=
  { Kernel.withCards [.named 0 [97], .named 1 [98], .named 2 [99]] with
    netdevs := [.wlan 0 0 0 false, .wlan 1 0 1 false, .wlan 2 0 2 false] }

theorem threeCards_start : (findPrimaryIndex (devTsfSync (pure ())) [98]).run threeCards = (.ok 1, threeCards) := by
  rw [run_findPrimaryIndex]
  rfl

/-- With `b` as primary, `c` behind it goes away before a cycle and nothing happens during the cycle. -/
theorem identity_kept_behind : ∃ c, threeCards.cardsList.ptrs[1]? = some c ∧
    (snapshotOf threeCards 1 c).toUser.name = [98] ∧
    IdentityKept ⟨1, 5000⟩ (threeCards.wiphyOf c) [.env (.unregister 2), .cycle []]
      ((findPrimaryIndex (devTsfSync (pure ())) [98]).run threeCards).2 := by
  refine identity_kept [98] threeCards 1 5000 (by rw [threeCards_start]) _ ?_
  rw [threeCards_start]
  refine ⟨⟨fun c hc => ?_, trivial⟩, ⟨trivial, fun _ _ => trivial⟩, trivial⟩
  cases hc
  decide

/-- With `b` as primary, `a` in front of it goes away: the reference of the next cycle is `c`. -/
theorem reference_moves_counterexample :
    ((findPrimaryIndex (devTsfSync (pure ())) [98]).run threeCards).1 = .ok 1 ∧
      threeCards.wiphyOf (.card 1) = 1 ∧
      ¬IdentityKept ⟨1, 5000⟩ 1 [.env (.unregister 0), .cycle []]
        ((findPrimaryIndex (devTsfSync (pure ())) [98]).run threeCards).2 := by
  rw [threeCards_start]
  refine ⟨rfl, rfl, fun h => ?_⟩
  have href := h.1.1 (.card 2) rfl
  cases href

end TsfSync
