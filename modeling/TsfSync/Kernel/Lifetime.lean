import TsfSync.Kernel.UserCalls

/-!
# The life of a card

Outlines of what the thread under `rtnl_lock` calls (`outline_registryCall`). Between two calls the cards that are
allocated, those that have a clock and those on the list are the same (`Settled`); a probe has one card more that is
allocated and not yet registered (`Fresh`), or registered and not yet listed (`Unlisted`), and a removal passes through
the same two in the other order.

With the outlines of the other threads (`outline_userCall`) every schedule from module load on has them all.
-/

namespace TsfSync

open LockProg

namespace Lifetime

variable {ι α β : Type} [DecidableEq ι] {readers : List ι} {r : ι} {H : List (SysLock ι)} {P R : Sys → Prop}
  {Q : List (SysLock ι) → (Sys → Prop) → α → Prop} {c : CardPtr} {w : WiphyId}

/-! ## What the thread under `rtnl_lock` knows -/

/-- Every other allocated card is listed. -/
def OthersListed (c : CardPtr) (s : Sys) : Prop := ∀ d, d ≠ c → s.2.allocated d = true → d ∈ s.1.cardsList.ptrs

/-- Every allocated card is listed. -/
def Settled (s : Sys) : Prop := Ok s ∧ ∀ d, s.2.allocated d = true → d ∈ s.1.cardsList.ptrs

/-- A card is allocated and has no clock. -/
def Fresh (c : CardPtr) (s : Sys) : Prop :=
  Ok s ∧ OthersListed c s ∧ s.2.allocated c = true ∧ s.2.clock c = false

/-- A card has a clock and is not on the list. -/
def Unlisted (c : CardPtr) (s : Sys) : Prop :=
  Ok s ∧ OthersListed c s ∧ s.2.clock c = true ∧ c ∉ s.1.cardsList.ptrs

/-- The list holds these cards. -/
def Listing (cards : List CardPtr) (s : Sys) : Prop := s.1.cardsList.ptrs = cards

theorem regOnly_settled : RegOnly Settled :=
  fun _ _ h hs => ⟨h.ok hs.1, fun d hd => by rw [h.heap] at hd; rw [h.list]; exact hs.2 d hd⟩

theorem regOnly_othersListed (c : CardPtr) : RegOnly (OthersListed c) :=
  fun _ _ h hs d hne hd => by rw [h.heap] at hd; rw [h.list]; exact hs d hne hd

theorem regOnly_fresh (c : CardPtr) : RegOnly (Fresh c) :=
  fun s s' h hs => ⟨h.ok hs.1, regOnly_othersListed c s s' h hs.2.1, by rw [h.heap]; exact hs.2.2⟩

theorem regOnly_unlisted (c : CardPtr) : RegOnly (Unlisted c) :=
  fun s s' h hs => ⟨h.ok hs.1, regOnly_othersListed c s s' h hs.2.1, by rw [h.heap, h.list]; exact hs.2.2⟩

theorem regOnly_listing (cards : List CardPtr) : RegOnly (Listing cards) := fun _ _ h hs => h.list.trans hs

theorem RegOnly.and {P' : Sys → Prop} (h : RegOnly P) (h' : RegOnly P') : RegOnly fun s => P s ∧ P' s :=
  fun s s' hr hs => ⟨h s s' hr hs.1, h' s s' hr hs.2⟩

/-- Nobody else changes the registry. -/
theorem RegOnly.stable (h : RegOnly P) : (modulePromise readers r).Stable r H P := by
  intro j hj H' _ s s' hg hs
  change (if j = r then _ else _) at hg
  rw [if_neg hj] at hg
  exact h s s' hg.registry hs

theorem SameButFreed.heap {s t : Sys} (h : SameButFreed s t) : t.2 = s.2 := by
  obtain ⟨card, rfl, -⟩ := h
  rfl

theorem SameButFreed.list {s t : Sys} (h : SameButFreed s t) : t.1.cardsList = s.1.cardsList := by
  obtain ⟨card, rfl, -⟩ := h
  rfl

theorem SameButFreed.netdevs {s t : Sys} (h : SameButFreed s t) :
    t.1.netdevs = s.1.netdevs ∧ t.1.wiphyPriv = s.1.wiphyPriv := by
  obtain ⟨card, rfl, -⟩ := h
  exact ⟨rfl, rfl⟩

/-! ## Rules for the thread under `rtnl_lock` -/

/-- An action. -/
theorem outline_reg_act {upd : Sys → Sys} {k : Sys → SysProg ι α} (h : ∀ s, P s → RegistryStep readers H s (upd s) ∧
      (∀ t, SameButFreed s t → k t = k s ∧ SameButFreed (upd s) (upd t) ∧ Spares t (upd t)) ∧
      ∃ P', P' (upd s) ∧ RegOnly P' ∧ (modulePromise readers r).Outline r Q H P' (k s)) :
    (modulePromise readers r).Outline r Q H P (.act upd k) := by
  refine outline_act fun s hs => ?_
  obtain ⟨hstep, hsame, P', hP', hreg, hk⟩ := h s hs
  refine ⟨⟨?_, hsame⟩, P', hP', hreg.stable, hk⟩
  show if r = r then _ else _
  rw [if_pos rfl]
  exact hstep

omit [DecidableEq ι] in
/-- A step that changes neither the list nor a card nor the memory. -/
theorem RegistryStep.quiet {s s' : Sys} (hs : Ok s) (hlist : s'.1.cardsList = s.1.cardsList)
    (hcard : s'.1.card = s.1.card) (hdrv : s'.1.drv = s.1.drv) (hheap : s'.2 = s.2) :
    RegistryStep readers H s s' where
  drv := hdrv
  list := fun h => absurd (congrArg CardsList.ptrs hlist) h
  core := fun c _ => congrArg (fun f => (f c).core) hcard
  vif := fun c _ h => absurd (congrArg (fun f => (f c).vif) hcard) h
  tsf := fun c _ => congrArg (fun f => (f c).hw.tsf) hcard
  clock := fun c h h' => by rw [hheap, h] at h'; cases h'
  ok :=
    { listed := fun c hc => by rw [hheap]; exact hs.listed c (hlist ▸ hc)
      clocked := fun c hc => by rw [hheap] at hc ⊢; exact hs.clocked c hc
      head := by rw [hheap]; exact hs.head
      headVif := by rw [hcard]; exact hs.headVif
      misuse := by rw [hheap]; exact hs.misuse }

/-- A look at the memory. -/
theorem outline_reg_heap {g : Heap → β} {f : β → SysProg ι α} (hreg : RegOnly P) (hok : ∀ s, P s → Ok s)
    (hf : ∀ b, (modulePromise readers r).Outline r Q H P (f b)) :
    (modulePromise readers r).Outline r Q H P (Prog.read (fun s : Sys => g s.2) >>= f) :=
  outline_reg_act fun s hs => ⟨.quiet (hok s hs) rfl rfl rfl rfl,
    fun _ ht => ⟨congrArg (fun h => f (g h)) ht.heap, ht, .refl _⟩, P, hs, hreg, hf _⟩

/-- A look at the module's state. -/
theorem outline_reg_read {g : Kernel → β} {f : β → SysProg ι α} (hok : ∀ s, P s → Ok s)
    (hsame : ∀ s t, P s → SameButFreed s t → g t.1 = g s.1)
    (h : ∀ s, P s → ∃ P', P' s ∧ RegOnly P' ∧ (modulePromise readers r).Outline r Q H P' (f (g s.1))) :
    (modulePromise readers r).Outline r Q H P (lift (Prog.read g) >>= f) :=
  outline_reg_act fun s hs => ⟨.quiet (hok s hs) rfl rfl rfl rfl,
    fun t ht => ⟨congrArg f (hsame s t hs ht), ht, .refl t⟩, h s hs⟩

/-- A look at the net_devices. -/
theorem outline_reg_netdevs {g : Kernel → β} {f : β → SysProg ι α} (hreg : RegOnly P) (hok : ∀ s, P s → Ok s)
    (hg : ∀ s t : Kernel, t.netdevs = s.netdevs → t.wiphyPriv = s.wiphyPriv → g t = g s)
    (hf : ∀ b, (modulePromise readers r).Outline r Q H P (f b)) :
    (modulePromise readers r).Outline r Q H P (lift (Prog.read g) >>= f) :=
  outline_reg_read hok (fun s t _ ht => hg s.1 t.1 ht.netdevs.1 ht.netdevs.2) fun _ hs => ⟨P, hs, hreg, hf _⟩

/-- A release. -/
theorem outline_reg_release {l : SysLock ι} {f : Unit → SysProg ι α} (hreg : RegOnly P)
    (hf : (modulePromise readers r).Outline r Q H P (f ())) :
    (modulePromise readers r).Outline r Q (l :: H) P (Prog.release l >>= f) :=
  outline_release (fun _ h => h) hreg.stable hf

/-! ### Memory and clocks -/

section Memory

variable {F : Sys → Prop}

/-- Knowledge that does not depend on the memory. -/
def HeapFree (F : Sys → Prop) : Prop := RegOnly F ∧ ∀ s h, F s → F (s.1, h)

theorem heapFree_true : HeapFree fun _ => True := ⟨fun _ _ _ _ => trivial, fun _ _ _ => trivial⟩

theorem heapFree_listing (cards : List CardPtr) : HeapFree (Listing cards) := ⟨regOnly_listing cards, fun _ _ h => h⟩

/-- A card is allocated. -/
theorem outline_kzalloc (env : AllocEnv) {f : Option CardPtr → SysProg ι α}
    (hnone : (modulePromise readers r).Outline r Q H Settled (f none))
    (hsome : ∀ c, (modulePromise readers r).Outline r Q H (Fresh c) (f (some c))) :
    (modulePromise readers r).Outline r Q H Settled (kzalloc env >>= f) := by
  refine outline_reg_act fun s hs => ?_
  have hcont : ∀ answer, env.kzalloc s.2 = answer → ∀ t, SameButFreed s t →
      (Prog.ret ((env.kzalloc t.2).map (·.val)) : SysProg ι _).bind f = f (answer.map (·.val)) := by
    rintro _ rfl t ht
    rw [ht.heap]
    rfl
  have hself : SameButFreed s s := ⟨s.1.card, rfl, fun _ _ => rfl⟩
  cases hk : env.kzalloc s.2 with
  | none =>
    have htaken : ∀ t, SameButFreed s t → env.taken t = t := by
      rintro t ⟨card, rfl, -⟩
      simp only [AllocEnv.taken, hk]
    rw [htaken s hself]
    refine ⟨.quiet hs.1 rfl rfl rfl rfl, fun t ht => ⟨(hcont _ hk t ht).trans (hcont _ hk s hself).symm, ?_⟩, Settled,
      hs, regOnly_settled, by rw [hcont _ hk s hself]; exact hnone⟩
    rw [htaken t ht]
    exact ⟨ht, .refl t⟩
  | some c =>
    have htaken : ∀ t, SameButFreed s t → env.taken t = (t.1.setCard c.val fun _ => .zeroed, t.2.alloc c.val) := by
      rintro t ⟨card, rfl, -⟩
      simp only [AllocEnv.taken, hk]
    rw [htaken s hself]
    obtain ⟨c, hfree, hhead⟩ := c
    have hclock : s.2.clock c = false := by
      cases hcl : s.2.clock c with
      | false => rfl
      | true => rw [hs.1.clocked c hcl] at hfree; cases hfree
    have hne : ∀ d, s.2.clock d = true → d ≠ c := by
      rintro d hd rfl
      rw [hclock] at hd
      cases hd
    have hcard : ∀ d, d ≠ c → (s.1.setCard c fun _ => .zeroed).card d = s.1.card d := fun d => s.1.setCard_ne _
    have halloc : ∀ d, d ≠ c → (s.2.alloc c).allocated d = s.2.allocated d := fun d hd => Function.update_of_ne hd _ _
    have hok : Ok (s.1.setCard c fun _ => .zeroed, s.2.alloc c) :=
      { listed := hs.1.listed
        clocked := fun d hd => (halloc d (hne d hd)).trans (hs.1.clocked d hd)
        head := (halloc _ (Ne.symm hhead)).trans hs.1.head
        headVif := by rw [hcard _ (Ne.symm hhead)]; exact hs.1.headVif
        misuse := hs.1.misuse }
    refine ⟨⟨rfl, fun h => absurd rfl h, fun d hd => ?_, fun d hd h => absurd ?_ h, fun d hd => ?_,
      fun d hd h => ?_, hok⟩, fun t ht => ⟨(hcont _ hk t ht).trans (hcont _ hk s hself).symm, ?_⟩, Fresh c,
      ⟨hok, ?_, ?_, hclock⟩, regOnly_fresh c, by rw [hcont _ hk s hself]; exact hsome c⟩
    · exact congrArg Card.core (hcard d (hne d hd))
    · exact congrArg Card.vif (hcard d (hne d hd))
    · exact congrArg (·.hw.tsf) (hcard d (hne d hd))
    · exact absurd (hd.symm.trans h) (by simp)
    · rw [htaken t ht]
      obtain ⟨card, rfl, hlive⟩ := ht
      refine ⟨⟨_, rfl, fun d hd => ?_⟩, fun d _ _ hd => Function.update_of_ne ?_ _ _⟩
      · by_cases hdc : d = c
        · subst hdc; simp [Kernel.setCard]
        · have hd' : d = .head ∨ s.2.allocated d = true := hd.imp id fun h => (halloc d hdc).symm.trans h
          simpa [Kernel.setCard, hdc] using hlive d hd'
      · rintro rfl
        have hself : (s.2.alloc d).allocated d = true := Function.update_self ..
        exact absurd (hself.symm.trans hd) (by simp)
    · exact fun d hdc hd => hs.2 d ((halloc d hdc).symm.trans hd)
    · exact Function.update_self ..

/-- The fields of a new card are filled in. -/
theorem outline_writeFresh {g : Card → Card} {f : Unit → SysProg ι α}
    (hf : (modulePromise readers r).Outline r Q H (Fresh c) (f ())) :
    (modulePromise readers r).Outline r Q H (Fresh c) (lift (writeCard c g) >>= f) := by
  refine outline_reg_act fun s hs => ?_
  have hne : ∀ d, s.2.clock d = true → d ≠ c := by
    rintro d hd rfl
    rw [hs.2.2.2] at hd
    cases hd
  have hhead : CardPtr.head ≠ c := by
    rintro rfl
    have halloc := hs.2.2.1
    rw [hs.1.head] at halloc
    cases halloc
  have hcard : ∀ d, d ≠ c → (s.1.setCard c g).card d = s.1.card d := fun d => s.1.setCard_ne _
  have hok : Ok (s.1.setCard c g, s.2) :=
    { listed := hs.1.listed
      clocked := hs.1.clocked
      head := hs.1.head
      headVif := by rw [hcard _ hhead]; exact hs.1.headVif
      misuse := hs.1.misuse }
  refine ⟨⟨rfl, fun h => absurd rfl h, fun d hd => ?_, fun d hd h => absurd ?_ h, fun d hd => ?_,
    fun d hd h => ?_, hok⟩, fun t ht => ⟨rfl, ht.setCard hs.2.2.1 g⟩, Fresh c, ⟨hok, hs.2⟩, regOnly_fresh c, hf⟩
  · exact congrArg Card.core (hcard d (hne d hd))
  · exact congrArg Card.vif (hcard d (hne d hd))
  · exact congrArg (·.hw.tsf) (hcard d (hne d hd))
  · exact absurd (hd.symm.trans h) (by simp)

omit [DecidableEq ι] in
/-- A step that changes the memory only. -/
theorem RegistryStep.heap {s : Sys} {h : Heap} (hok : Ok (s.1, h))
    (hclock : ∀ c, s.2.clock c = true → h.clock c = false → ∀ i ∈ readers, .ptp c i ∈ H) :
    RegistryStep readers H s (s.1, h) :=
  ⟨rfl, fun h => absurd rfl h, fun _ _ => rfl, fun _ _ h => absurd rfl h, fun _ _ => rfl, hclock, hok⟩

/-- The clock of a new card is registered, or the error is stored. -/
theorem outline_ptpClockRegister (env : AllocEnv) {f : Except Errno Unit → SysProg ι α}
    (hok : (modulePromise readers r).Outline r Q H (Unlisted c) (f (.ok ())))
    (herr : ∀ e, (modulePromise readers r).Outline r Q H (Fresh c) (f (.error e))) :
    (modulePromise readers r).Outline r Q H (Fresh c) (ptpClockRegister env c >>= f) := by
  refine outline_reg_act fun s hs => ?_
  obtain ⟨hs, hoth, halloc, hclock⟩ := hs
  cases hreg : env.ptpClockRegister with
  | error e =>
    have hok' : Ok (s.1, s.2.registerFailed c e) := ⟨hs.listed, hs.clocked, hs.head, hs.headVif, hs.misuse⟩
    refine ⟨.heap hok' fun d hd h => absurd (hd.symm.trans h) (by simp), fun t ht => ?_, Fresh c,
      ⟨hok', hoth, halloc, hclock⟩, regOnly_fresh c, herr e⟩
    obtain ⟨card, rfl, hlive⟩ := ht
    exact ⟨rfl, ⟨card, rfl, hlive⟩, fun _ _ _ _ => rfl⟩
  | ok u =>
    have hself : (s.2.register c).clock c = true := Function.update_self ..
    have hne : ∀ d, d ≠ c → (s.2.register c).clock d = s.2.clock d := fun d hd => Function.update_of_ne hd _ _
    have hok' : Ok (s.1, s.2.register c) :=
      { listed := fun d hd => by
          by_cases hdc : d = c
          · subst hdc; exact hself
          · exact (hne d hdc).trans (hs.listed d hd)
        clocked := fun d hd => by
          by_cases hdc : d = c
          · subst hdc; exact halloc
          · exact hs.clocked d ((hne d hdc).symm.trans hd)
        head := hs.head
        headVif := hs.headVif
        misuse := by simp [Heap.register, hs.misuse, hclock] }
    have hlist : c ∉ s.1.cardsList.ptrs := fun h => by rw [hs.listed c h] at hclock; cases hclock
    refine ⟨.heap hok' fun d hd h => ?_, fun t ht => ?_, Unlisted c, ⟨hok', hoth, hself, hlist⟩, regOnly_unlisted c,
      hok⟩
    · by_cases hdc : d = c
      · subst hdc; rw [hself] at h; cases h
      · rw [hne d hdc, hd] at h; cases h
    · obtain ⟨card, rfl, hlive⟩ := ht
      exact ⟨rfl, ⟨card, rfl, hlive⟩, fun _ _ _ _ => rfl⟩

/-- A card without a clock is freed. -/
theorem outline_kfree (hF : HeapFree F) (freed : Int64) {f : Unit → SysProg ι α}
    (hf : (modulePromise readers r).Outline r Q H (fun s => Settled s ∧ F s) (f ())) :
    (modulePromise readers r).Outline r Q H (fun s => Fresh c s ∧ F s) (kfree c freed >>= f) := by
  refine outline_reg_act fun s hs => ?_
  obtain ⟨⟨hs, hoth, halloc, hclock⟩, hFs⟩ := hs
  have hself : (s.2.free c freed).allocated c = false := Function.update_self ..
  have hne : ∀ d, d ≠ c → (s.2.free c freed).allocated d = s.2.allocated d := fun d hd => Function.update_of_ne hd _ _
  have hclk : ∀ d, s.2.clock d = true → d ≠ c := by
    rintro d hd rfl
    rw [hclock] at hd
    cases hd
  have hok : Ok (s.1, s.2.free c freed) :=
    { listed := hs.listed
      clocked := fun d hd => (hne d (hclk d hd)).trans (hs.clocked d hd)
      head := by
        by_cases hc : CardPtr.head = c
        · subst hc; exact hself
        · exact (hne _ hc).trans hs.head
      headVif := hs.headVif
      misuse := by simp [Heap.free, hs.misuse, halloc] }
  refine ⟨.heap hok fun d hd h => absurd (hd.symm.trans h) (by simp), fun t ht => ?_, fun s => Settled s ∧ F s,
    ⟨⟨hok, fun d hd => ?_⟩, hF.2 s _ hFs⟩, regOnly_settled.and hF.1, hf⟩
  · obtain ⟨card, rfl, hlive⟩ := ht
    refine ⟨rfl, ⟨card, rfl, fun d hd => hlive d (hd.imp id fun h => ?_)⟩, fun _ _ _ _ => rfl⟩
    by_cases hdc : d = c
    · subst hdc; exact halloc
    · exact (hne d hdc).symm.trans h
  · by_cases hdc : d = c
    · subst hdc; exact absurd (hself.symm.trans hd) (by simp)
    · exact hoth d hdc ((hne d hdc).symm.trans hd)

/-- The clock of an unlisted card is unregistered, with all of its semaphore. -/
theorem outline_unregister (hF : HeapFree F) {f : Unit → SysProg ι α} (hH : ∀ i ∈ readers, .ptp c i ∈ H)
    (hf : (modulePromise readers r).Outline r Q H (fun s => Fresh c s ∧ F s) (f ())) :
    (modulePromise readers r).Outline r Q H (fun s => Unlisted c s ∧ F s)
      ((Prog.modify fun s : Sys => (s.1, s.2.unregister c)) >>= f) := by
  refine outline_reg_act fun s hs => ?_
  obtain ⟨⟨hs, hoth, hclock, hlist⟩, hFs⟩ := hs
  have hself : (s.2.unregister c).clock c = false := Function.update_self ..
  have hne : ∀ d, d ≠ c → (s.2.unregister c).clock d = s.2.clock d := fun d hd => Function.update_of_ne hd _ _
  have hok : Ok (s.1, s.2.unregister c) :=
    { listed := fun d hd => (hne d fun h => hlist (h ▸ hd)).trans (hs.listed d hd)
      clocked := fun d hd => by
        by_cases hdc : d = c
        · subst hdc; rw [hself] at hd; cases hd
        · exact hs.clocked d ((hne d hdc).symm.trans hd)
      head := hs.head
      headVif := hs.headVif
      misuse := by simp [Heap.unregister, hs.misuse, hclock] }
  refine ⟨.heap hok fun d hd h i hi => ?_, fun t ht => ?_, fun s => Fresh c s ∧ F s,
    ⟨⟨hok, hoth, hs.clocked c hclock, hself⟩, hF.2 s _ hFs⟩, (regOnly_fresh c).and hF.1, hf⟩
  · by_cases hdc : d = c
    · subst hdc; exact hH i hi
    · rw [hne d hdc, hd] at h; cases h
  · obtain ⟨card, rfl, hlive⟩ := ht
    exact ⟨rfl, ⟨card, rfl, hlive⟩, fun _ _ _ _ => rfl⟩

end Memory

/-! ### The list -/

omit [DecidableEq ι] in
/-- A step that changes the list only. -/
theorem RegistryStep.relink {s : Sys} {l : CardsList} (hH : .kernel .cards ∈ H)
    (hok : Ok ({ s.1 with cardsList := l }, s.2)) : RegistryStep readers H s ({ s.1 with cardsList := l }, s.2) :=
  ⟨rfl, fun _ => hH, fun _ _ => rfl, fun _ _ h => absurd rfl h, fun _ _ => rfl,
    fun _ h h' => absurd (h.symm.trans h') (by simp), hok⟩

theorem outline_findCard {f : Option CardPtr → SysProg ι α}
    (hnone : (modulePromise readers r).Outline r Q H Settled (f none))
    (hsome : ∀ c cards, c ∈ cards → (modulePromise readers r).Outline r Q H (fun s => Settled s ∧ Listing cards s)
      (f (some c))) :
    (modulePromise readers r).Outline r Q H Settled (lift (findCardByWiphyLocked w) >>= f) := by
  refine outline_reg_read (fun _ hs => hs.1) (fun s t hs ht => ht.find hs.1 fun k => k.hw.wiphy == w) fun s hs => ?_
  cases hfind : s.1.cardsList.ptrs.find? fun c => (s.1.card c).hw.wiphy == w with
  | none => exact ⟨Settled, hs, regOnly_settled, hnone⟩
  | some c =>
    exact ⟨_, ⟨hs, rfl⟩, regOnly_settled.and (regOnly_listing _), hsome c _ (List.mem_of_find?_eq_some hfind)⟩

/-- `list_add_tail`. -/
theorem outline_listAddTail (hH : .kernel .cards ∈ H) {f : Unit → SysProg ι α}
    (hf : (modulePromise readers r).Outline r Q H Settled (f ())) :
    (modulePromise readers r).Outline r Q H (Unlisted c) (lift (listAddTail c) >>= f) := by
  refine outline_reg_act fun s hs => ?_
  obtain ⟨hs, hoth, hclock, hlist⟩ := hs
  have hhead : c ≠ .head := by
    rintro rfl
    have halloc := hs.clocked _ hclock
    rw [hs.head] at halloc
    cases halloc
  have hptrs := s.1.cardsList.addTail_ptrs ⟨hlist, hhead⟩
  have hok : Ok ({ s.1 with cardsList := s.1.cardsList.addTail c }, s.2) :=
    { listed := fun d hd => by
        rw [hptrs, List.mem_append, List.mem_singleton] at hd
        rcases hd with hd | rfl
        · exact hs.listed d hd
        · exact hclock
      clocked := hs.clocked
      head := hs.head
      headVif := hs.headVif
      misuse := hs.misuse }
  refine ⟨.relink hH hok, fun t ht => ⟨rfl, ?_⟩, Settled, ⟨hok, fun d hd => ?_⟩, regOnly_settled, hf⟩
  · obtain ⟨card, rfl, hlive⟩ := ht
    exact ⟨⟨card, rfl, hlive⟩, fun _ _ _ _ => rfl⟩
  · show d ∈ (s.1.cardsList.addTail c).ptrs
    rw [hptrs, List.mem_append, List.mem_singleton]
    exact or_iff_not_imp_right.mpr fun hdc => hoth d hdc hd

/-- `list_del`. -/
theorem outline_listDel {cards : List CardPtr} (hH : .kernel .cards ∈ H) (hc : c ∈ cards) {f : Unit → SysProg ι α}
    (hf : (modulePromise readers r).Outline r Q H (fun s => Unlisted c s ∧ Listing (cards.erase c) s) (f ())) :
    (modulePromise readers r).Outline r Q H (fun s => Settled s ∧ Listing cards s) (lift (listDel c) >>= f) := by
  refine outline_reg_act fun s hs => ?_
  obtain ⟨⟨hs, hall⟩, rfl⟩ := hs
  have hok : Ok ({ s.1 with cardsList := s.1.cardsList.del c }, s.2) :=
    { listed := fun d hd => hs.listed d (List.mem_of_mem_erase hd)
      clocked := hs.clocked
      head := hs.head
      headVif := hs.headVif
      misuse := hs.misuse }
  refine ⟨.relink hH hok, fun t ht => ⟨rfl, ?_⟩, fun s' => Unlisted c s' ∧ Listing (s.1.cardsList.ptrs.erase c) s',
    ⟨⟨hok, fun d hdc hd => ?_, hs.listed c hc, ?_⟩, rfl⟩, (regOnly_unlisted c).and (regOnly_listing _), hf⟩
  · obtain ⟨card, rfl, hlive⟩ := ht
    exact ⟨⟨card, rfl, hlive⟩, fun _ _ _ _ => rfl⟩
  · exact (List.mem_erase_of_ne hdc).mpr (hall d hd)
  · exact fun h => (s.1.cardsList.nodup.mem_erase_iff.mp h).1 rfl

/-- A write of the VIF of a listed card, with its lock. -/
theorem outline_writeVif {cards : List CardPtr} (vif : Option DevId) (hc : c ∈ cards) (hH : .kernel (.card c) ∈ H)
    {f : Unit → SysProg ι α}
    (hf : (modulePromise readers r).Outline r Q H (fun s => Settled s ∧ Listing cards s) (f ())) :
    (modulePromise readers r).Outline r Q H (fun s => Settled s ∧ Listing cards s)
      (lift (writeCard c fun k => { k with vif := vif }) >>= f) := by
  refine outline_reg_act fun s hs => ?_
  obtain ⟨⟨hs, hall⟩, rfl⟩ := hs
  have hcard : ∀ d, d ≠ c → (s.1.setCard c fun k => { k with vif := vif }).card d = s.1.card d :=
    fun d => s.1.setCard_ne _
  have hself := s.1.setCard_self c fun k => { k with vif := vif }
  have hhead : CardPtr.head ≠ c := fun h => s.1.cardsList.noHead (h ▸ hc)
  have hok : Ok (s.1.setCard c fun k => { k with vif := vif }, s.2) :=
    { listed := hs.listed
      clocked := hs.clocked
      head := hs.head
      headVif := by rw [hcard _ hhead]; exact hs.headVif
      misuse := hs.misuse }
  refine ⟨⟨rfl, fun h => absurd rfl h, fun d _ => ?_, fun d _ h => ?_, fun d _ => ?_,
    fun _ h h' => absurd (h.symm.trans h') (by simp), hok⟩,
    fun t ht => ⟨rfl, ht.setCard (hs.clocked c (hs.listed c hc)) _⟩, _, ⟨⟨hok, hall⟩, rfl⟩,
    regOnly_settled.and (regOnly_listing _), hf⟩
  · by_cases hdc : d = c
    · subst hdc; exact (congrArg Card.core hself).trans rfl
    · exact congrArg Card.core (hcard d hdc)
  · by_cases hdc : d = c
    · subst hdc; exact hH
    · exact absurd (congrArg Card.vif (hcard d hdc)) h
  · by_cases hdc : d = c
    · subst hdc; exact (congrArg (fun k : Card => k.hw.tsf) hself).trans rfl
    · exact congrArg (fun k : Card => k.hw.tsf) (hcard d hdc)

/-! ## The functions under `rtnl_lock` -/

/-- Settled cards stay settled. -/
def KeepsSettled (readers : List ι) (r : ι) (p : SysProg ι α) : Prop :=
  (modulePromise readers r).Outline r (Ends [] Settled) [] Settled p

theorem keepsSettled_ret (a : α) : KeepsSettled readers r (Prog.ret a) := ⟨rfl, fun _ h => h⟩

theorem KeepsSettled.bind {p : SysProg ι β} {f : β → SysProg ι α} (hp : KeepsSettled readers r p)
    (hf : ∀ b, KeepsSettled readers r (f b)) : KeepsSettled readers r (p >>= f) :=
  outline_seq (closed_ends _ _) hp hf

theorem KeepsSettled.forM {f : β → SysProg ι PUnit} {xs : List β} (h : ∀ x ∈ xs, KeepsSettled readers r (f x)) :
    KeepsSettled readers r (forM xs f) := outline_forM h

/-- What is known of the list is forgotten. -/
theorem outline_forget {F : Sys → Prop} {p : SysProg ι α} (h : KeepsSettled readers r p) :
    (modulePromise readers r).Outline r (Ends [] Settled) [] (fun s => Settled s ∧ F s) p :=
  Promise.Outline.strengthen (closed_ends _ _) (fun _ hs => hs.1) h

/-- `NETDEV_UP` and `NETDEV_DOWN`: the VIF of a listed card is looked at and perhaps written. -/
theorem keepsSettled_vif (vif : Option DevId) (test : Option DevId → Bool) : KeepsSettled readers r (lift (do
    mutexLock .cards
    let card ← findCardByWiphyLocked w
    match card with
    | none => mutexUnlock .cards
    | some card =>
      mutexLock (.card card)
      let k ← readCard card
      if test k.vif then
        writeCard card fun k => { k with vif := vif }
      mutexUnlock (.card card)
      mutexUnlock .cards)) := by
  refine outline_user_acquire (by simp) ?_
  rw [lift_bind]
  refine outline_findCard (outline_user_release (f := pure) (fun _ h => h) regOnly_settled.stable ⟨rfl, fun _ h => h⟩)
    fun c cards hc => ?_
  have hreg : RegOnly fun s => Settled s ∧ Listing cards s := regOnly_settled.and (regOnly_listing _)
  refine outline_user_acquire (by simp) ?_
  rw [lift_bind]
  refine outline_reg_read (fun _ hs => hs.1.1) (fun s t hs ht => ht.card (hs.1.1.clocked c (hs.1.1.listed c ?_)))
    fun s hs => ⟨_, hs, hreg, ?_⟩
  · have hlist : s.1.cardsList.ptrs = cards := hs.2
    rw [hlist]
    exact hc
  have hend : (modulePromise readers r).Outline r (Ends [] Settled) [.kernel (.card c), .kernel .cards]
      (fun s => Settled s ∧ Listing cards s) (lift (do
        mutexUnlock (.card c)
        mutexUnlock .cards)) :=
    outline_user_release (fun _ h => h) hreg.stable
      (outline_user_release (f := pure) (fun _ h => h.1) regOnly_settled.stable ⟨rfl, fun _ h => h⟩)
  split
  · rw [lift_bind]
    exact outline_writeVif vif hc (by simp) hend
  · exact hend

theorem keepsSettled_captureVif (w : WiphyId) (dev : NetDev) : KeepsSettled readers r (lift (captureVif w dev)) :=
  keepsSettled_vif (some dev.id) (·.isNone)

theorem keepsSettled_releaseVif (w : WiphyId) (dev : NetDev) : KeepsSettled readers r (lift (releaseVif w dev)) :=
  keepsSettled_vif none (· == some dev.id)

/-- A clock's semaphore is taken for writing around the body, which then has all of it. -/
theorem outline_downWrite {body : SysProg ι Unit} (hR : RegOnly R) : ∀ {rs : List ι} {H : List (SysLock ι)}, rs.Nodup →
    (∀ i ∈ rs, .ptp c i ∉ H) → (∀ H', (∀ l ∈ H, l ∈ H') → (∀ i ∈ rs, .ptp c i ∈ H') →
      (modulePromise readers r).Outline r (Ends H' R) H' P body) →
    (modulePromise readers r).Outline r (Ends H R) H P (downWrite c body rs)
  | [], H, _, _, hbody => hbody H (fun _ h => h) (by simp)
  | i :: rs, H, hn, hfree, hbody => by
    obtain ⟨hi, hn⟩ := List.nodup_cons.mp hn
    refine outline_acquire (hfree i List.mem_cons_self) (outline_seq (closed_ends _ _)
      (outline_downWrite hR hn (fun j hj => ?_) fun H' hsub hall => hbody H' (fun l hl => ?_) fun j hj => ?_) fun _ => ?_)
    · have hne : j ≠ i := fun h => hi (h ▸ hj)
      simp [hne, hfree j (List.mem_cons_of_mem _ hj)]
    · exact hsub l (List.mem_cons_of_mem _ hl)
    · rcases List.mem_cons.mp hj with rfl | hj
      · exact hsub _ List.mem_cons_self
      · exact hall j hj
    · exact outline_release (f := pure) (fun _ h => h) hR.stable ⟨rfl, fun _ h => h⟩

section Removal

variable (hn : readers.Nodup)

include hn

/-- A card that is off the list is unregistered and freed. -/
theorem outline_tsfPtpRemove {F : Sys → Prop} (hF : HeapFree F) :
    (modulePromise readers r).Outline r (Ends [] fun s => Settled s ∧ F s) [] (fun s => Unlisted c s ∧ F s)
      (tsfPtpRemove readers c) := by
  have hfresh : RegOnly fun s => Fresh c s ∧ F s := (regOnly_fresh c).and hF.1
  refine outline_reg_read (fun _ hs => hs.1.1) (fun s t hs ht => ht.card (hs.1.1.clocked c hs.1.2.2.1)) fun s hs =>
    ⟨_, hs, (regOnly_unlisted c).and hF.1, ?_⟩
  refine outline_seq (M := []) (R := fun s => Fresh c s ∧ F s) (closed_ends _ _) ?_ fun _ => ?_
  · exact outline_downWrite hfresh hn (by simp) fun H' _ hall =>
      outline_unregister (f := pure) hF hall ⟨rfl, fun _ h => h⟩
  · exact outline_kfree (f := pure) hF 0 ⟨rfl, fun _ h => h⟩

theorem keepsSettled_hotplugRemove (w : WiphyId) : KeepsSettled readers r (tsfPtpTryHotplugRemove readers w) := by
  refine outline_reg_netdevs regOnly_settled (fun _ hs => hs.1) (fun s t hn _ => ?_) fun wiphyStillHasNetdev => ?_
  · simp only [initNetdevs, hn]
  split
  · exact keepsSettled_ret ()
  refine outline_acquire (by simp) (outline_findCard ?_ fun c cards hc => ?_)
  · exact outline_release (f := pure) (fun _ h => h) regOnly_settled.stable ⟨rfl, fun _ h => h⟩
  refine outline_listDel List.mem_cons_self hc (outline_reg_release ((regOnly_unlisted c).and (regOnly_listing _)) ?_)
  exact (outline_tsfPtpRemove hn (heapFree_listing _)).mono fun _ _ _ h => ⟨h.1, fun s hs => (h.2 s hs).1⟩

end Removal

/-- A probe. -/
theorem keepsSettled_probe (env : AllocEnv) (loc : Local w) : KeepsSettled readers r (tsfPtpProbe env loc) := by
  unfold tsfPtpProbe
  split
  · exact keepsSettled_ret _
  have hadd : ∀ c, (modulePromise readers r).Outline r (Ends [] Settled) [] (Unlisted c) (do
      Prog.acquire (.kernel .cards)
      lift (listAddTail c)
      Prog.release (.kernel .cards)
      return (0 : Int32)) := fun c =>
    outline_acquire (by simp) (outline_listAddTail List.mem_cons_self
      (outline_reg_release regOnly_settled (keepsSettled_ret _)))
  have hret : ∀ c, KeepsSettled readers r (Prog.read (fun s : Sys => (s.2.ptpClock c).toInt32) >>= pure) := fun c =>
    outline_reg_heap (g := fun h => (h.ptpClock c).toInt32) regOnly_settled (fun _ hs => hs.1) fun _ => keepsSettled_ret _
  have hweak : ∀ c s, Fresh c s → Fresh c s ∧ True := fun _ _ hs => ⟨hs, trivial⟩
  refine outline_acquire (by simp) (outline_findCard ?_ fun c cards hc => ?_)
  · refine outline_reg_release regOnly_settled (outline_kzalloc env (keepsSettled_ret _) fun c => outline_writeFresh
      (outline_ptpClockRegister env (hadd c) fun e => ?_))
    exact Promise.Outline.strengthen (closed_ends _ _) (hweak c) (outline_kfree (F := fun _ => True) heapFree_true
      env.freed (outline_forget (hret c)))
  · exact outline_reg_release (regOnly_settled.and (regOnly_listing _)) (outline_forget (keepsSettled_ret _))

theorem keepsSettled_hotplugProbe (env : AllocEnv) (w : WiphyId) :
    KeepsSettled readers r (tsfPtpTryHotplugProbe env w) := by
  refine outline_acquire (by simp) (outline_findCard ?_ fun c cards hc => ?_)
  · refine outline_reg_release regOnly_settled (outline_reg_netdevs regOnly_settled (fun _ hs => hs.1)
      (fun s t _ hpriv => by rw [hpriv]) fun loc => ?_)
    cases loc with
    | none => exact keepsSettled_ret ()
    | some loc => exact (keepsSettled_probe env loc).bind fun _ => keepsSettled_ret ()
  · exact outline_reg_release (regOnly_settled.and (regOnly_listing _)) (outline_forget (keepsSettled_ret _))

/-! ## The calls -/

section Calls

variable (hn : readers.Nodup)

include hn

theorem keepsSettled_netdevEvent (env : AllocEnv) (event : NetdevEvent) (dev : NetDev) :
    KeepsSettled readers r (tsfPtpNetdevEvent readers env event dev) := by
  unfold tsfPtpNetdevEvent
  split
  · exact keepsSettled_ret ()
  rename_i w _
  cases event with
  | register => exact keepsSettled_hotplugProbe env w
  | up => exact keepsSettled_captureVif w dev
  | down => exact keepsSettled_releaseVif w dev
  | unregister => exact (keepsSettled_releaseVif w dev).bind fun _ => keepsSettled_hotplugRemove hn w
  | other => exact keepsSettled_ret ()

omit hn in
theorem keepsSettled_discoverLoop (env : DevId → AllocEnv) : ∀ (devs : List NetDev) (count : Nat),
    KeepsSettled readers r (discoverLoop env devs count)
  | [], count => keepsSettled_ret count
  | dev :: devs, count => by
    unfold discoverLoop
    split
    · exact keepsSettled_discoverLoop env devs count
    · rename_i w _
      refine outline_reg_netdevs regOnly_settled (fun _ hs => hs.1) (fun s t _ hpriv => by rw [hpriv]) fun loc => ?_
      cases loc with
      | none => exact keepsSettled_discoverLoop env devs count
      | some loc => exact (keepsSettled_probe _ loc).bind fun ret => keepsSettled_discoverLoop env devs _

/-- The removal of the cards that are left. -/
theorem outline_removeCards : ∀ cards : List CardPtr, (modulePromise readers r).Outline r
    (Ends [.kernel .cards] fun s => Settled s ∧ Listing [] s) [.kernel .cards] (fun s => Settled s ∧ Listing cards s)
    (forM cards (removeCard readers))
  | [] => ⟨rfl, fun _ h => h⟩
  | c :: cards => by
    have hround : (modulePromise readers r).Outline r (Ends [.kernel .cards] fun s => Settled s ∧ Listing cards s)
        [.kernel .cards] (fun s => Settled s ∧ Listing (c :: cards) s) (removeCard readers c) := by
      have herase : (c :: cards).erase c = cards := by simp
      refine outline_listDel List.mem_cons_self List.mem_cons_self ?_
      rw [herase]
      refine outline_reg_release ((regOnly_unlisted c).and (regOnly_listing _)) ?_
      refine outline_seq (closed_ends _ _) (outline_tsfPtpRemove hn (heapFree_listing _)) fun _ => ?_
      exact outline_acquire (f := pure) (by simp) ⟨rfl, fun _ h => h⟩
    rw [List.forM_cons]
    exact outline_seq (closed_ends _ _) hround fun _ => outline_removeCards cards

/-- `tsf_ptp_exit` removes every card. -/
theorem outline_removeAll : (modulePromise readers r).Outline r (Ends [] fun s => Settled s ∧ Listing [] s) [] Settled
    (removeCards readers) := by
  refine outline_acquire (by simp) (outline_reg_read (fun _ hs => hs.1) (fun s t _ ht => by rw [ht.list]) fun s hs =>
    ⟨fun s' => Settled s' ∧ Listing s.1.cardsList.ptrs s', ⟨hs, rfl⟩, regOnly_settled.and (regOnly_listing _), ?_⟩)
  refine outline_seq (closed_ends _ _) (outline_removeCards hn _) fun _ => ?_
  exact outline_release (f := pure) (fun _ h => h) (regOnly_settled.and (regOnly_listing _)).stable ⟨rfl, fun _ h => h⟩

omit hn in
/-- A change of the net_devices. -/
theorem keepsSettled_netdevs {upd : Kernel → Kernel} (hupd : ∀ s, ∃ devs, upd s = { s with netdevs := devs })
    (hcard : ∀ (s : Kernel) card, upd { s with card := card } = { upd s with card := card }) :
    KeepsSettled readers r (lift (Prog.modify upd)) := by
  refine outline_reg_act fun s hs => ?_
  obtain ⟨devs, hdevs⟩ := hupd s.1
  have hquiet : RegistryStep readers [] s (upd s.1, s.2) := by
    rw [hdevs]
    exact .quiet hs.1 rfl rfl rfl rfl
  refine ⟨hquiet, ?_, Settled, ⟨hquiet.ok, fun d hd => ?_⟩, regOnly_settled, rfl, fun _ h => h⟩
  · rintro t ⟨card, rfl, hlive⟩
    refine ⟨rfl, ⟨card, by rw [hcard], fun d hd => ?_⟩, fun d _ _ _ => by rw [hcard]⟩
    rw [hlive d hd, hdevs]
  · show d ∈ (upd s.1).cardsList.ptrs
    rw [hdevs]
    exact hs.2 d hd

/-- The devices of `exit` go down and are unregistered, and then no card is left. -/
theorem outline_exit : (modulePromise readers r).Outline r (Ends [] fun s => Settled s ∧ Listing [] s) [] Settled
    (RegistryCall.exit.prog readers) := by
  refine outline_reg_netdevs regOnly_settled (fun _ hs => hs.1) (fun s t hnet _ => hnet) fun devs => ?_
  refine outline_seq (closed_ends _ _) (KeepsSettled.forM fun dev _ => ?_) fun _ => outline_removeAll hn
  split
  · exact (keepsSettled_netdevEvent hn _ _ dev).bind fun _ => keepsSettled_netdevEvent hn _ _ dev
  · exact keepsSettled_netdevEvent hn _ _ dev

/-- **What is called under `rtnl_lock` keeps its promise**, and leaves settled cards settled. -/
theorem keepsSettled_registryCall (call : RegistryCall) : KeepsSettled readers r (call.prog readers) := by
  have hevent := fun env event dev => keepsSettled_netdevEvent (r := r) hn env event dev
  cases call with
  | registerNotifier env =>
    refine outline_reg_netdevs regOnly_settled (fun _ hs => hs.1) (fun s t hnet _ => hnet) fun devs => ?_
    refine KeepsSettled.forM fun dev _ => (hevent _ _ dev).bind fun _ => ?_
    split
    · exact hevent _ _ dev
    · exact keepsSettled_ret _
  | discover env =>
    refine outline_reg_netdevs regOnly_settled (fun _ hs => hs.1) (fun s t hnet _ => by simp only [initNetdevs, hnet])
      fun devs => ?_
    exact (keepsSettled_discoverLoop env devs 0).bind fun _ => keepsSettled_ret ()
  | scan =>
    show KeepsSettled readers r (lift (Prog.read initNetdevs >>= fun devs => forM devs scanExistingVif))
    rw [lift_bind]
    refine outline_reg_netdevs regOnly_settled (fun _ hs => hs.1) (fun s t hnet _ => by simp only [initNetdevs, hnet])
      fun devs => ?_
    rw [lift_forM]
    refine KeepsSettled.forM fun dev _ => ?_
    unfold scanExistingVif
    split
    · exact keepsSettled_ret ()
    split
    · exact keepsSettled_captureVif _ dev
    · exact keepsSettled_ret ()
  | register env dev =>
    exact (keepsSettled_netdevs (fun s => ⟨_, rfl⟩) fun _ _ => rfl).bind fun _ => hevent _ _ dev
  | up dev => exact (keepsSettled_netdevs (fun s => ⟨_, rfl⟩) fun _ _ => rfl).bind fun _ => hevent _ _ dev
  | down dev => exact (keepsSettled_netdevs (fun s => ⟨_, rfl⟩) fun _ _ => rfl).bind fun _ => hevent _ _ dev
  | unregister dev => exact (keepsSettled_netdevs (fun s => ⟨_, rfl⟩) fun _ _ => rfl).bind fun _ => hevent _ _ dev
  | exit => exact (outline_exit hn).mono fun _ _ _ h => ⟨h.1, fun s hs => (h.2 s hs).1⟩

end Calls

end Lifetime

end TsfSync
