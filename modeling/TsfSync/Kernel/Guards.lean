import Mathlib.Data.List.Find
import TsfSync.Lib.Outline
import TsfSync.Kernel.Heap
import TsfSync.Kernel.ModeB

/-!
# What each thread of the module promises

The promises of the threads (`modulePromise`). A thread of userspace or a worker leaves the list, the memory and the VIFs
alone and calls a driver only with the locks of the card and of its wiphy, with the VIF that the card holds and an op
that the driver has (`UserStep`). The thread under `rtnl_lock` changes the list with `cards_lock`, a card in use with its
lock, and unregisters a clock with all of its semaphore (`RegistryStep`). And no step of either looks at a freed card,
that is, tells apart states that differ in freed cards only (`SameButFreed`), or writes one (`Spares`).

A card is pinned (`Pins`) by the semaphore of its clock or by `cards_lock`; a pinned card stays allocated, and keeps its
VIF while its lock is held.
-/

namespace TsfSync

open LockProg Uapi

/-- The fields of a card that nothing writes once the probe has filled them in. -/
def Card.core (k : Card) : Card :=
  { k with hw := { k.hw with tsf := 0 }, vif := none, lastOffsetNs := 0, syncCount := 0, syncErrorCount := 0 }

/-- The VIF that a driver is called with. -/
def DrvCall.vif : DrvCall → DevId
  | .getTsf _ vif | .setTsf _ vif _ => vif

/-- The driver has the op that is called. -/
def DrvCall.HasOp (ops : Ops) : DrvCall → Prop
  | .getTsf _ _ => ops.getTsf = true
  | .setTsf _ _ _ => ops.setTsf = true

namespace Lifetime

variable {ι α β : Type}

/-! ## The promises -/

/-- The states differ in cards that are not allocated only; the list head is memory of the module. -/
def SameButFreed (s t : Sys) : Prop :=
  ∃ card, t = ({ s.1 with card := card }, s.2) ∧ ∀ c, c = .head ∨ s.2.allocated c = true → card c = s.1.card c

/-- No freed card is written. -/
def Spares (s s' : Sys) : Prop :=
  ∀ c, c ≠ .head → s.2.allocated c = false → s'.2.allocated c = false → s'.1.card c = s.1.card c

/-- Every listed card has a clock, every card with a clock is allocated, no memory has been misused, and the list head
read as a card has no VIF. -/
structure Ok (s : Sys) : Prop where
  listed : ∀ c ∈ s.1.cardsList.ptrs, s.2.clock c = true
  clocked : ∀ c, s.2.clock c = true → s.2.allocated c = true
  head : s.2.allocated .head = false
  headVif : (s.1.card .head).vif = none
  misuse : s.2.misuse = false

/-- The list, the memory, the net_devices and what the cards hold of them are the same. -/
structure SameRegistry (s s' : Sys) : Prop where
  list : s'.1.cardsList.ptrs = s.1.cardsList.ptrs
  core : ∀ c, (s'.1.card c).core = (s.1.card c).core
  vif : ∀ c, (s'.1.card c).vif = (s.1.card c).vif
  netdevs : s'.1.netdevs = s.1.netdevs
  wiphyPriv : s'.1.wiphyPriv = s.1.wiphyPriv
  heap : s'.2 = s.2

/-- A driver is called as mac80211 wants it: for a card with a clock, under the locks of the card and of its wiphy, with
the VIF that the card holds, and for an op that it has. -/
structure DrvOk (H : List (SysLock ι)) (s : Sys) (call : DrvCall) : Prop where
  clock : s.2.clock call.card = true
  cardLock : .kernel (.card call.card) ∈ H
  wiphyLock : .kernel (.wiphy (s.1.card call.card).hw.wiphy) ∈ H
  vif : (s.1.card call.card).vif = some call.vif
  op : call.HasOp (s.1.card call.card).hw.ops

/-- What a thread of userspace or a worker may do: a TSF changes by a `set_tsf` call only. -/
structure UserStep (H : List (SysLock ι)) (s s' : Sys) : Prop where
  registry : SameRegistry s s'
  drv : s'.1.drv = s.1.drv ∨ ∃ call, s'.1.drv = s.1.drv ++ [call] ∧ DrvOk H s call
  tsf : ∀ c, (s'.1.card c).hw.tsf ≠ (s.1.card c).hw.tsf →
    ∃ vif, s'.1.drv = s.1.drv ++ [.setTsf c vif (s'.1.card c).hw.tsf]

/-- What the thread under `rtnl_lock` may do. -/
structure RegistryStep (readers : List ι) (H : List (SysLock ι)) (s s' : Sys) : Prop where
  drv : s'.1.drv = s.1.drv
  list : s'.1.cardsList.ptrs ≠ s.1.cardsList.ptrs → .kernel .cards ∈ H
  core : ∀ c, s.2.clock c = true → (s'.1.card c).core = (s.1.card c).core
  vif : ∀ c, s.2.clock c = true → (s'.1.card c).vif ≠ (s.1.card c).vif → .kernel (.card c) ∈ H
  tsf : ∀ c, s.2.clock c = true → (s'.1.card c).hw.tsf = (s.1.card c).hw.tsf
  clock : ∀ c, s.2.clock c = true → s'.2.clock c = false → ∀ i ∈ readers, .ptp c i ∈ H
  ok : Ok s'

/-- The promises of thread `r` under `rtnl_lock` and of all others. -/
def modulePromise [DecidableEq ι] (readers : List ι) (r : ι) : Promise ι Sys (SysLock ι) where
  guar := fun i H s s' => if i = r then RegistryStep readers H s s' else UserStep H s s'
  same := SameButFreed
  frame := Spares

theorem Spares.refl (s : Sys) : Spares s s := fun _ _ _ _ => rfl

theorem SameRegistry.refl (s : Sys) : SameRegistry s s := ⟨rfl, fun _ => rfl, fun _ => rfl, rfl, rfl, rfl⟩

theorem SameRegistry.ok {s s' : Sys} (h : SameRegistry s s') (hs : Ok s) : Ok s' where
  listed := fun c hc => by rw [h.heap]; exact hs.listed c (h.list ▸ hc)
  clocked := fun c hc => by rw [h.heap] at hc ⊢; exact hs.clocked c hc
  head := by rw [h.heap]; exact hs.head
  headVif := (h.vif _).trans hs.headVif
  misuse := by rw [h.heap]; exact hs.misuse

/-- A change that is not one of the cards. -/
theorem UserStep.quiet {H : List (SysLock ι)} {s : Sys} {s' : Kernel} (hlist : s'.cardsList = s.1.cardsList)
    (hcard : s'.card = s.1.card) (hnet : s'.netdevs = s.1.netdevs) (hpriv : s'.wiphyPriv = s.1.wiphyPriv)
    (hdrv : s'.drv = s.1.drv) : UserStep H s (s', s.2) where
  registry := ⟨congrArg CardsList.ptrs hlist, fun c => congrArg (Card.core <| · c) hcard,
    fun c => congrArg (Card.vif <| · c) hcard, hnet, hpriv, rfl⟩
  drv := .inl hdrv
  tsf := fun c h => absurd (congrArg (fun f => (f c).hw.tsf) hcard) h

/-- A change of a field that userspace and the workers may write. -/
theorem UserStep.setCard {H : List (SysLock ι)} {s : Sys} (c : CardPtr) {f : Card → Card}
    (hf : ∀ k, (f k).core = k.core ∧ (f k).vif = k.vif ∧ (f k).hw.tsf = k.hw.tsf) :
    UserStep H s (s.1.setCard c f, s.2) := by
  have hcard : ∀ d, ((s.1.setCard c f).card d).core = (s.1.card d).core ∧
      ((s.1.setCard c f).card d).vif = (s.1.card d).vif ∧
        ((s.1.setCard c f).card d).hw.tsf = (s.1.card d).hw.tsf := by
    intro d
    by_cases hd : d = c
    · subst hd; rw [Kernel.setCard_self]; exact hf _
    · rw [Kernel.setCard_ne _ _ hd]; exact ⟨rfl, rfl, rfl⟩
  exact ⟨⟨rfl, fun d => (hcard d).1, fun d => (hcard d).2.1, rfl, rfl, rfl⟩, .inl rfl,
    fun d h => absurd (hcard d).2.2 h⟩

/-- A call of `get_tsf`. -/
theorem UserStep.getTsf {H : List (SysLock ι)} {s : Sys} {c : CardPtr} {vif : DevId}
    (h : DrvOk H s (.getTsf c vif)) : UserStep H s ({ s.1 with drv := s.1.drv ++ [.getTsf c vif] }, s.2) :=
  ⟨⟨rfl, fun _ => rfl, fun _ => rfl, rfl, rfl, rfl⟩, .inr ⟨_, rfl, h⟩, fun _ hd => absurd rfl hd⟩

/-- A call of `set_tsf`. -/
theorem UserStep.setTsf {H : List (SysLock ι)} {s : Sys} {c : CardPtr} {vif : DevId} {tsf : UInt64}
    (h : DrvOk H s (.setTsf c vif tsf)) :
    UserStep H s ({ s.1.setCard c (fun k => { k with hw := { k.hw with tsf := tsf } }) with
      drv := s.1.drv ++ [.setTsf c vif tsf] }, s.2) := by
  have hself := s.1.setCard_self c fun k => { k with hw := { k.hw with tsf := tsf } }
  have hne : ∀ d, d ≠ c → _ := fun d => s.1.setCard_ne fun k => { k with hw := { k.hw with tsf := tsf } }
  refine ⟨⟨rfl, fun d => ?_, fun d => ?_, rfl, rfl, rfl⟩, .inr ⟨_, rfl, h⟩, fun d hd => ?_⟩
  · by_cases hdc : d = c
    · subst hdc
      exact (congrArg Card.core hself).trans rfl
    · exact congrArg Card.core (hne d hdc)
  · by_cases hdc : d = c
    · subst hdc
      exact (congrArg Card.vif hself).trans rfl
    · exact congrArg Card.vif (hne d hdc)
  · by_cases hdc : d = c
    · subst hdc
      exact ⟨vif, congrArg (fun k : Card => s.1.drv ++ [DrvCall.setTsf d vif k.hw.tsf]) hself.symm⟩
    · exact absurd (congrArg (fun k : Card => k.hw.tsf) (hne d hdc)) hd

/-- A write to an allocated card keeps what freed cards hold apart. -/
theorem SameButFreed.setCard {s t : Sys} (h : SameButFreed s t) {c : CardPtr} (hc : s.2.allocated c = true)
    (f : Card → Card) :
    SameButFreed (s.1.setCard c f, s.2) (t.1.setCard c f, t.2) ∧ Spares t (t.1.setCard c f, t.2) := by
  obtain ⟨card, rfl, hlive⟩ := h
  refine ⟨⟨_, rfl, fun d hd => ?_⟩, fun d _ hd _ => Kernel.setCard_ne _ f ?_⟩
  rotate_left
  · rintro rfl
    exact absurd (hc.symm.trans hd) (by simp)
  show Function.update card c (f (card c)) d = Function.update s.1.card c (f (s.1.card c)) d
  rw [hlive c (.inr hc)]
  by_cases hdc : d = c
  · subst hdc; simp
  · rw [Function.update_of_ne hdc, Function.update_of_ne hdc, hlive d hd]

/-- Calls of a driver are logged whatever freed cards hold. -/
theorem SameButFreed.log {s t : Sys} (h : SameButFreed s t) (calls : List DrvCall) :
    SameButFreed ({ s.1 with drv := s.1.drv ++ calls }, s.2) ({ t.1 with drv := t.1.drv ++ calls }, t.2) ∧
      Spares t ({ t.1 with drv := t.1.drv ++ calls }, t.2) := by
  obtain ⟨card, rfl, hlive⟩ := h
  exact ⟨⟨card, rfl, hlive⟩, fun _ _ _ _ => rfl⟩

theorem SameButFreed.card {s t : Sys} (h : SameButFreed s t) {c : CardPtr} (hc : s.2.allocated c = true) :
    t.1.card c = s.1.card c := by
  obtain ⟨card, rfl, hlive⟩ := h
  exact hlive c (.inr hc)

/-- What a walk of the list finds depends on allocated cards only. -/
theorem SameButFreed.find {s t : Sys} (h : SameButFreed s t) (hs : Ok s) (p : Card → Bool) :
    (t.1.cardsList.ptrs.find? fun c => p (t.1.card c)) = s.1.cardsList.ptrs.find? fun c => p (s.1.card c) := by
  obtain ⟨card, rfl, hlive⟩ := h
  refine List.find?_congr fun c hc => ?_
  exact congrArg p (hlive c (.inr (hs.clocked c (hs.listed c hc))))

theorem Card.wiphy_of_core {k k' : Card} (h : k.core = k'.core) :
    k.hw.wiphy = k'.hw.wiphy ∧ k.hw.ops = k'.hw.ops :=
  ⟨congrArg (·.hw.wiphy) h, congrArg (·.hw.ops) h⟩

/-! ## What a thread of userspace may know -/

variable [DecidableEq ι] {readers : List ι} {r i : ι} {H : List (SysLock ι)} {P Pin : Sys → Prop}
  {Q : List (SysLock ι) → (Sys → Prop) → α → Prop}

/-- Knowledge about the registry only. -/
def RegOnly (P : Sys → Prop) : Prop := ∀ s s', SameRegistry s s' → P s → P s'

/-- Knowledge about the registry that the thread under `rtnl_lock` leaves alone is stable. -/
theorem stable_of_registry (hP : RegOnly P) (h : ∀ H', (∀ l ∈ H, l ∉ H') → ∀ s s',
    RegistryStep readers H' s s' → P s → P s') : (modulePromise readers r).Stable i H P := by
  intro j _ H' hH' s s' hg hs
  change (if j = r then _ else _) at hg
  split at hg
  · exact h H' hH' s s' hg hs
  · exact hP s s' hg.registry hs

theorem regOnly_ok : RegOnly Ok := fun _ _ h hs => h.ok hs

theorem stable_ok : (modulePromise readers r).Stable i H Ok :=
  stable_of_registry regOnly_ok fun _ _ _ _ hg _ => hg.ok

/-- A thread in an operation of a clock. -/
def InOp (c : CardPtr) (s : Sys) : Prop := Ok s ∧ s.2.clock c = true

/-- A thread with `cards_lock`. -/
def WithList (cards : List CardPtr) (s : Sys) : Prop := Ok s ∧ s.1.cardsList.ptrs = cards

/-- A thread that has looked at a pinned card. -/
def WithCore (Pin : Sys → Prop) (c : CardPtr) (k : Card) (s : Sys) : Prop := Pin s ∧ (s.1.card c).core = k.core

/-- A thread with the lock of a pinned card. -/
def WithCard (Pin : Sys → Prop) (c : CardPtr) (k : Card) (s : Sys) : Prop :=
  WithCore Pin c k s ∧ (s.1.card c).vif = k.vif

/-- The card cannot go away while `Pin` is known. -/
structure Pins (Pin : Sys → Prop) (c : CardPtr) : Prop where
  regOnly : RegOnly Pin
  ok : ∀ s, Pin s → Ok s
  clock : ∀ s, Pin s → s.2.clock c = true

theorem Pins.allocated {c : CardPtr} (h : Pins Pin c) {s : Sys} (hs : Pin s) : s.2.allocated c = true :=
  (h.ok s hs).clocked c (h.clock s hs)

theorem pins_inOp (c : CardPtr) : Pins (InOp c) c where
  regOnly := fun _ _ h hs => ⟨h.ok hs.1, by rw [h.heap]; exact hs.2⟩
  ok := fun _ hs => hs.1
  clock := fun _ hs => hs.2

theorem pins_withList {cards : List CardPtr} {c : CardPtr} (hc : c ∈ cards) : Pins (WithList cards) c where
  regOnly := fun _ _ h hs => ⟨h.ok hs.1, h.list.trans hs.2⟩
  ok := fun _ hs => hs.1
  clock := fun _ hs => hs.1.listed c (hs.2 ▸ hc)

/-- `ptp_clock_unregister` waits for the operation. -/
theorem stable_inOp {c : CardPtr} (hi : i ∈ readers) (hH : .ptp c i ∈ H) :
    (modulePromise readers r).Stable i H (InOp c) := by
  refine stable_of_registry (pins_inOp c).regOnly fun H' hH' s s' hg hs => ⟨hg.ok, ?_⟩
  cases hc : s'.2.clock c with
  | true => rfl
  | false => exact absurd (hg.clock c hs.2 hc i hi) (hH' _ hH)

/-- Nobody changes the list without `cards_lock`. -/
theorem stable_withList {cards : List CardPtr} (hH : .kernel .cards ∈ H) :
    (modulePromise readers r).Stable i H (WithList cards) := by
  refine stable_of_registry (fun _ _ h hs => ⟨h.ok hs.1, h.list.trans hs.2⟩) fun H' hH' s s' hg hs => ⟨hg.ok, ?_⟩
  by_cases hl : s'.1.cardsList.ptrs = s.1.cardsList.ptrs
  · exact hl.trans hs.2
  · exact absurd (hg.list hl) (hH' _ hH)

theorem Pins.withCore {c : CardPtr} (h : Pins Pin c) (k : Card) : Pins (WithCore Pin c k) c where
  regOnly := fun s s' hr hs => ⟨h.regOnly s s' hr hs.1, (hr.core c).trans hs.2⟩
  ok := fun s hs => h.ok s hs.1
  clock := fun s hs => h.clock s hs.1

theorem Pins.withCard {c : CardPtr} (h : Pins Pin c) (k : Card) : Pins (WithCard Pin c k) c where
  regOnly := fun s s' hr hs => ⟨(h.withCore k).regOnly s s' hr hs.1, (hr.vif c).trans hs.2⟩
  ok := fun s hs => (h.withCore k).ok s hs.1
  clock := fun s hs => (h.withCore k).clock s hs.1

/-- Nobody changes the hardware of a pinned card. -/
theorem stable_withCore {c : CardPtr} (h : Pins Pin c) (hst : (modulePromise readers r).Stable i H Pin) (k : Card) :
    (modulePromise readers r).Stable i H (WithCore Pin c k) := by
  intro j hj H' hH' s s' hg hs
  refine ⟨hst j hj H' hH' s s' hg hs.1, ?_⟩
  change (if j = r then _ else _) at hg
  split at hg
  · exact (hg.core c (h.clock s hs.1)).trans hs.2
  · exact (hg.registry.core c).trans hs.2

/-- Nobody changes the VIF of a pinned card without its lock. -/
theorem stable_withCard {c : CardPtr} (h : Pins Pin c) (hst : (modulePromise readers r).Stable i H Pin) (k : Card)
    (hH : .kernel (.card c) ∈ H) : (modulePromise readers r).Stable i H (WithCard Pin c k) := by
  intro j hj H' hH' s s' hg hs
  refine ⟨stable_withCore h hst k j hj H' hH' s s' hg hs.1, ?_⟩
  change (if j = r then _ else _) at hg
  split at hg
  · by_cases hvif : (s'.1.card c).vif = (s.1.card c).vif
    · exact hvif.trans hs.2
    · exact absurd (hg.vif c (h.clock s hs.1.1) hvif) (hH' _ hH)
  · exact (hg.registry.vif c).trans hs.2

/-! ## Rules for a thread of userspace -/

section Rules

variable (hir : i ≠ r)

include hir

/-- An action that keeps what the thread knows. -/
theorem outline_user_act {upd : Kernel → Kernel} {k : Kernel → KProg α} (hreg : RegOnly P)
    (hst : (modulePromise readers r).Stable i H P) (h : ∀ s, P s → UserStep H s (upd s.1, s.2) ∧
      (∀ t, SameButFreed s t → k t.1 = k s.1 ∧ SameButFreed (upd s.1, s.2) (upd t.1, t.2) ∧
        Spares t (upd t.1, t.2)) ∧
      (modulePromise readers r).Outline i Q H P (lift (k s.1))) :
    (modulePromise readers r).Outline i Q H P (lift (.act upd k)) := by
  refine outline_act fun s hs => ?_
  obtain ⟨hstep, hsame, hk⟩ := h s hs
  refine ⟨⟨?_, fun t ht => ⟨congrArg lift (hsame t ht).1, (hsame t ht).2⟩⟩, P, hreg s _ hstep.registry hs, hst, hk⟩
  show if i = r then _ else _
  rw [if_neg hir]
  exact hstep

/-- A look at the state, from which the thread may learn something. -/
theorem outline_user_read {g : Kernel → β} {f : β → KProg α} (h : ∀ s, P s →
      (∀ t, SameButFreed s t → g t.1 = g s.1) ∧ ∃ P', P' s ∧ (modulePromise readers r).Stable i H P' ∧
        (modulePromise readers r).Outline i Q H P' (lift (f (g s.1)))) :
    (modulePromise readers r).Outline i Q H P (lift (Prog.read g >>= f)) := by
  refine outline_act fun s hs => ?_
  obtain ⟨hsame, P', hP', hst, hk⟩ := h s hs
  refine ⟨⟨?_, fun t ht => ⟨congrArg (fun b => lift (f b)) (hsame t ht), ht, .refl t⟩⟩, P', hP', hst, hk⟩
  show if i = r then _ else _
  rw [if_neg hir]
  exact .quiet rfl rfl rfl rfl rfl

/-- A change of a counter. -/
theorem outline_user_count {upd : Kernel → Kernel} {f : Unit → KProg α} (hreg : RegOnly P)
    (hst : (modulePromise readers r).Stable i H P)
    (hupd : ∀ s : Kernel, (upd s).cardsList = s.cardsList ∧ (upd s).card = s.card ∧ (upd s).netdevs = s.netdevs ∧
      (upd s).wiphyPriv = s.wiphyPriv ∧ (upd s).drv = s.drv)
    (hcard : ∀ (s : Kernel) card, upd { s with card := card } = { upd s with card := card })
    (hf : (modulePromise readers r).Outline i Q H P (lift (f ()))) :
    (modulePromise readers r).Outline i Q H P (lift (Prog.modify upd >>= f)) := by
  refine outline_user_act hir hreg hst fun s _ => ⟨?_, ?_, hf⟩
  · obtain ⟨hl, hc, hn, hw, hd⟩ := hupd s.1
    exact .quiet hl hc hn hw hd
  · rintro t ⟨card, rfl, hlive⟩
    refine ⟨rfl, ⟨card, by rw [hcard], fun c hc => ?_⟩, fun c _ _ _ => congrArg (· c) (hupd _).2.1⟩
    rw [(hupd s.1).2.1]
    exact hlive c hc

omit hir in
theorem outline_user_acquire {l : LockId} {f : Unit → KProg α} (hl : .kernel l ∉ H)
    (hf : (modulePromise readers r).Outline i Q (.kernel l :: H) P (lift (f ()))) :
    (modulePromise readers r).Outline i Q H P (lift (mutexLock l >>= f)) := ⟨hl, hf⟩

omit hir in
theorem outline_user_release {P' : Sys → Prop} {l : LockId} {f : Unit → KProg α} (hP : ∀ s, P s → P' s)
    (hst : (modulePromise readers r).Stable i H P')
    (hf : (modulePromise readers r).Outline i Q H P' (lift (f ()))) :
    (modulePromise readers r).Outline i Q (.kernel l :: H) P (lift (mutexUnlock l >>= f)) :=
  ⟨H, rfl, P', hP, hst, hf⟩

omit [DecidableEq ι] hir in
theorem lift_bind (p : KProg α) (f : α → KProg β) :
    (lift (p >>= f) : SysProg ι β) = lift p >>= fun a => lift (f a) := by
  rw [lift, Prog.besides_bind, Prog.mapLock_bind]
  rfl

omit [DecidableEq ι] hir in
theorem lift_forM (f : β → KProg PUnit) (xs : List β) :
    (lift (forM xs f) : SysProg ι PUnit) = forM xs fun x => lift (f x) := by
  induction xs with
  | nil => rfl
  | cons x xs ih => rw [List.forM_cons, List.forM_cons, lift_bind, ih]

omit hir in
/-- A part of a function, and then the rest. -/
theorem outline_user_seq (hQ : Closed Q) {R : Sys → Prop} {p : KProg β} {f : β → KProg α}
    (hp : (modulePromise readers r).Outline i (Ends H R) H P (lift p))
    (hf : ∀ b, (modulePromise readers r).Outline i Q H R (lift (f b))) :
    (modulePromise readers r).Outline i Q H P (lift (p >>= f)) := by
  rw [lift_bind]
  exact outline_seq hQ hp hf

/-! ### Calls of a driver -/

/-- The driver of a pinned card is asked for its TSF. -/
theorem outline_callGetTsf {c : CardPtr} {k : Card} {vif : DevId} (h : Pins Pin c)
    (hst : (modulePromise readers r).Stable i H Pin) (hcard : .kernel (.card c) ∈ H)
    (hwiphy : .kernel (.wiphy k.hw.wiphy) ∈ H) (hvif : k.vif = some vif) :
    (modulePromise readers r).Outline i (Ends H (WithCard Pin c k)) H (WithCard Pin c k)
      (lift (tsfPtpCallGetTsf c vif)) := by
  have hknow := stable_withCard h hst k hcard
  refine outline_user_read hir fun s hs => ⟨fun t ht => ht.card (h.allocated hs.1.1), _, hs, hknow, ?_⟩
  have hops := (Card.wiphy_of_core hs.1.2).2
  cases hget : (s.1.card c).hw.ops.getTsf with
  | false =>
    simp only [Bool.not_false, if_true]
    exact ⟨rfl, fun _ h => h⟩
  | true =>
    simp only [Bool.not_true, Bool.false_eq_true, if_false]
    refine outline_user_act hir (h.withCard k).regOnly hknow fun s' hs' => ⟨.getTsf ?_, ?_, rfl, fun _ h => h⟩
    · obtain ⟨hw, hops'⟩ := Card.wiphy_of_core hs'.1.2
      refine ⟨h.clock s' hs'.1.1, hcard, hw ▸ hwiphy, hs'.2.trans hvif, ?_⟩
      show (s'.1.card c).hw.ops.getTsf = true
      rw [hops', ← hops, hget]
    · intro t ht
      have hc := ht.card (h.allocated hs'.1.1)
      exact ⟨congrArg (fun k : Card => Prog.ret k.hw.tsf) hc, ht.log [.getTsf c vif]⟩

/-- The driver of a pinned card is given a TSF. -/
theorem outline_callSetTsf {c : CardPtr} {k : Card} {vif : DevId} (tsf : UInt64) (h : Pins Pin c)
    (hst : (modulePromise readers r).Stable i H Pin) (hcard : .kernel (.card c) ∈ H)
    (hwiphy : .kernel (.wiphy k.hw.wiphy) ∈ H) (hvif : k.vif = some vif) :
    (modulePromise readers r).Outline i (Ends H (WithCard Pin c k)) H (WithCard Pin c k)
      (lift (tsfPtpCallSetTsf c vif tsf)) := by
  have hknow := stable_withCard h hst k hcard
  refine outline_user_read hir fun s hs => ⟨fun t ht => ht.card (h.allocated hs.1.1), _, hs, hknow, ?_⟩
  have hops := (Card.wiphy_of_core hs.1.2).2
  cases hset : (s.1.card c).hw.ops.setTsf with
  | false =>
    simp only [Bool.not_false, if_true]
    exact ⟨rfl, fun _ h => h⟩
  | true =>
    simp only [Bool.not_true, Bool.false_eq_true, if_false]
    refine outline_user_act hir (h.withCard k).regOnly hknow fun s' hs' => ⟨.setTsf ?_, ?_, rfl, fun _ h => h⟩
    · obtain ⟨hw, hops'⟩ := Card.wiphy_of_core hs'.1.2
      refine ⟨h.clock s' hs'.1.1, hcard, hw ▸ hwiphy, hs'.2.trans hvif, ?_⟩
      show (s'.1.card c).hw.ops.setTsf = true
      rw [hops', ← hops, hset]
    · intro t ht
      obtain ⟨hw, hspare⟩ := ht.setCard (h.allocated hs'.1.1) fun k => { k with hw := { k.hw with tsf := tsf } }
      exact ⟨rfl, (hw.log [.setTsf c vif tsf]).1, hspare⟩

/-- A thread that pins a card takes its lock and looks at its VIF. -/
theorem outline_lockCard {c : CardPtr} {f : Card → KProg α} (h : Pins Pin c)
    (hst : (modulePromise readers r).Stable i H Pin) (hfree : .kernel (.card c) ∉ H)
    (hf : ∀ k : Card, (∃ s, Pin s ∧ s.1.card c = k) →
      (modulePromise readers r).Outline i Q (.kernel (.card c) :: H) (WithCard Pin c k) (lift (f k))) :
    (modulePromise readers r).Outline i Q H Pin (lift (do
      mutexLock (.card c)
      let k ← readCard c
      f k)) := by
  refine outline_user_acquire hfree (outline_user_read hir fun s hs => ?_)
  have hknow := stable_withCard h (hst.cons (.kernel (.card c))) (s.1.card c) List.mem_cons_self
  exact ⟨fun t ht => ht.card (h.allocated hs), _, ⟨⟨hs, rfl⟩, rfl⟩, hknow, hf _ ⟨s, hs, rfl⟩⟩

end Rules

end Lifetime

end TsfSync
