import TsfSync.Kernel.Heap
import TsfSync.Kernel.RegistrySpec

/-!
# The functions with their memory refine those without

Alone, and with the memory left out, the functions of `Heap.lean` do what those of `Registry.lean` do, for an allocator
that answers as far as those can tell the same (`AllocEnv.toProbeEnv`): `refines_probe`, `refines_netdevEvent`. They need
that listed cards are allocated, so that new memory is not a listed card.

What a probe returns is another matter: where the clock cannot be registered, it is the lower half of what the freed memory
holds, and so the discovery may count cards that it did not add (`discover_count`).
-/

namespace TsfSync

open LockProg

namespace Lifetime

variable {ι α : Type} {s : Kernel} {h : Heap} {w : WiphyId}

@[simp] theorem run_lift (p : KProg α) (s : Kernel) (h : Heap) :
    (lift p : SysProg ι α).run (s, h) = ((p.run s).1, (p.run s).2, h) := by
  rw [lift, Prog.run_mapLock, Prog.run_besides]

/-- The allocator's answer as a probe without memory sees it. -/
def AllocEnv.toProbeEnv (env : AllocEnv) (h : Heap) : ProbeEnv where
  kzalloc := fun l => (env.kzalloc h).bind fun c => if hc : c.val ∉ l.ptrs then some ⟨c.val, hc, c.2.2⟩ else none
  ptpClockRegister := env.ptpClockRegister

/-- Every listed card is allocated. -/
def ListedAllocated (s : Kernel) (h : Heap) : Prop := ∀ c ∈ s.cardsList.ptrs, h.allocated c = true

theorem toProbeEnv_kzalloc (env : AllocEnv) (hl : ListedAllocated s h) :
    ((env.toProbeEnv h).kzalloc s.cardsList).map (·.val) = (env.kzalloc h).map (·.val) := by
  unfold AllocEnv.toProbeEnv
  cases hk : env.kzalloc h with
  | none => rfl
  | some c =>
    have hc : c.val ∉ s.cardsList.ptrs := fun hm => by
      have halloc := hl _ hm
      rw [c.2.1] at halloc
      cases halloc
    simp [hc]

theorem setCard_setCard (s : Kernel) (c : CardPtr) (f g : Card → Card) :
    (s.setCard c f).setCard c g = s.setCard c fun k => g (f k) := by
  simp [Kernel.setCard, Function.update_idem]

theorem run_kzalloc_none {env : AllocEnv} (hk : env.kzalloc h = none) :
    (kzalloc env : SysProg ι _).run (s, h) = (none, s, h) := by
  simp [kzalloc, Prog.run, AllocEnv.taken, hk]

theorem run_kzalloc_some {env : AllocEnv} {c} (hk : env.kzalloc h = some c) : (kzalloc env : SysProg ι _).run (s, h) =
    (some c.val, s.setCard c.val fun _ => .zeroed, h.alloc c.val) := by
  simp [kzalloc, Prog.run, AllocEnv.taken, hk]

/-- A probe. -/
theorem refines_probe (env : AllocEnv) (loc : Local w) (hl : ListedAllocated s h) :
    ((tsfPtpProbe env loc : SysProg ι Int32).run (s, h)).2.1 =
      ((TsfSync.tsfPtpProbe (env.toProbeEnv h) loc).run s).2 := by
  unfold tsfPtpProbe TsfSync.tsfPtpProbe
  cases loc.hw.ops.getTsf with
  | false => simp
  | true =>
    cases hf : s.cardOf loc.hw.wiphy with
    | some d => simp [hf]
    | none =>
      have hk := toProbeEnv_kzalloc env hl
      cases hk' : env.kzalloc h with
      | none =>
        rw [hk', Option.map_none, Option.map_eq_none_iff] at hk
        simp [hf, hk, run_kzalloc_none hk']
      | some c =>
        rw [hk'] at hk
        obtain ⟨c', hc', hval⟩ := Option.map_eq_some_iff.mp hk
        have hreg : (env.toProbeEnv h).ptpClockRegister = env.ptpClockRegister := rfl
        cases hp : env.ptpClockRegister with
        | error e =>
          simp [hf, hc', hval, hreg, hp, run_kzalloc_some hk', writeCard, ptpClockRegister, kfree, setCard_setCard]
        | ok u =>
          simp [hf, hc', hval, hreg, hp, run_kzalloc_some hk', writeCard, ptpClockRegister, listAddTail,
            setCard_setCard]

theorem refines_hotplugProbe (env : AllocEnv) (w : WiphyId) (hl : ListedAllocated s h) :
    ((tsfPtpTryHotplugProbe env w : SysProg ι Unit).run (s, h)).2.1 =
      ((TsfSync.tsfPtpTryHotplugProbe (env.toProbeEnv h) w).run s).2 := by
  unfold tsfPtpTryHotplugProbe TsfSync.tsfPtpTryHotplugProbe
  cases hf : s.cardOf w with
  | some d => simp [hf]
  | none =>
    cases hloc : s.wiphyPriv w with
    | none => simp [hf, hloc]
    | some loc => simpa [hf, hloc] using refines_probe env loc hl

theorem run_downWrite (c : CardPtr) (body : SysProg ι Unit) (s : Sys) :
    ∀ rs : List ι, (downWrite c body rs).run s = body.run s
  | [] => rfl
  | _ :: rs => by simp [downWrite, run_downWrite c body s rs]

@[simp] theorem run_remove (readers : List ι) (c : CardPtr) : (tsfPtpRemove readers c).run (s, h) =
    ((), s, (h.unregister c).free c 0) := by
  simp [tsfPtpRemove, ptpClockUnregister, run_downWrite, kfree]

theorem refines_hotplugRemove (readers : List ι) (w : WiphyId) :
    ((tsfPtpTryHotplugRemove readers w).run (s, h)).2.1 = ((TsfSync.tsfPtpTryHotplugRemove w).run s).2 := by
  unfold tsfPtpTryHotplugRemove TsfSync.tsfPtpTryHotplugRemove
  cases ha : (initNetdevs s).any fun dev => dev.wiphy == some w with
  | true => simp [ha]
  | false => cases hc : s.cardOf w <;> simp [ha, hc, listDel]

/-- **The notifier.** -/
theorem refines_netdevEvent (readers : List ι) (env : AllocEnv) (event : NetdevEvent) (dev : NetDev)
    (hl : ListedAllocated s h) : ((tsfPtpNetdevEvent readers env event dev).run (s, h)).2.1 =
      ((TsfSync.tsfPtpNetdevEvent (env.toProbeEnv h) event dev).run s).2 := by
  rw [netdevEvent_eq]
  unfold tsfPtpNetdevEvent
  cases dev.wiphy with
  | none => rfl
  | some w =>
    cases event with
    | register => exact refines_hotplugProbe env w hl
    | up => simp
    | down => simp
    | unregister => simpa using refines_hotplugRemove readers w
    | other => rfl

/-! ## What a probe returns -/

/-- A probe that returns zero has added a card, or its clock could not be registered and the freed memory reads as
zero, as an `int`. Either way the listed cards are allocated afterwards. -/
theorem probe_adds (ι : Type) (env : AllocEnv) (loc : Local w) (hl : ListedAllocated s h) :
    let out := (tsfPtpProbe env loc : SysProg ι Int32).run (s, h)
    ListedAllocated out.2.1 out.2.2 ∧
      ((out.1 = 0 ∧ out.2.1.cardsList.ptrs.length = s.cardsList.ptrs.length + 1) ∨
        (out.2.1.cardsList.ptrs.length = s.cardsList.ptrs.length ∧
          (out.1 = 0 → env.ptpClockRegister.isOk = false ∧ env.freed.toInt32 = 0))) := by
  unfold tsfPtpProbe
  cases loc.hw.ops.getTsf with
  | false => exact ⟨hl, .inr (by simp [errnoCode])⟩
  | true =>
    cases hf : s.cardOf loc.hw.wiphy with
    | some d => simpa [hf, errnoCode] using hl
    | none =>
      cases hk : env.kzalloc h with
      | none => simpa [hf, run_kzalloc_none hk, errnoCode] using hl
      | some c =>
        have hnew : c.val ∉ s.cardsList.ptrs := fun hm => by
          have halloc := hl _ hm
          rw [c.2.1] at halloc
          cases halloc
        have hne : ∀ d ∈ s.cardsList.ptrs, d ≠ c.val := fun d hd e => hnew (e ▸ hd)
        cases hp : env.ptpClockRegister with
        | error e =>
          have hlist : ListedAllocated s ((h.alloc c.val).free c.val env.freed) := fun d hd => by
            simp [Heap.free, Heap.alloc, hne d hd, hl d hd]
          simp only [Bool.not_true, Bool.false_eq_true, if_false, Prog.run_bind, run_lift, run_findCard, hf,
            Prog.run_acquire, Option.isSome_none, Prog.run_release, run_kzalloc_some hk, writeCard, Prog.run_modify,
            ptpClockRegister, hp, Prog.run_pure, kfree, Prog.run_read]
          exact ⟨hlist, .inr ⟨rfl, by simp [Heap.free, Except.isOk, Except.toBool]⟩⟩
        | ok u =>
          have hlist : ListedAllocated (s.addCard c.val loc) (h.alloc c.val) := fun d hd => by
            rw [Kernel.addCard, s.cardsList.addTail_ptrs ⟨hnew, c.2.2⟩, List.mem_append, List.mem_singleton] at hd
            rcases hd with hd | rfl
            · simp [Heap.alloc, hne d hd, hl d hd]
            · simp [Heap.alloc]
          simp only [Bool.not_true, Bool.false_eq_true, if_false, Prog.run_bind, run_lift, run_findCard, hf,
            Prog.run_acquire, Option.isSome_none, Prog.run_release, run_kzalloc_some hk, writeCard, Prog.run_modify,
            ptpClockRegister, hp, Prog.run_pure, listAddTail]
          refine ⟨hlist, .inl ⟨trivial, ?_⟩⟩
          show (s.cardsList.addTail c.val).ptrs.length = s.cardsList.ptrs.length + 1
          rw [s.cardsList.addTail_ptrs ⟨hnew, c.2.2⟩, List.length_append, List.length_singleton]

/-- **What the discovery counts.** Its count is never less than the number of cards that it adds, and equals it unless a
clock cannot be registered and the lower half of the freed memory's word is zero. -/
theorem discover_count (env : DevId → AllocEnv) : ∀ (devs : List NetDev) (count : Nat) {s : Kernel} {h : Heap},
    ListedAllocated s h →
    let out := (discoverLoop env devs count : SysProg ι Nat).run (s, h)
    count + out.2.1.cardsList.ptrs.length ≤ out.1 + s.cardsList.ptrs.length ∧
      ((∀ dev ∈ devs, (env dev.id).ptpClockRegister.isOk = true ∨ (env dev.id).freed.toInt32 ≠ 0) →
        count + out.2.1.cardsList.ptrs.length = out.1 + s.cardsList.ptrs.length)
  | [], _, _, _, _ => ⟨Nat.le_refl _, fun _ => rfl⟩
  | dev :: devs, count, s, h, hl => by
    unfold discoverLoop
    cases hw : dev.wiphy with
    | none =>
      obtain ⟨hle, heq⟩ := discover_count env devs count hl
      exact ⟨hle, fun hall => heq fun d hd => hall d (List.mem_cons_of_mem _ hd)⟩
    | some w =>
      cases hloc : s.wiphyPriv w with
      | none =>
        obtain ⟨hle, heq⟩ := discover_count env devs count hl
        simpa [hloc] using ⟨hle, fun _ hall => heq hall⟩
      | some loc =>
        have hadds := probe_adds ι (env dev.id) loc hl
        cases hout : (tsfPtpProbe (env dev.id) loc : SysProg ι Int32).run (s, h) with
        | mk ret out =>
          obtain ⟨s', h'⟩ := out
          rw [hout] at hadds
          dsimp only at hadds
          obtain ⟨hl', hadds⟩ := hadds
          obtain ⟨hle, heq⟩ := discover_count env devs (if ret = 0 then count + 1 else count) hl'
          simp only [Prog.run_bind, run_lift, Prog.run_read, hloc, hout]
          refine ⟨?_, fun hall => ?_⟩
          · rcases hadds with ⟨hzero, hlen⟩ | ⟨hlen, -⟩
            · rw [if_pos hzero] at hle ⊢
              omega
            · generalize hcount : (if ret = 0 then count + 1 else count) = count' at hle ⊢
              have hmono : count ≤ count' := by
                rw [← hcount]
                split <;> omega
              omega
          · have heq' := heq fun d hd => hall d (List.mem_cons_of_mem _ hd)
            rcases hadds with ⟨hzero, hlen⟩ | ⟨hlen, hfreed⟩
            · rw [if_pos hzero] at heq' ⊢
              omega
            · have hne : ret ≠ 0 := by
                intro hzero
                obtain ⟨hfail, hword⟩ := hfreed hzero
                rcases hall dev List.mem_cons_self with hok | hword'
                · rw [hfail] at hok; cases hok
                · exact hword' hword
              rw [if_neg hne] at heq' ⊢
              omega

/-- One device whose clock is registered, and one whose clock is not and whose freed memory holds `2 ^ 32`: two are
counted and one is added. -/
theorem discover_count_run :
    let env : DevId → AllocEnv := fun id =>
      if id = 3 then .accepts 0 else { AllocEnv.accepts 1 with ptpClockRegister := .error .ENOMEM, freed := 0x100000000 }
    let out := (discoverLoop env [.wlan 3 0 7 false, .wlan 4 0 8 false] 0 : SysProg Unit Nat).run
      (.load [] fun w => some (.both w), .empty)
    (out.1 = 2 ∧ out.2.1.cardsList.ptrs = [.card 0]) ∧ 0 + out.2.1.cardsList.ptrs.length ≤ out.1 + 0 :=
  ⟨⟨rfl, rfl⟩, (discover_count _ _ 0 fun _ hc => by cases hc).1⟩

end Lifetime

end TsfSync
