import TsfSync.Kernel.Nanoseconds
import TsfSync.Kernel.Spec

/-!
# A cycle of Mode B

What `tsf_sync_work_fn` does to each card (`foldl_synced`, `foldl_synced_primary`), what it leaves alone: the list, the
parameters, and of every card its VIF, its name and its driver's ops (`sameSetup_workFn`), and the driver calls it makes
(`cycleCalls_walks`).
-/

namespace TsfSync

open LockProg MachineWord

/-! ## A cycle, card by card -/

section ModeB

variable {threshold : UInt32} {primary : CardPtr} {primaryTsf : UInt64}

theorem synced_ne (s : Kernel) {c d : CardPtr} (h : d ≠ c) :
    (synced threshold primary primaryTsf s c).card d = s.card d := by
  unfold synced
  split
  · rfl
  · split
    · exact s.setCard_ne _ h
    · dsimp only
      split <;> simp [Kernel.setCard_ne _ _ h, Kernel.putTsf_ne _ _ _ _ h]

/-- The TSF of a card after its turn in Mode B. -/
def Card.tsfAfterB (threshold : UInt32) (primaryTsf : UInt64) (k : Card) : UInt64 :=
  if k.vif.isSome && k.hw.ops.setTsf && reachesThreshold threshold (offsetNs primaryTsf k.readTsf) then primaryTsf
  else k.hw.tsf

theorem synced_self (s : Kernel) {c : CardPtr} (h : c ≠ primary) :
    ((synced threshold primary primaryTsf s c).card c).hw.tsf = (s.card c).tsfAfterB threshold primaryTsf := by
  unfold synced Card.tsfAfterB
  rw [if_neg h]
  cases hv : (s.card c).vif with
  | none => simp
  | some vif =>
    cases hr : reachesThreshold threshold (offsetNs primaryTsf (s.card c).readTsf) with
    | false => simp [hr]
    | true => cases hs : (s.card c).hw.ops.setTsf <;> simp [Kernel.putTsf_self, hr, hs]

theorem foldl_synced_of_not_mem {c : CardPtr} : ∀ (cards : List CardPtr) (s : Kernel), c ∉ cards →
    (cards.foldl (synced threshold primary primaryTsf) s).card c = s.card c
  | [], _, _ => rfl
  | d :: cards, s, h => by
    rw [List.foldl_cons, foldl_synced_of_not_mem cards _ (List.not_mem_of_not_mem_cons h),
      synced_ne s (List.ne_of_not_mem_cons h)]

/-- A cycle of Mode B, seen from one card. -/
theorem foldl_synced {c : CardPtr} (hne : c ≠ primary) : ∀ (cards : List CardPtr) (s : Kernel), cards.Nodup → c ∈ cards →
    ((cards.foldl (synced threshold primary primaryTsf) s).card c).hw.tsf = (s.card c).tsfAfterB threshold primaryTsf
  | [], _, _, h => by cases h
  | d :: cards, s, hn, h => by
    obtain ⟨hd, hn⟩ := List.nodup_cons.mp hn
    rw [List.foldl_cons]
    by_cases e : c = d
    · subst e
      rw [foldl_synced_of_not_mem cards _ hd, synced_self s hne]
    · rw [foldl_synced hne cards _ hn ((List.mem_cons.mp h).resolve_left e), synced_ne s e]

/-- The primary keeps its TSF in Mode B. -/
theorem foldl_synced_primary : ∀ (cards : List CardPtr) (s : Kernel),
    (cards.foldl (synced threshold primary primaryTsf) s).card primary = s.card primary
  | [], _ => rfl
  | d :: cards, s => by
    rw [List.foldl_cons, foldl_synced_primary cards]
    by_cases e : primary = d
    · subst e; simp [synced]
    · exact synced_ne s e

end ModeB

/-! ## What a cycle leaves alone -/

/-- The list, the parameters, and of every card its VIF, its name and its driver's ops are the same. -/
structure SameSetup (s s' : Kernel) : Prop where
  cardsList : s'.cardsList = s.cardsList
  threshold : s'.adjtimeThresholdNs = s.adjtimeThresholdNs
  syncPrimary : s'.syncPrimary = s.syncPrimary
  card : ∀ c, (s'.card c).vif = (s.card c).vif ∧ (s'.card c).phyName = (s.card c).phyName ∧
    (s'.card c).hw.ops = (s.card c).hw.ops

namespace SameSetup

variable {s s' s'' : Kernel}

theorem refl (s : Kernel) : SameSetup s s := ⟨rfl, rfl, rfl, fun _ => ⟨rfl, rfl, rfl⟩⟩

theorem trans (h : SameSetup s s') (h' : SameSetup s' s'') : SameSetup s s'' where
  cardsList := h'.cardsList.trans h.cardsList
  threshold := h'.threshold.trans h.threshold
  syncPrimary := h'.syncPrimary.trans h.syncPrimary
  card := fun c => by
    obtain ⟨hv, hn, ho⟩ := h.card c
    obtain ⟨hv', hn', ho'⟩ := h'.card c
    exact ⟨hv'.trans hv, hn'.trans hn, ho'.trans ho⟩

/-- A change of one card that keeps its VIF, its name and its ops. -/
theorem setCard (s : Kernel) (c : CardPtr) {f : Card → Card}
    (hf : ∀ k, (f k).vif = k.vif ∧ (f k).phyName = k.phyName ∧ (f k).hw.ops = k.hw.ops) :
    SameSetup s (s.setCard c f) := by
  refine ⟨rfl, rfl, rfl, fun d => ?_⟩
  by_cases hd : d = c
  · subst hd
    rw [Kernel.setCard_self]
    exact hf _
  · rw [Kernel.setCard_ne s f hd]
    exact ⟨rfl, rfl, rfl⟩

theorem gotTsf (s : Kernel) (c : CardPtr) (vif : DevId) : SameSetup s (s.gotTsf c vif) := by
  unfold Kernel.gotTsf
  split
  · exact ⟨rfl, rfl, rfl, fun _ => ⟨rfl, rfl, rfl⟩⟩
  · exact refl s

theorem putTsf (s : Kernel) (c : CardPtr) (vif : DevId) (tsf : UInt64) : SameSetup s (s.putTsf c vif tsf) := by
  unfold Kernel.putTsf
  split
  · have h := setCard s c (f := fun k => { k with hw := { k.hw with tsf := tsf } }) fun _ => ⟨rfl, rfl, rfl⟩
    exact ⟨rfl, rfl, rfl, h.card⟩
  · exact refl s

theorem applied (s : Kernel) : SameSetup s s.applied := ⟨rfl, rfl, rfl, fun _ => ⟨rfl, rfl, rfl⟩⟩

theorem skipped (s : Kernel) : SameSetup s s.skipped := ⟨rfl, rfl, rfl, fun _ => ⟨rfl, rfl, rfl⟩⟩

theorem synced (threshold : UInt32) (primary : CardPtr) (primaryTsf : UInt64) (s : Kernel) (c : CardPtr) :
    SameSetup s (TsfSync.synced threshold primary primaryTsf s c) := by
  unfold TsfSync.synced
  split
  · exact refl s
  · split
    · exact setCard s c fun _ => ⟨rfl, rfl, rfl⟩
    · rename_i vif _
      have hoff : SameSetup s ((s.gotTsf c vif).setCard c fun k =>
          { k with lastOffsetNs := offsetNs primaryTsf (s.card c).readTsf }) :=
        (gotTsf s c vif).trans (setCard _ c fun _ => ⟨rfl, rfl, rfl⟩)
      dsimp only
      split
      · exact ((hoff.trans (putTsf _ c vif primaryTsf)).trans (applied _)).trans
          (setCard (Kernel.applied _) c fun _ => ⟨rfl, rfl, rfl⟩)
      · exact (hoff.trans (skipped _)).trans (setCard (Kernel.skipped _) c fun _ => ⟨rfl, rfl, rfl⟩)

theorem foldl {f : Kernel → CardPtr → Kernel} (hf : ∀ s c, SameSetup s (f s c)) :
    ∀ (cards : List CardPtr) (s : Kernel), SameSetup s (cards.foldl f s)
  | [], s => refl s
  | c :: cards, s => (hf s c).trans (foldl hf cards (f s c))

/-- The primary is chosen by the list, the names and the parameter. -/
theorem primary_eq (h : SameSetup s s') : s'.primary = s.primary := by
  have hname : ∀ c, (s'.card c).phyName = (s.card c).phyName := fun c => (h.card c).2.1
  simp only [Kernel.primary, findPrimaryLocked, Prog.run_read, h.syncPrimary, h.cardsList, hname]

end SameSetup

/-! ## The state after a cycle -/

namespace Kernel

/-- The work has been scheduled again. -/
def rescheduled (s : Kernel) (interval : UInt32) : Kernel :=
  { s with syncWork := { s.syncWork with pending := some (if interval = 0 then 10 else interval).toNat } }

/-- A cycle has failed. -/
def cycleFailed (s : Kernel) : Kernel := { s with globalSyncErrorCount := s.globalSyncErrorCount + 1 }

/-- A cycle has been completed. -/
def cycleDone (s : Kernel) : Kernel := { s with globalSyncCount := s.globalSyncCount + 1 }

/-- The state after the walk over the secondaries. -/
def walked (s : Kernel) (p : CardPtr) (vif : DevId) : Kernel :=
  s.cardsList.ptrs.foldl (synced s.adjtimeThresholdNs p (s.card p).readTsf) (s.gotTsf p vif)

/-- The driver calls of a cycle. -/
def cycleCalls (s : Kernel) : List DrvCall := (tsfSyncWorkFn.run s).2.drv.drop s.drv.length

end Kernel

section WorkFn

variable {s : Kernel} {p c : CardPtr} {vif : DevId}

/-- A cycle without a primary, or with one that has no VIF, only counts the error and schedules the next. -/
theorem run_workFn_fails (h : ∀ p, s.primary = some p → (s.card p).vif = none) :
    (tsfSyncWorkFn.run s).2 = s.cycleFailed.rescheduled s.syncIntervalMs := by
  unfold tsfSyncWorkFn
  cases hp : (findPrimaryLocked.run s).1 with
  | none =>
    have hfind : findPrimaryLocked.run s = (none, s) := Prod.ext hp rfl
    simp only [Prog.run_bind, Prog.run_read, run_mutexLock, run_mutexUnlock, hfind]
    rfl
  | some p =>
    have hfind : findPrimaryLocked.run s = (some p, s) := Prod.ext hp rfl
    simp only [Prog.run_bind, Prog.run_read, run_mutexLock, run_mutexUnlock, hfind, run_readCard, h p hp]
    rfl

/-- A cycle with a primary that has a VIF walks over the secondaries, counts the cycle and schedules the next. -/
theorem run_workFn_walks (hp : s.primary = some p) (hv : (s.card p).vif = some vif) :
    (tsfSyncWorkFn.run s).2 = (s.walked p vif).cycleDone.rescheduled s.syncIntervalMs := by
  have hfind : findPrimaryLocked.run s = (some p, s) := Prod.ext hp rfl
  unfold tsfSyncWorkFn
  simp only [Prog.run_bind, Prog.run_read, run_mutexLock, hfind, run_readCard, hv, run_callGetTsf, run_mutexUnlock,
    run_listEntries, Kernel.gotTsf_cardsList, Prog.run_forM, run_syncSecondary]
  rfl

/-- After a cycle the cards are those of the walk. -/
theorem card_workFn (hp : s.primary = some p) (hv : (s.card p).vif = some vif) :
    (tsfSyncWorkFn.run s).2.card = (s.walked p vif).card := by
  rw [run_workFn_walks hp hv]
  rfl

/-- The TSF of a card other than the primary after a cycle. -/
theorem tsf_workFn_other (hp : s.primary = some p) (hv : (s.card p).vif = some vif) (hne : c ≠ p) :
    ((tsfSyncWorkFn.run s).2.card c).hw.tsf =
      if c ∈ s.cardsList.ptrs then (s.card c).tsfAfterB s.adjtimeThresholdNs (s.card p).readTsf
      else (s.card c).hw.tsf := by
  rw [card_workFn hp hv, Kernel.walked]
  split
  · rename_i hc
    rw [foldl_synced hne _ _ s.cardsList.nodup hc, Kernel.gotTsf_card]
  · rename_i hc
    rw [foldl_synced_of_not_mem _ _ hc, Kernel.gotTsf_card]

theorem tsf_workFn_primary (hp : s.primary = some p) (hv : (s.card p).vif = some vif) :
    ((tsfSyncWorkFn.run s).2.card p).hw.tsf = (s.card p).hw.tsf := by
  rw [card_workFn hp hv, Kernel.walked, foldl_synced_primary, Kernel.gotTsf_card]

/-- A whole cycle keeps the setup. -/
theorem sameSetup_workFn (s : Kernel) : SameSetup s (tsfSyncWorkFn.run s).2 := by
  by_cases h : ∀ p, s.primary = some p → (s.card p).vif = none
  · rw [run_workFn_fails h]
    exact ⟨rfl, rfl, rfl, fun _ => ⟨rfl, rfl, rfl⟩⟩
  · obtain ⟨p, hp, hvif⟩ : ∃ p, s.primary = some p ∧ (s.card p).vif ≠ none := by simpa using h
    obtain ⟨vif, hv⟩ := Option.ne_none_iff_exists'.mp hvif
    have hwalk : SameSetup s (s.walked p vif) :=
      (SameSetup.gotTsf s p vif).trans (SameSetup.foldl (SameSetup.synced _ p _) _ _)
    rw [run_workFn_walks hp hv]
    exact ⟨hwalk.cardsList, hwalk.threshold, hwalk.syncPrimary, hwalk.card⟩

/-! ## The driver calls of a cycle -/

/-- The card that a call is made for. -/
def DrvCall.card : DrvCall → CardPtr
  | .getTsf c _ => c
  | .setTsf c _ _ => c

/-- The calls that read the TSF of a card. -/
def getCalls (c : CardPtr) (vif : DevId) (k : Card) : List DrvCall := if k.hw.ops.getTsf then [.getTsf c vif] else []

/-- The calls that write the TSF of a card. -/
def setCalls (c : CardPtr) (vif : DevId) (tsf : UInt64) (k : Card) : List DrvCall :=
  if k.hw.ops.setTsf then [.setTsf c vif tsf] else []

/-- The calls for one card in the walk over the secondaries. -/
def syncCalls (threshold : UInt32) (primary : CardPtr) (primaryTsf : UInt64) (c : CardPtr) (k : Card) :
    List DrvCall :=
  if c = primary then []
  else match k.vif with
    | none => []
    | some vif =>
      getCalls c vif k ++
        if reachesThreshold threshold (offsetNs primaryTsf k.readTsf) then setCalls c vif primaryTsf k else []

theorem drv_gotTsf (s : Kernel) (c : CardPtr) (vif : DevId) :
    (s.gotTsf c vif).drv = s.drv ++ getCalls c vif (s.card c) := by
  unfold Kernel.gotTsf getCalls
  split <;> simp

theorem drv_putTsf (s : Kernel) (c : CardPtr) (vif : DevId) (tsf : UInt64) :
    (s.putTsf c vif tsf).drv = s.drv ++ setCalls c vif tsf (s.card c) := by
  unfold Kernel.putTsf setCalls
  split <;> simp

@[simp] theorem setCard_drv (s : Kernel) (c : CardPtr) (f : Card → Card) : (s.setCard c f).drv = s.drv := rfl

theorem drv_synced (threshold : UInt32) (primary : CardPtr) (primaryTsf : UInt64) (s : Kernel) (c : CardPtr) :
    (synced threshold primary primaryTsf s c).drv =
      s.drv ++ syncCalls threshold primary primaryTsf c (s.card c) := by
  unfold synced syncCalls
  by_cases hc : c = primary
  · simp [hc]
  · cases hv : (s.card c).vif with
    | none => simp [hc]
    | some vif =>
      have hops : (((s.gotTsf c vif).setCard c fun k =>
          { k with lastOffsetNs := offsetNs primaryTsf (s.card c).readTsf }).card c).hw = (s.card c).hw := by simp
      cases hr : reachesThreshold threshold (offsetNs primaryTsf (s.card c).readTsf) with
      | false => simp [hc, hr, drv_gotTsf]
      | true =>
        have hset : setCalls c vif primaryTsf (((s.gotTsf c vif).setCard c fun k =>
            { k with lastOffsetNs := offsetNs primaryTsf (s.card c).readTsf }).card c) =
            setCalls c vif primaryTsf (s.card c) := by
          rw [setCalls, hops]
          rfl
        simp only [hc, hr, if_false, if_true, setCard_drv, Kernel.applied_drv, drv_putTsf, drv_gotTsf, hset,
          List.append_assoc]

theorem drv_foldl_synced {threshold : UInt32} {primary : CardPtr} {primaryTsf : UInt64} : ∀ (cards : List CardPtr)
    (s : Kernel), cards.Nodup → (cards.foldl (synced threshold primary primaryTsf) s).drv =
      s.drv ++ cards.flatMap fun c => syncCalls threshold primary primaryTsf c (s.card c)
  | [], s, _ => by simp
  | c :: cards, s, hn => by
    obtain ⟨hc, hn⟩ := List.nodup_cons.mp hn
    have hrest : (cards.flatMap fun d => syncCalls threshold primary primaryTsf d
        ((synced threshold primary primaryTsf s c).card d)) =
        cards.flatMap fun d => syncCalls threshold primary primaryTsf d (s.card d) :=
      List.flatMap_congr fun d hd => by
        have hne : d ≠ c := fun e => hc (e ▸ hd)
        rw [synced_ne s hne]
    rw [List.foldl_cons, drv_foldl_synced cards _ hn, drv_synced, hrest, List.flatMap_cons, List.append_assoc]

/-- A cycle reads the primary and then goes over the list. -/
theorem drv_workFn (hp : s.primary = some p) (hv : (s.card p).vif = some vif) :
    (tsfSyncWorkFn.run s).2.drv = s.drv ++ (getCalls p vif (s.card p) ++ s.cardsList.ptrs.flatMap fun c =>
      syncCalls s.adjtimeThresholdNs p (s.card p).readTsf c (s.card c)) := by
  have hdrv : (tsfSyncWorkFn.run s).2.drv = (s.walked p vif).drv := by
    rw [run_workFn_walks hp hv]
    rfl
  rw [hdrv, Kernel.walked, drv_foldl_synced _ _ s.cardsList.nodup, drv_gotTsf, Kernel.gotTsf_card,
    List.append_assoc]

theorem cycleCalls_walks (hp : s.primary = some p) (hv : (s.card p).vif = some vif) :
    s.cycleCalls = getCalls p vif (s.card p) ++ s.cardsList.ptrs.flatMap fun c =>
      syncCalls s.adjtimeThresholdNs p (s.card p).readTsf c (s.card c) := by
  rw [Kernel.cycleCalls, drv_workFn hp hv, List.drop_left]

end WorkFn

end TsfSync
