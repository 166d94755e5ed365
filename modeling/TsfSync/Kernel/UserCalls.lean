import TsfSync.Kernel.Guards
import TsfSync.Kernel.Lookup

/-!
# What userspace and the workers call

Outlines of the PTP clock operations, of the sync work and of the char device (`outline_userCall`): each pins the cards
that it looks at, and each begins and ends without a lock.
-/

namespace TsfSync

open LockProg Uapi

namespace Lifetime

variable {ι α β : Type} [DecidableEq ι] {readers : List ι} {r i : ι} {H : List (SysLock ι)} {P Pin : Sys → Prop}
  {Q : List (SysLock ι) → (Sys → Prop) → α → Prop}

/-! ## The PTP clock operations -/

section Ops

/-- The end of an operation: both locks are dropped. -/
theorem outline_unlock {c : CardPtr} {k : Card} {p : KProg α} (h : Pins Pin c)
    (hst : (modulePromise readers r).Stable i H Pin) (hp : (modulePromise readers r).Outline i Q H Pin (lift p)) :
    (modulePromise readers r).Outline i Q (.kernel (.wiphy k.hw.wiphy) :: .kernel (.card c) :: H) (WithCard Pin c k)
      (lift (do
        mutexUnlock (.wiphy k.hw.wiphy)
        mutexUnlock (.card c)
        p)) := by
  refine outline_user_release (fun _ hs => hs) ?_ (outline_user_release (fun _ hs => hs.1.1) hst hp)
  exact stable_withCard h (hst.cons _) k List.mem_cons_self

variable (hir : i ≠ r) (hi : i ∈ readers)

include hir hi

theorem outline_gettime (c : CardPtr) : (modulePromise readers r).Outline i (Ends [.ptp c i] (InOp c)) [.ptp c i] (InOp c)
    (lift (tsfPtpGettime c)) := by
  have hpin := pins_inOp c
  have hst : (modulePromise readers r).Stable i [.ptp c i] (InOp c) := stable_inOp hi List.mem_cons_self
  refine outline_lockCard hir hpin hst (by simp) fun k _ => ?_
  cases hv : k.vif with
  | none => exact outline_user_release (fun _ hs => hs.1.1) hst ⟨rfl, fun _ hs => hs⟩
  | some vif =>
    have hget := outline_callGetTsf hir hpin ((hst.cons (.kernel (.card c))).cons (.kernel (.wiphy k.hw.wiphy)))
      (by simp) (by simp) hv
    refine outline_user_acquire (by simp) (outline_user_seq (closed_ends _ _) hget fun tsf => ?_)
    exact outline_unlock hpin hst ⟨rfl, fun _ hs => hs⟩

theorem outline_settime (c : CardPtr) (ts : Timespec64) : (modulePromise readers r).Outline i
    (Ends [.ptp c i] (InOp c)) [.ptp c i] (InOp c) (lift (tsfPtpSettime c ts)) := by
  have hpin := pins_inOp c
  have hst : (modulePromise readers r).Stable i [.ptp c i] (InOp c) := stable_inOp hi List.mem_cons_self
  refine outline_lockCard hir hpin hst (by simp) fun k _ => ?_
  cases hv : k.vif with
  | none => exact outline_user_release (fun _ hs => hs.1.1) hst ⟨rfl, fun _ hs => hs⟩
  | some vif =>
    have hset := outline_callSetTsf hir ((timespec64ToNs ts).toUInt64 / 1000) hpin
      ((hst.cons (.kernel (.card c))).cons (.kernel (.wiphy k.hw.wiphy))) (by simp) (by simp) hv
    refine outline_user_acquire (by simp) (outline_user_seq (closed_ends _ _) hset fun _ => ?_)
    exact outline_unlock hpin hst ⟨rfl, fun _ hs => hs⟩

theorem outline_adjtime (c : CardPtr) (deltaNs : Int64) : (modulePromise readers r).Outline i
    (Ends [.ptp c i] (InOp c)) [.ptp c i] (InOp c) (lift (tsfPtpAdjtime c deltaNs)) := by
  have hpin := pins_inOp c
  have hst : (modulePromise readers r).Stable i [.ptp c i] (InOp c) := stable_inOp hi List.mem_cons_self
  refine outline_user_read hir fun s hs => ⟨?_, _, hs, hst, ?_⟩
  · rintro t ⟨card, rfl, -⟩
    rfl
  cases belowThreshold s.1.adjtimeThresholdNs deltaNs with
  | true =>
    exact outline_user_count hir hpin.regOnly hst (fun s => ⟨rfl, rfl, rfl, rfl, rfl⟩) (fun _ _ => rfl)
      ⟨rfl, fun _ hs => hs⟩
  | false =>
    refine outline_lockCard hir hpin hst (by simp) fun k _ => ?_
    cases hv : k.vif with
    | none => exact outline_user_release (fun _ hs => hs.1.1) hst ⟨rfl, fun _ hs => hs⟩
    | some vif =>
      have hst₂ := (hst.cons (.kernel (.card c))).cons (.kernel (.wiphy k.hw.wiphy))
      have hget := outline_callGetTsf hir hpin hst₂ (by simp) (by simp) hv
      refine outline_user_acquire (by simp) (outline_user_seq (closed_ends _ _) hget fun tsf => ?_)
      have hset := outline_callSetTsf hir (addDeltaNs tsf deltaNs) hpin hst₂ (by simp) (by simp) hv
      refine outline_user_seq (closed_ends _ _) hset fun _ => outline_unlock hpin hst ?_
      exact outline_user_count hir hpin.regOnly hst (fun s => ⟨rfl, rfl, rfl, rfl, rfl⟩) (fun _ _ => rfl)
        ⟨rfl, fun _ hs => hs⟩

theorem outline_getcrosststamp (c : CardPtr) : (modulePromise readers r).Outline i
    (Ends [.ptp c i] (InOp c)) [.ptp c i] (InOp c) (lift (tsfPtpGetcrosststamp c)) := by
  have hpin := pins_inOp c
  have hst : (modulePromise readers r).Stable i [.ptp c i] (InOp c) := stable_inOp hi List.mem_cons_self
  refine outline_lockCard hir hpin hst (by simp) fun k _ => ?_
  cases hv : k.vif with
  | none => exact outline_user_release (fun _ hs => hs.1.1) hst ⟨rfl, fun _ hs => hs⟩
  | some vif =>
    have hst₁ := hst.cons (.kernel (.card c))
    have hknow := stable_withCard hpin (hst₁.cons (.kernel (.wiphy k.hw.wiphy))) k (by simp)
    refine outline_user_acquire (by simp) (outline_user_read hir fun s hs => ⟨?_, _, hs, hknow, ?_⟩)
    · rintro t ⟨card, rfl, -⟩
      rfl
    have hget := outline_callGetTsf hir hpin (hst₁.cons (.kernel (.wiphy k.hw.wiphy))) (by simp) (by simp) hv
    refine outline_user_seq (closed_ends _ _) hget fun tsf => ?_
    refine outline_user_read hir fun s' hs' => ⟨?_, _, hs', hknow, ?_⟩
    · rintro t ⟨card, rfl, -⟩
      rfl
    exact outline_unlock hpin hst ⟨rfl, fun _ hs => hs⟩

omit hi in
/-- A look at the memory. -/
theorem outline_user_heap {g : Heap → β} {f : β → SysProg ι α} (h : ∀ s, P s → ∃ P', P' s ∧
      (modulePromise readers r).Stable i H P' ∧ (modulePromise readers r).Outline i Q H P' (f (g s.2))) :
    (modulePromise readers r).Outline i Q H P (Prog.read (fun s : Sys => g s.2) >>= f) := by
  refine outline_act fun s hs => ⟨⟨?_, ?_⟩, h s hs⟩
  · show if i = r then _ else _
    rw [if_neg hir]
    exact .quiet rfl rfl rfl rfl rfl
  · rintro t ⟨card, rfl, hlive⟩
    exact ⟨rfl, ⟨card, rfl, hlive⟩, .refl _⟩

/-- An operation runs while its clock is registered and ends with the semaphore dropped. -/
theorem outline_posixClockOp {c : CardPtr} {op : KProg (Except Errno α)}
    (hop : (modulePromise readers r).Outline i (Ends [.ptp c i] (InOp c)) [.ptp c i] (InOp c) (lift op)) :
    (modulePromise readers r).Outline i (Ends [] Ok) [] Ok (posixClockOp i c op) := by
  refine outline_acquire (by simp) (outline_user_heap hir (g := (·.clock c)) fun s hs => ?_)
  cases hc : s.2.clock c with
  | false =>
    refine ⟨Ok, hs, stable_ok, ?_⟩
    exact outline_release (f := fun _ => pure _) (fun _ h => h) stable_ok ⟨rfl, fun _ h => h⟩
  | true =>
    refine ⟨InOp c, ⟨hs, hc⟩, stable_inOp hi List.mem_cons_self, ?_⟩
    refine outline_seq (closed_ends _ _) hop fun result => ?_
    exact outline_release (f := fun _ => pure _) (fun _ h => h.1) stable_ok ⟨rfl, fun _ h => h⟩

end Ops

/-! ## The sync work and the char device -/

section Walks

variable (hir : i ≠ r) {cards : List CardPtr} {c : CardPtr}

include hir

/-- A write of the counters of a pinned card. -/
theorem outline_user_write {f : Card → Card} {g : Unit → KProg α} (h : Pins P c)
    (hst : (modulePromise readers r).Stable i H P)
    (hf : ∀ k, (f k).core = k.core ∧ (f k).vif = k.vif ∧ (f k).hw.tsf = k.hw.tsf)
    (hg : (modulePromise readers r).Outline i Q H P (lift (g ()))) :
    (modulePromise readers r).Outline i Q H P (lift (writeCard c f >>= g)) :=
  outline_user_act hir h.regOnly hst fun _ hs =>
    ⟨.setCard c hf, fun _ ht => ⟨rfl, ht.setCard (h.allocated hs) f⟩, hg⟩

theorem outline_syncSecondary (threshold : UInt32) (primary : CardPtr) (primaryTsf : UInt64) (hc : c ∈ cards) :
    (modulePromise readers r).Outline i (Ends [.kernel .cards] (WithList cards)) [.kernel .cards] (WithList cards)
      (lift (syncSecondary threshold primary primaryTsf c)) := by
  have hpin : Pins (WithList cards) c := pins_withList hc
  have hst : (modulePromise readers r).Stable i [.kernel .cards] (WithList cards) := stable_withList List.mem_cons_self
  unfold syncSecondary
  split
  · exact ⟨rfl, fun _ hs => hs⟩
  refine outline_lockCard hir hpin hst (by simp) fun k _ => ?_
  have hknow := stable_withCard hpin (hst.cons (.kernel (.card c))) k List.mem_cons_self
  cases hv : k.vif with
  | none =>
    refine outline_user_release (fun _ hs => hs.1.1) hst ?_
    exact outline_user_write hir (g := pure) hpin hst (fun _ => ⟨rfl, rfl, rfl⟩) ⟨rfl, fun _ hs => hs⟩
  | some vif =>
    have hst₂ := (hst.cons (.kernel (.card c))).cons (.kernel (.wiphy k.hw.wiphy))
    have hknow₂ := hknow.cons (.kernel (.wiphy k.hw.wiphy))
    have hget := outline_callGetTsf hir hpin hst₂ (by simp) (by simp) hv
    have hset := outline_callSetTsf hir primaryTsf hpin hst₂ (by simp) (by simp) hv
    refine outline_user_acquire (by simp) (outline_user_seq (closed_ends _ _) hget fun tsf => ?_)
    refine outline_user_write hir (hpin.withCard k) hknow₂ (fun _ => ⟨rfl, rfl, rfl⟩) ?_
    have hdone : (modulePromise readers r).Outline i (Ends [.kernel .cards] (WithList cards))
        [.kernel (.wiphy k.hw.wiphy), .kernel (.card c), .kernel .cards] (WithCard (WithList cards) c k) (lift (do
          mutexUnlock (.wiphy k.hw.wiphy)
          mutexUnlock (.card c)
          writeCard c fun k => { k with syncCount := k.syncCount + 1 })) := by
      refine outline_unlock hpin hst ?_
      exact outline_user_write hir (g := pure) hpin hst (fun _ => ⟨rfl, rfl, rfl⟩) ⟨rfl, fun _ hs => hs⟩
    split
    · refine outline_user_seq (closed_ends _ _) hset fun _ => ?_
      exact outline_user_count hir (hpin.withCard k).regOnly hknow₂ (fun s => ⟨rfl, rfl, rfl, rfl, rfl⟩)
        (fun _ _ => rfl) hdone
    · exact outline_user_count hir (hpin.withCard k).regOnly hknow₂ (fun s => ⟨rfl, rfl, rfl, rfl, rfl⟩)
        (fun _ _ => rfl) hdone

omit hir in
/-- `cards_lock` is dropped. -/
theorem outline_unlockCards {p : KProg α} (hp : (modulePromise readers r).Outline i Q [] Ok (lift p)) :
    (modulePromise readers r).Outline i Q [.kernel .cards] (WithList cards) (lift (do
      mutexUnlock .cards
      p)) :=
  outline_user_release (fun _ hs => hs.1) stable_ok hp

/-- The walk of the list under `cards_lock`. -/
theorem outline_listEntries {f : List CardPtr → KProg α} (hP : ∀ s, P s → Ok s) (hH : .kernel .cards ∈ H)
    (hf : ∀ cards, (modulePromise readers r).Outline i Q H (WithList cards) (lift (f cards))) :
    (modulePromise readers r).Outline i Q H P (lift (listEntries >>= f)) := by
  refine outline_user_read hir fun s hs => ⟨?_, WithList s.1.cardsList.ptrs, ⟨hP s hs, rfl⟩, stable_withList hH, hf _⟩
  rintro t ⟨card, rfl, -⟩
  rfl

theorem outline_resched (interval : UInt32) : (modulePromise readers r).Outline i (Ends [] Ok) [] Ok
    (lift (resched interval)) :=
  outline_user_count hir (f := pure) regOnly_ok stable_ok (fun _ => ⟨rfl, rfl, rfl, rfl, rfl⟩) (fun _ _ => rfl)
    ⟨rfl, fun _ hs => hs⟩

omit [DecidableEq ι] hir in
theorem findPrimary_spec {s : Sys} (hs : Ok s) :
    (∀ c, (findPrimaryLocked.run s.1).1 = some c → c ∈ s.1.cardsList.ptrs) ∧
      ∀ t, SameButFreed s t → (findPrimaryLocked.run t.1).1 = (findPrimaryLocked.run s.1).1 := by
  simp only [findPrimaryLocked, Prog.run_read]
  refine ⟨fun c hc => ?_, fun t ht => ?_⟩
  · split at hc
    · exact List.mem_of_find?_eq_some hc
    · exact List.mem_of_head? hc
  · have hfind := ht.find hs fun k => k.phyName.bytes == s.1.syncPrimary
    obtain ⟨card, rfl, -⟩ := ht
    split
    · exact hfind
    · rfl

theorem outline_findPrimary {f : Option CardPtr → KProg α}
    (hnone : (modulePromise readers r).Outline i Q [.kernel .cards] Ok (lift (f none)))
    (hsome : ∀ cards, ∀ c ∈ cards, (modulePromise readers r).Outline i Q [.kernel .cards] (WithList cards)
      (lift (f (some c)))) :
    (modulePromise readers r).Outline i Q [.kernel .cards] Ok (lift (findPrimaryLocked >>= f)) := by
  refine outline_user_read hir fun s hs => ⟨(findPrimary_spec hs).2, ?_⟩
  have hmem := (findPrimary_spec hs).1
  change ∃ P', P' s ∧ (modulePromise readers r).Stable i [.kernel .cards] P' ∧
    (modulePromise readers r).Outline i Q [.kernel .cards] P' (lift (f (findPrimaryLocked.run s.1).1))
  cases hfind : (findPrimaryLocked.run s.1).1 with
  | none => exact ⟨Ok, hs, stable_ok, hnone⟩
  | some c =>
    exact ⟨WithList s.1.cardsList.ptrs, ⟨hs, rfl⟩, stable_withList List.mem_cons_self, hsome _ c (hmem c hfind)⟩

/-- A round of the sync work. -/
theorem outline_tsfSyncWorkFn :
    (modulePromise readers r).Outline i (Ends [] Ok) [] Ok (lift tsfSyncWorkFn) := by
  have hend : ∀ interval, (modulePromise readers r).Outline i (Ends [] Ok) [] Ok (lift (do
      incGlobalSyncErrorCount
      resched interval)) := fun interval =>
    outline_user_count hir regOnly_ok stable_ok (fun _ => ⟨rfl, rfl, rfl, rfl, rfl⟩) (fun _ _ => rfl)
      (outline_resched hir interval)
  refine outline_user_read hir fun s hs => ⟨?_, Ok, hs, stable_ok, ?_⟩
  · rintro t ⟨card, rfl, -⟩
    rfl
  refine outline_user_read hir fun s' hs' => ⟨?_, Ok, hs', stable_ok, ?_⟩
  · rintro t ⟨card, rfl, -⟩
    rfl
  refine outline_user_acquire (by simp) (outline_findPrimary hir ?_ fun cards primary hp => ?_)
  · exact outline_user_release (fun _ h => h) stable_ok (hend _)
  have hpin : Pins (WithList cards) primary := pins_withList hp
  have hst : (modulePromise readers r).Stable i [.kernel .cards] (WithList cards) := stable_withList List.mem_cons_self
  refine outline_lockCard hir hpin hst (by simp) fun k _ => ?_
  cases hv : k.vif with
  | none => exact outline_user_release (fun _ h => h.1.1) hst (outline_unlockCards (hend _))
  | some vif =>
    have hget := outline_callGetTsf hir hpin ((hst.cons (.kernel (.card primary))).cons
      (.kernel (.wiphy k.hw.wiphy))) (by simp) (by simp) hv
    refine outline_user_acquire (by simp) (outline_user_seq (closed_ends _ _) hget fun primaryTsf => ?_)
    refine outline_unlock hpin hst (outline_listEntries hir (fun _ h => h.1) List.mem_cons_self fun cards => ?_)
    have hloop : (modulePromise readers r).Outline i (Ends [.kernel .cards] (WithList cards)) [.kernel .cards]
        (WithList cards) (lift (forM cards (syncSecondary s'.1.adjtimeThresholdNs primary primaryTsf))) := by
      rw [lift_forM]
      exact outline_forM fun c hc => outline_syncSecondary hir _ _ _ hc
    refine outline_user_seq (closed_ends _ _) hloop fun _ => outline_unlockCards ?_
    exact outline_user_count hir regOnly_ok stable_ok (fun _ => ⟨rfl, rfl, rfl, rfl, rfl⟩) (fun _ _ => rfl)
      (outline_resched hir _)

/-! ### The char device -/

theorem outline_takeSnapshot (n : Nat) (hc : c ∈ cards) :
    (modulePromise readers r).Outline i (Ends [.kernel .cards] (WithList cards)) [.kernel .cards] (WithList cards)
      (lift (takeSnapshot n c)) := by
  have hpin : Pins (WithList cards) c := pins_withList hc
  have hst : (modulePromise readers r).Stable i [.kernel .cards] (WithList cards) := stable_withList List.mem_cons_self
  -- the name and the wiphy are those of the card as it is before its lock is taken
  refine outline_user_read hir fun s hs => ⟨fun t ht => ht.card (hpin.allocated hs), WithCore (WithList cards) c
    (s.1.card c), ⟨hs, rfl⟩, stable_withCore hpin hst _, ?_⟩
  generalize s.1.card c = k₀
  have hpin₀ := hpin.withCore k₀
  have hst₀ := stable_withCore hpin hst k₀
  refine outline_lockCard hir hpin₀ hst₀ (by simp) fun k hk => ?_
  have hwiphy : k.hw.wiphy = k₀.hw.wiphy := by
    obtain ⟨s', hs', rfl⟩ := hk
    exact (Card.wiphy_of_core hs'.2).1
  cases hv : k.vif with
  | none => exact outline_user_release (fun _ h => h.1.1.1) hst ⟨rfl, fun _ h => h⟩
  | some vif =>
    have hst₁ := hst₀.cons (.kernel (.card c))
    have hget := outline_callGetTsf hir hpin₀ (hst₁.cons (.kernel (.wiphy k₀.hw.wiphy))) (by simp) (by simp [hwiphy])
      hv
    have hknow := stable_withCard hpin₀ hst₁ k List.mem_cons_self
    refine outline_user_acquire (by simp) (outline_user_seq (closed_ends _ _) hget fun tsf => ?_)
    refine outline_user_release (fun _ h => h) hknow (outline_user_read hir fun s' hs' => ⟨?_, _, hs', hknow, ?_⟩)
    · rintro t ⟨card, rfl, -⟩
      rfl
    exact outline_user_release (fun _ h => h.1.1.1) hst ⟨rfl, fun _ h => h⟩

theorem outline_snapshotLoop (numCards : Nat) : ∀ (n : Nat) (rest : List CardPtr), (∀ c ∈ rest, c ∈ cards) →
    (modulePromise readers r).Outline i (Ends [.kernel .cards] (WithList cards)) [.kernel .cards] (WithList cards)
      (lift (snapshotLoop numCards n rest))
  | _, [], _ => ⟨rfl, fun _ h => h⟩
  | n, c :: rest, hrest => by
    have hloop := outline_snapshotLoop numCards (n + 1) rest fun d hd => hrest d (List.mem_cons_of_mem _ hd)
    unfold snapshotLoop
    split
    · exact ⟨rfl, fun _ h => h⟩
    · apply outline_user_seq (closed_ends _ _) (outline_takeSnapshot hir n (hrest c List.mem_cons_self))
      exact fun _ => outline_user_seq (closed_ends _ _) hloop fun _ => ⟨rfl, fun _ h => h⟩

/-- A read of the char device. -/
theorem outline_chardevRead (mem : UserMem) (count : Nat) :
    (modulePromise readers r).Outline i (Ends [] Ok) [] Ok (lift (tsfSyncChardevRead mem count)) := by
  refine outline_user_acquire (by simp) (outline_listEntries hir (fun _ h => h) List.mem_cons_self fun cards => ?_)
  have hret : ∀ answer : Except Errno (List UInt8), (modulePromise readers r).Outline i (Ends [] Ok) [] Ok
      (lift (Prog.ret answer)) := fun _ => ⟨rfl, fun _ h => h⟩
  dsimp only
  split
  · exact outline_unlockCards (hret _)
  split
  · exact outline_unlockCards (hret _)
  refine outline_user_seq (closed_ends _ _) (outline_snapshotLoop hir _ 0 cards fun _ h => h) fun snaps => ?_
  refine outline_unlockCards ?_
  split
  · exact hret _
  · exact hret _

theorem outline_adjustCard (deltaNs : Int64) (hc : c ∈ cards) :
    (modulePromise readers r).Outline i (Ends [.kernel .cards] (WithList cards)) [.kernel .cards] (WithList cards)
      (lift (adjustCard c deltaNs)) := by
  have hpin : Pins (WithList cards) c := pins_withList hc
  have hst : (modulePromise readers r).Stable i [.kernel .cards] (WithList cards) := stable_withList List.mem_cons_self
  refine outline_lockCard hir hpin hst (by simp) fun k _ => ?_
  cases hv : k.vif with
  | none => exact outline_user_release (fun _ h => h.1.1) hst ⟨rfl, fun _ h => h⟩
  | some vif =>
    have hst₂ := (hst.cons (.kernel (.card c))).cons (.kernel (.wiphy k.hw.wiphy))
    have hget := outline_callGetTsf hir hpin hst₂ (by simp) (by simp) hv
    refine outline_user_acquire (by simp) (outline_user_seq (closed_ends _ _) hget fun tsf => ?_)
    have hset := outline_callSetTsf hir (addDeltaNs tsf deltaNs) hpin hst₂ (by simp) (by simp) hv
    refine outline_user_seq (closed_ends _ _) hset fun _ => outline_unlock hpin hst ?_
    exact outline_user_count hir (f := pure) hpin.regOnly hst (fun _ => ⟨rfl, rfl, rfl, rfl, rfl⟩) (fun _ _ => rfl)
      ⟨rfl, fun _ h => h⟩

/-- The list head passes for a card without a VIF. -/
theorem outline_adjustHead (deltaNs : Int64) :
    (modulePromise readers r).Outline i (Ends [.kernel .cards] (WithList cards)) [.kernel .cards] (WithList cards)
      (lift (adjustCard .head deltaNs)) := by
  have hst : (modulePromise readers r).Stable i [.kernel .cards] (WithList cards) := stable_withList List.mem_cons_self
  refine outline_user_acquire (by simp) (outline_user_read hir fun s hs => ⟨?_, _, hs, hst.cons _, ?_⟩)
  · rintro t ⟨card, rfl, hlive⟩
    exact hlive .head (.inl rfl)
  · rw [hs.1.headVif]
    exact outline_user_release (fun _ h => h) hst ⟨rfl, fun _ h => h⟩

/-- A write of the char device. -/
theorem outline_chardevWrite (mem : UserMem) (buf : List UInt8) :
    (modulePromise readers r).Outline i (Ends [] Ok) [] Ok (lift (tsfSyncChardevWrite mem buf)) := by
  have hret : ∀ answer : Except Errno Nat, (modulePromise readers r).Outline i (Ends [] Ok) [] Ok
      (lift (Prog.ret answer)) := fun _ => ⟨rfl, fun _ h => h⟩
  refine outline_user_read hir fun s hs => ⟨?_, Ok, hs, stable_ok, ?_⟩
  · rintro t ⟨card, rfl, -⟩
    rfl
  dsimp only
  split
  · exact hret _
  split
  · exact hret _
  split
  · exact hret _
  split
  · exact hret _
  have hst : (modulePromise readers r).Stable i [.kernel .cards] Ok := stable_ok
  have hround : ∀ adj, (modulePromise readers r).Outline i (Ends [.kernel .cards] Ok) [.kernel .cards] Ok
      (lift (applyAdjustment findByIndex s.1.adjtimeThresholdNs adj)) := by
    intro adj
    unfold applyAdjustment
    split
    · exact outline_user_count hir (f := pure) regOnly_ok hst (fun _ => ⟨rfl, rfl, rfl, rfl, rfl⟩) (fun _ _ => rfl)
        ⟨rfl, fun _ h => h⟩
    refine outline_listEntries hir (fun _ h => h) List.mem_cons_self fun cards => ?_
    have hweaken : ∀ {p : KProg Unit}, (modulePromise readers r).Outline i
        (Ends [.kernel .cards] (WithList cards)) [.kernel .cards] (WithList cards) (lift p) →
        (modulePromise readers r).Outline i (Ends [.kernel .cards] Ok) [.kernel .cards] (WithList cards) (lift p) :=
      fun h => h.mono fun _ _ _ hend => ⟨hend.1, fun s' hs' => (hend.2 s' hs').1⟩
    have hfind := findByIndex_eq cards adj.cardIndex
    cases hcard : findByIndex cards adj.cardIndex with
    | none => exact ⟨rfl, fun _ h => h.1⟩
    | some c =>
      rw [hcard] at hfind
      split at hfind
      · cases hfind
        exact hweaken (outline_adjustHead hir _)
      · exact hweaken (outline_adjustCard hir _ (List.mem_of_getElem? hfind.symm))
  have hloop : (modulePromise readers r).Outline i (Ends [.kernel .cards] Ok) [.kernel .cards] Ok
      (lift (forM (decodeAdjustments buf) (applyAdjustment findByIndex s.1.adjtimeThresholdNs))) := by
    rw [lift_forM]
    exact outline_forM fun adj _ => hround adj
  refine outline_user_acquire (by simp) (outline_user_seq (closed_ends _ _) hloop fun _ => ?_)
  exact outline_user_release (fun _ h => h) stable_ok (hret _)

/-- **What userspace and the workers call keeps their promise.** -/
theorem outline_userCall (hi : i ∈ readers) (call : UserCall) :
    (modulePromise readers r).Outline i (Ends [] Ok) [] Ok (call.prog i) := by
  have hop : ∀ {α : Type} {c : CardPtr} {op : KProg (Except Errno α)}, (modulePromise readers r).Outline i
      (Ends [.ptp c i] (InOp c)) [.ptp c i] (InOp c) (lift op) → (modulePromise readers r).Outline i (Ends [] Ok) [] Ok
        (do let _ ← posixClockOp i c op) := fun h =>
    outline_seq (closed_ends _ _) (outline_posixClockOp hir hi h) fun _ => ⟨rfl, fun _ hs => hs⟩
  have hdev : ∀ {α : Type} {p : KProg α}, (modulePromise readers r).Outline i (Ends [] Ok) [] Ok (lift p) →
      (modulePromise readers r).Outline i (Ends [] Ok) [] Ok (lift do let _ ← p) := fun h =>
    outline_user_seq (closed_ends _ _) h fun _ => ⟨rfl, fun _ hs => hs⟩
  cases call with
  | gettime c => exact hop (outline_gettime hir hi c)
  | settime c ts => exact hop (outline_settime hir hi c ts)
  | adjtime c deltaNs => exact hop (outline_adjtime hir hi c deltaNs)
  | getcrosststamp c => exact hop (outline_getcrosststamp hir hi c)
  | syncWork => exact outline_tsfSyncWorkFn hir
  | chardevRead mem count => exact hdev (outline_chardevRead hir mem count)
  | chardevWrite mem buf => exact hdev (outline_chardevWrite hir mem buf)

end Walks

end Lifetime

end TsfSync
