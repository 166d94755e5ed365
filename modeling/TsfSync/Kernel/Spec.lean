import TsfSync.Kernel.Chardev
import TsfSync.Kernel.SyncWork

/-!
# What the module's functions do when they run alone

One equation for each function: its result and final state as a pure function of the state it starts in
(`run_adjustCard`, `run_takeSnapshot`, `run_chardevRead`, `run_chardevWrite`, `run_syncSecondary`), over two state changes
for the driver calls, `gotTsf` and `putTsf`.
-/

namespace TsfSync

open LockProg MachineWord Uapi

/-- What `tsf_ptp_call_get_tsf` returns for a card. -/
def Card.readTsf (k : Card) : UInt64 := if k.hw.ops.getTsf then k.hw.tsf else 0

namespace Kernel

/-- The state after `tsf_ptp_call_get_tsf`. -/
def gotTsf (s : Kernel) (c : CardPtr) (vif : DevId) : Kernel :=
  if (s.card c).hw.ops.getTsf then { s with drv := s.drv ++ [.getTsf c vif] } else s

/-- The state after `tsf_ptp_call_set_tsf`. -/
def putTsf (s : Kernel) (c : CardPtr) (vif : DevId) (tsf : UInt64) : Kernel :=
  if (s.card c).hw.ops.setTsf then
    { s.setCard c (fun k => { k with hw := { k.hw with tsf := tsf } }) with drv := s.drv ++ [.setTsf c vif tsf] }
  else s

/-- One more applied adjustment. -/
def applied (s : Kernel) : Kernel := { s with adjtimeApplyCount := s.adjtimeApplyCount + 1 }

/-- One more skipped adjustment. -/
def skipped (s : Kernel) : Kernel := { s with adjtimeSkipCount := s.adjtimeSkipCount + 1 }

variable (s : Kernel) (c : CardPtr) (vif : DevId) (tsf : UInt64)

@[simp] theorem gotTsf_card : (s.gotTsf c vif).card = s.card := by unfold gotTsf; split <;> rfl

@[simp] theorem gotTsf_cardsList : (s.gotTsf c vif).cardsList = s.cardsList := by unfold gotTsf; split <;> rfl

@[simp] theorem gotTsf_threshold : (s.gotTsf c vif).adjtimeThresholdNs = s.adjtimeThresholdNs := by
  unfold gotTsf; split <;> rfl

@[simp] theorem putTsf_cardsList : (s.putTsf c vif tsf).cardsList = s.cardsList := by unfold putTsf; split <;> rfl

@[simp] theorem putTsf_threshold : (s.putTsf c vif tsf).adjtimeThresholdNs = s.adjtimeThresholdNs := by
  unfold putTsf; split <;> rfl

theorem putTsf_ne {d : CardPtr} (h : d ≠ c) : (s.putTsf c vif tsf).card d = s.card d := by
  unfold putTsf
  split
  · exact s.setCard_ne (fun k => { k with hw := { k.hw with tsf := tsf } }) h
  · rfl

theorem putTsf_self : (s.putTsf c vif tsf).card c =
    if (s.card c).hw.ops.setTsf then { s.card c with hw := { (s.card c).hw with tsf := tsf } } else s.card c := by
  unfold putTsf
  split <;> simp

@[simp] theorem applied_card : s.applied.card = s.card := rfl

@[simp] theorem applied_cardsList : s.applied.cardsList = s.cardsList := rfl

@[simp] theorem applied_drv : s.applied.drv = s.drv := rfl

@[simp] theorem skipped_card : s.skipped.card = s.card := rfl

@[simp] theorem skipped_cardsList : s.skipped.cardsList = s.cardsList := rfl

@[simp] theorem skipped_drv : s.skipped.drv = s.drv := rfl

end Kernel

variable (s : Kernel) (c : CardPtr) (vif : DevId) (tsf : UInt64)

/-! ## Single steps -/

@[simp] theorem run_mutexLock (l : LockId) : (mutexLock l).run s = ((), s) := rfl

@[simp] theorem run_mutexUnlock (l : LockId) : (mutexUnlock l).run s = ((), s) := rfl

@[simp] theorem trace_mutexLock (l : LockId) : (mutexLock l).trace s = [.take l] := rfl

@[simp] theorem trace_mutexUnlock (l : LockId) : (mutexUnlock l).trace s = [.drop l] := rfl

@[simp] theorem run_listEntries : listEntries.run s = (s.cardsList.ptrs, s) := rfl

@[simp] theorem trace_listEntries : listEntries.trace s = [] := rfl

@[simp] theorem run_readCard : (readCard c).run s = (s.card c, s) := rfl

@[simp] theorem trace_readCard : (readCard c).trace s = [] := rfl

@[simp] theorem run_writeCard (f : Card → Card) : (writeCard c f).run s = ((), s.setCard c f) := rfl

@[simp] theorem run_incSkipCount : incSkipCount.run s = ((), s.skipped) := rfl

@[simp] theorem trace_incSkipCount : incSkipCount.trace s = [] := rfl

@[simp] theorem run_incApplyCount : incApplyCount.run s = ((), s.applied) := rfl

@[simp] theorem trace_incApplyCount : incApplyCount.trace s = [] := rfl

@[simp] theorem run_callGetTsf : (tsfPtpCallGetTsf c vif).run s = ((s.card c).readTsf, s.gotTsf c vif) := by
  cases h : (s.card c).hw.ops.getTsf <;> simp [tsfPtpCallGetTsf, Card.readTsf, Kernel.gotTsf, h, drvGetTsf, Prog.run]

@[simp] theorem run_callSetTsf : (tsfPtpCallSetTsf c vif tsf).run s = ((), s.putTsf c vif tsf) := by
  cases h : (s.card c).hw.ops.setTsf <;> simp [tsfPtpCallSetTsf, Kernel.putTsf, h, drvSetTsf]

@[simp] theorem trace_callGetTsf : (tsfPtpCallGetTsf c vif).trace s = [] := by
  cases h : (s.card c).hw.ops.getTsf <;> simp [tsfPtpCallGetTsf, h, drvGetTsf, Prog.trace]

@[simp] theorem trace_callSetTsf : (tsfPtpCallSetTsf c vif tsf).trace s = [] := by
  cases h : (s.card c).hw.ops.setTsf <;> simp [tsfPtpCallSetTsf, h, drvSetTsf]

/-! ## The char device -/

/-- The state after `adjustCard`. -/
def adjusted (s : Kernel) (c : CardPtr) (deltaNs : Int64) : Kernel :=
  match (s.card c).vif with
  | none => s
  | some vif => ((s.gotTsf c vif).putTsf c vif (addDeltaNs (s.card c).readTsf deltaNs)).applied

@[simp] theorem run_adjustCard (deltaNs : Int64) : (adjustCard c deltaNs).run s = ((), adjusted s c deltaNs) := by
  unfold adjustCard adjusted
  cases h : (s.card c).vif <;> simp [h]

/-- Adjusting a card takes its lock first. -/
theorem take_mem_trace_adjustCard (deltaNs : Int64) : LockOp.take (.card c) ∈ (adjustCard c deltaNs).trace s := by
  simp [adjustCard]

/-- The only card lock that adjusting a card takes is its own. -/
theorem eq_of_take_mem_trace_adjustCard {d : CardPtr} {deltaNs : Int64}
    (h : LockOp.take (.card d) ∈ (adjustCard c deltaNs).trace s) : d = c := by
  unfold adjustCard at h
  cases hv : (s.card c).vif <;> simpa [hv] using h

/-- The state after one adjustment of a write. -/
def adjustedAt (find : List CardPtr → UInt32 → Option CardPtr) (threshold : UInt32) (s : Kernel) (adj : TsfAdjustment) :
    Kernel :=
  if belowThreshold threshold adj.deltaNs then s.skipped
  else match find s.cardsList.ptrs adj.cardIndex with
    | none => s
    | some c => adjusted s c adj.deltaNs

@[simp] theorem run_applyAdjustment (find : List CardPtr → UInt32 → Option CardPtr) (threshold : UInt32)
    (adj : TsfAdjustment) :
    (applyAdjustment find threshold adj).run s = ((), adjustedAt find threshold s adj) := by
  unfold applyAdjustment adjustedAt
  cases belowThreshold threshold adj.deltaNs
  · cases h : find s.cardsList.ptrs adj.cardIndex <;> simp [h]
  · simp

/-- A write of whole adjustments applies them one after the other. -/
theorem run_chardevWrite (find : List CardPtr → UInt32 → Option CardPtr) (buf : List UInt8) :
    ((chardevWrite find .ok buf).run s).2 =
      (decodeAdjustments buf).foldl (adjustedAt find s.adjtimeThresholdNs) s := by
  unfold chardevWrite
  by_cases h0 : buf.length = 0
  · simp [h0, decodeAdjustments, ByteCodec.records]
  · by_cases h1 : buf.length / adjSize = 0
    · simp [h0, h1, decodeAdjustments, ByteCodec.records]
    · simp [h0, h1, UserMem.ok, Prog.run_forM]

/-- The state after `takeSnapshot`. -/
def peeked (s : Kernel) (c : CardPtr) : Kernel :=
  match (s.card c).vif with
  | none => s
  | some vif => s.gotTsf c vif

/-- The TSF in nanoseconds that a snapshot reports, `0` without a VIF. -/
def Card.snapNs (k : Card) : Int64 := if k.vif.isSome then tsfToNs k.readTsf else 0

/-- The snapshot of a card at a position. -/
def snapshotOf (s : Kernel) (i : Nat) (c : CardPtr) : TsfSnapshot where
  cardIndex := UInt32.ofNat i
  phyNameLen := UInt32.ofNat (s.card c).phyName.bytes.length
  phyName := padName (s.card c).phyName
  tsfNs := (s.card c).snapNs
  monoNs := if (s.card c).vif.isSome then s.ktimeNs else 0

@[simp] theorem peeked_card : (peeked s c).card = s.card := by
  unfold peeked
  split <;> simp

@[simp] theorem peeked_cardsList : (peeked s c).cardsList = s.cardsList := by
  unfold peeked
  split <;> simp

@[simp] theorem peeked_ktimeNs : (peeked s c).ktimeNs = s.ktimeNs := by
  unfold peeked Kernel.gotTsf
  split
  · rfl
  · split <;> rfl

@[simp] theorem run_takeSnapshot (i : Nat) : (takeSnapshot i c).run s = (snapshotOf s i c, peeked s c) := by
  unfold takeSnapshot peeked snapshotOf Card.snapNs
  cases h : (s.card c).vif with
  | none => simp [h]
  | some vif =>
    have hk : (s.gotTsf c vif).ktimeNs = s.ktimeNs := by unfold Kernel.gotTsf; split <;> rfl
    simp [h, hk]

/-- The walk of the read takes a snapshot of every card. -/
theorem run_snapshotLoop (n : Nat) : ∀ (cards : List CardPtr) (i : Nat) (s : Kernel), i + cards.length ≤ n →
    (snapshotLoop n i cards).run s = (cards.mapIdx fun j c => snapshotOf s (i + j) c, cards.foldl peeked s)
  | [], _, _, _ => rfl
  | c :: cards, i, s, h => by
    rw [List.length_cons] at h
    have ih := run_snapshotLoop n cards (i + 1) (peeked s c) (by omega)
    have hsnap : ∀ j d, snapshotOf (peeked s c) j d = snapshotOf s j d := fun j d => by simp [snapshotOf]
    unfold snapshotLoop
    simp only [show ¬i ≥ n by omega, if_false, Prog.run_bind, run_takeSnapshot, ih, Prog.run_pure, List.mapIdx_cons,
      List.foldl_cons, hsnap, Nat.add_zero]
    simp only [Nat.add_assoc, Nat.add_comm 1]

/-- The snapshots of all cards. -/
def snapshots (s : Kernel) : List TsfSnapshot := s.cardsList.ptrs.mapIdx (snapshotOf s)

/-- A read copies out the snapshots of all cards, as far as they fit. -/
theorem run_chardevRead (count : Nat) : (tsfSyncChardevRead .ok count).run s =
    (.ok (((snapshots s).flatMap TsfSnapshot.bytes).take count), s.cardsList.ptrs.foldl peeked s) := by
  unfold tsfSyncChardevRead snapshots
  cases hc : s.cardsList.ptrs with
  | nil => simp [hc]
  | cons c cards =>
    have hloop := run_snapshotLoop (cards.length + 1) (c :: cards) 0 s (by simp)
    have hlen := ByteCodec.length_flatMap_const TsfSnapshot.length_bytes
      ((c :: cards).mapIdx fun j c => snapshotOf s (0 + j) c)
    simp only [Nat.zero_add] at hloop hlen
    have htake : ∀ (bs : List UInt8), bs.take (min count bs.length) = bs.take count := fun bs => by
      rw [← List.take_take, List.take_length]
    simp only [Prog.run_bind, run_mutexLock, run_mutexUnlock, run_listEntries, hc, List.length_cons,
      Nat.succ_ne_zero, if_false, UserMem.ok, Bool.not_true, Bool.false_eq_true, hloop, ← hlen, htake, Prog.run_pure]

/-! ## Mode B -/

/-- The state after `syncSecondary`. -/
def synced (threshold : UInt32) (primary : CardPtr) (primaryTsf : UInt64) (s : Kernel) (c : CardPtr) : Kernel :=
  if c = primary then s
  else match (s.card c).vif with
    | none => s.setCard c fun k => { k with syncErrorCount := k.syncErrorCount + 1 }
    | some vif =>
      let deltaNs := offsetNs primaryTsf (s.card c).readTsf
      let s₁ := (s.gotTsf c vif).setCard c fun k => { k with lastOffsetNs := deltaNs }
      let s₂ := if reachesThreshold threshold deltaNs then (s₁.putTsf c vif primaryTsf).applied else s₁.skipped
      s₂.setCard c fun k => { k with syncCount := k.syncCount + 1 }

@[simp] theorem run_syncSecondary (threshold : UInt32) (primary : CardPtr) (primaryTsf : UInt64) :
    (syncSecondary threshold primary primaryTsf c).run s = ((), synced threshold primary primaryTsf s c) := by
  unfold syncSecondary synced
  by_cases hc : c = primary
  · simp [hc]
  · cases hv : (s.card c).vif with
    | none => simp [hc, hv]
    | some vif => cases hr : reachesThreshold threshold (offsetNs primaryTsf (s.card c).readTsf) <;> simp [hc, hv, hr]

/-- The card that `find_primary_locked` returns. -/
def Kernel.primary (s : Kernel) : Option CardPtr := (findPrimaryLocked.run s).1

end TsfSync
