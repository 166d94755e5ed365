import Mathlib.Algebra.BigOperators.Pi
import Mathlib.Data.UInt
import TsfSync.Lib.Ledger
import TsfSync.Kernel.LockOrder

/-!
# Adjustments of one card by many threads

`tsf_ptp_adjtime` and the rounds of `tsf_sync_chardev_write` read the TSF of a card and write it back changed, under the
lock of the card. A ledger over that lock (`cardLedger`) makes each of them a payment: it owes the card the delta in
microseconds and the counter one application (`owes_adjtime`, `owes_chardevWrite`). Threads that make such calls under
any schedule therefore lose none of them (`adjustments_not_lost`).
-/

namespace TsfSync

open LockProg MachineWord Uapi

/-- What one adjustment adds: to the TSF in microseconds, and to `adjtime_apply_count`. -/
abbrev Applied := UInt64 × Nat

/-- The card as all threads leave it: its VIF is up, its driver has both TSF ops, and neither the threshold nor the
list changes. -/
structure Adjustable (c : CardPtr) (threshold : UInt32) (cards : List CardPtr) (s : Kernel) : Prop where
  vif : (s.card c).vif.isSome = true
  getTsf : (s.card c).hw.ops.getTsf = true
  setTsf : (s.card c).hw.ops.setTsf = true
  threshold : s.adjtimeThresholdNs = threshold
  cards : s.cardsList.ptrs = cards

/-- The TSF of a card is protected by the lock of the card. -/
def cardLedger (c : CardPtr) (threshold : UInt32) (cards : List CardPtr) : Ledger Kernel LockId UInt64 Applied where
  lock := .card c
  view := fun s => (s.card c).hw.tsf
  amount := fun s => ((s.card c).hw.tsf, s.adjtimeApplyCount)
  ok := Adjustable c threshold cards

/-- What a delta that is not skipped adds. -/
def owed (threshold : UInt32) (deltaNs : Int64) : Applied :=
  if belowThreshold threshold deltaNs then 0 else ((deltaNs / nsecPerUsec).toUInt64, 1)

section Rules

variable {c : CardPtr} {threshold : UInt32} {cards : List CardPtr} {α : Type}
  {Q : Option UInt64 → α → Applied → Prop} {h : Option UInt64} {m : Applied}

/-- The counter of skipped deltas is not part of the ledger. -/
theorem owes_incSkipCount {f : Unit → KProg α} (hf : Owes (cardLedger c threshold cards) Q h (f ()) m) :
    Owes (cardLedger c threshold cards) Q h (incSkipCount >>= f) m :=
  owes_act_keep fun _ hs _ => ⟨⟨hs.vif, hs.getTsf, hs.setTsf, hs.threshold, hs.cards⟩, rfl, m, rfl, hf⟩

/-- An application is counted with the lock or without it. -/
theorem owes_incApplyCount {f : Unit → KProg α} (hf : Owes (cardLedger c threshold cards) Q h (f ()) m) :
    Owes (cardLedger c threshold cards) Q h (incApplyCount >>= f) ((0, 1) + m) := by
  refine owes_act_keep fun s hs _ =>
    ⟨⟨hs.vif, hs.getTsf, hs.setTsf, hs.threshold, hs.cards⟩, rfl, m, ?_, hf⟩
  have hcount : ((s.card c).hw.tsf, s.adjtimeApplyCount + 1) = ((s.card c).hw.tsf, s.adjtimeApplyCount) + (0, 1) := by
    rw [Prod.mk_add_mk, add_zero]
  show ((s.card c).hw.tsf, s.adjtimeApplyCount + 1) + m = ((s.card c).hw.tsf, s.adjtimeApplyCount) + ((0, 1) + m)
  rw [hcount, add_assoc]

/-- With the lock held the driver's `get_tsf` gives the protected TSF. -/
theorem owes_callGetTsf {vif : DevId} {tsf : UInt64} {f : UInt64 → KProg α}
    (hf : Owes (cardLedger c threshold cards) Q (some tsf) (f tsf) m) :
    Owes (cardLedger c threshold cards) Q (some tsf) (tsfPtpCallGetTsf c vif >>= f) m := by
  refine owes_bind (owes_read_bind fun s hs _ => ?_)
  rw [hs.getTsf]
  refine owes_act_keep fun s' hs' hv =>
    ⟨⟨hs'.vif, hs'.getTsf, hs'.setTsf, hs'.threshold, hs'.cards⟩, rfl, m, rfl, ?_⟩
  have htsf : (s'.card c).hw.tsf = tsf := hv tsf rfl
  rw [htsf]
  exact hf

/-- With the lock held a write of the TSF pays the difference. -/
theorem owes_callSetTsf {vif : DevId} {tsf delta : UInt64} {f : Unit → KProg α}
    (hf : Owes (cardLedger c threshold cards) Q (some (tsf + delta)) (f ()) m) :
    Owes (cardLedger c threshold cards) Q (some tsf) (tsfPtpCallSetTsf c vif (tsf + delta) >>= f) ((delta, 0) + m) := by
  refine owes_bind (owes_read_bind fun s hs _ => ?_)
  rw [hs.setTsf]
  intro s' hs' hv
  have htsf : (s'.card c).hw.tsf = tsf := hv tsf rfl
  let upd : Card → Card := fun k => { k with hw := { k.hw with tsf := tsf + delta } }
  have hcard : (s'.setCard c upd).card c = upd (s'.card c) := Kernel.setCard_self s' c upd
  refine ⟨⟨?_, ?_, ?_, hs'.threshold, hs'.cards⟩, fun e => (by cases e), m, ?_, ?_⟩
  · show ((s'.setCard c upd).card c).vif.isSome = true
    rw [hcard]; exact hs'.vif
  · show ((s'.setCard c upd).card c).hw.ops.getTsf = true
    rw [hcard]; exact hs'.getTsf
  · show ((s'.setCard c upd).card c).hw.ops.setTsf = true
    rw [hcard]; exact hs'.setTsf
  · show (((s'.setCard c upd).card c).hw.tsf, s'.adjtimeApplyCount) + m =
      ((s'.card c).hw.tsf, s'.adjtimeApplyCount) + ((delta, 0) + m)
    rw [hcard, htsf, ← add_assoc]
    rfl
  · show Owes _ Q (some ((s'.setCard c upd).card c).hw.tsf) (f ()) m
    rw [hcard]
    exact hf

/-! ## The two entry points -/

/-- The critical section that both entry points share. -/
theorem owes_readModifyWrite {w : WiphyId} {vif : DevId} {deltaNs : Int64} {tsf : UInt64} {f : Unit → KProg α}
    (hf : Owes (cardLedger c threshold cards) Q none (f ()) m) :
    Owes (cardLedger c threshold cards) Q (some tsf)
      (do mutexLock (.wiphy w)
          let tsf ← tsfPtpCallGetTsf c vif
          tsfPtpCallSetTsf c vif (addDeltaNs tsf deltaNs)
          mutexUnlock (.wiphy w)
          mutexUnlock (.card c)
          incApplyCount
          f ()) (((deltaNs / nsecPerUsec).toUInt64, 1) + m) := by
  have hsplit : (((deltaNs / nsecPerUsec).toUInt64, 1) : Applied) = ((deltaNs / nsecPerUsec).toUInt64, 0) + (0, 1) := by
    rw [Prod.mk_add_mk, add_zero, zero_add]
  have hwiphy : LockId.wiphy w ≠ (cardLedger c threshold cards).lock := fun e => by cases e
  rw [hsplit, add_assoc]
  refine owes_acquire_other hwiphy (owes_callGetTsf (owes_callSetTsf ?_))
  exact owes_release_other hwiphy (owes_release_lock (owes_incApplyCount hf))

/-- `tsf_ptp_adjtime` owes the card its delta. -/
theorem owes_adjtime (c : CardPtr) (deltaNs : Int64) (rest : Applied) :
    Owes (cardLedger c threshold cards) (fun h _ m => h = none ∧ m = rest) none (tsfPtpAdjtime c deltaNs)
      (owed threshold deltaNs + rest) := by
  refine owes_read_bind fun s hs _ => ?_
  rw [hs.threshold, owed]
  cases belowThreshold threshold deltaNs with
  | true =>
    rw [if_pos rfl, if_pos rfl, zero_add]
    exact owes_incSkipCount ⟨rfl, rfl⟩
  | false =>
    rw [if_neg (by decide), if_neg (by decide)]
    refine owes_acquire_lock fun tsf => owes_read_bind fun s hs _ => ?_
    obtain ⟨vif, hvif⟩ := Option.isSome_iff_exists.mp hs.vif
    rw [hvif]
    have hend : Owes (cardLedger c threshold cards) (fun h (_ : Except Errno Unit) m => h = none ∧ m = rest) none
      (pure (.ok ())) rest := ⟨rfl, rfl⟩
    exact owes_readModifyWrite (f := fun _ => pure (Except.ok ())) hend

/-- The critical section of one round of `tsf_sync_chardev_write`. -/
theorem owes_adjustCard (c : CardPtr) (deltaNs : Int64) (rest : Applied) :
    Owes (cardLedger c threshold cards) (fun h _ m => h = none ∧ m = rest) none (adjustCard c deltaNs)
      (((deltaNs / nsecPerUsec).toUInt64, 1) + rest) := by
  refine owes_acquire_lock fun tsf => owes_read_bind fun s hs _ => ?_
  obtain ⟨vif, hvif⟩ := Option.isSome_iff_exists.mp hs.vif
  rw [hvif]
  exact owes_readModifyWrite (f := pure) ⟨rfl, rfl⟩

/-- One round for an entry that is aimed at the card owes it its delta. -/
theorem owes_applyAdjustment {adj : TsfAdjustment} (haim : findByIndex cards adj.cardIndex = some c) (rest : Applied) :
    Owes (cardLedger c threshold cards) (fun h _ m => h = none ∧ m = rest) none
      (applyAdjustment findByIndex threshold adj) (owed threshold adj.deltaNs + rest) := by
  unfold applyAdjustment owed
  cases belowThreshold threshold adj.deltaNs with
  | true =>
    rw [if_pos rfl, if_pos rfl, zero_add]
    exact owes_incSkipCount ⟨rfl, rfl⟩
  | false =>
    rw [if_neg (by decide), if_neg (by decide)]
    refine owes_read_bind fun s hs _ => ?_
    rw [hs.cards, haim]
    exact owes_adjustCard c adj.deltaNs rest

end Rules

namespace Call

/-- The deltas of a call; a write that gets no memory or cannot copy its buffer makes no adjustment. -/
def deltas : Call → List Int64
  | .adjtime _ deltaNs => [deltaNs]
  | .chardevWrite mem buf => if mem.alloc && mem.copy then (decodeAdjustments buf).map (·.deltaNs) else []
  | .gettime _ | .settime _ _ | .getcrosststamp _ | .syncWork | .chardevRead _ _ | .netdevEvent _ _ _ => []

/-- An adjustment of the card, or a write whose entries are all aimed at it. -/
def Adjusts (cards : List CardPtr) (c : CardPtr) : Call → Prop
  | .adjtime c' _ => c' = c
  | .chardevWrite _ buf => ∀ adj ∈ decodeAdjustments buf, findByIndex cards adj.cardIndex = some c
  | .gettime _ | .settime _ _ | .getcrosststamp _ | .syncWork | .chardevRead _ _ | .netdevEvent _ _ _ => False

end Call

section Calls

variable {c : CardPtr} {threshold : UInt32} {cards : List CardPtr}

/-- `tsf_sync_chardev_write` owes the card the deltas of its entries. -/
theorem owes_chardevWrite {mem : UserMem} {buf : List UInt8}
    (haim : ∀ adj ∈ decodeAdjustments buf, findByIndex cards adj.cardIndex = some c) (rest : Applied) :
    Owes (cardLedger c threshold cards) (fun h _ m => h = none ∧ m = rest) none (tsfSyncChardevWrite mem buf)
      (((Call.chardevWrite mem buf).deltas.map (owed threshold)).sum + rest) := by
  refine owes_read_bind fun s hs _ => ?_
  rw [hs.threshold]
  have hshort : buf.length / adjSize = 0 → decodeAdjustments buf = [] := by
    intro h
    rw [decodeAdjustments, h]
    rfl
  have hnone : (Call.chardevWrite mem buf).deltas = [] → ∀ e : Except Errno Nat,
      Owes (cardLedger c threshold cards) (fun h _ m => h = none ∧ m = rest) none (pure e)
        (((Call.chardevWrite mem buf).deltas.map (owed threshold)).sum + rest) := by
    intro h e
    rw [h, List.map_nil, List.sum_nil, zero_add]
    exact ⟨rfl, rfl⟩
  have hempty : decodeAdjustments buf = [] → (Call.chardevWrite mem buf).deltas = [] := by
    intro h
    rw [Call.deltas, h, List.map_nil, ite_self]
  dsimp only
  split
  · rename_i hlen
    exact hnone (hempty (hshort (by rw [hlen, Nat.zero_div]))) _
  split
  · rename_i _ hlen
    exact hnone (hempty (hshort hlen)) _
  split
  · rename_i halloc
    exact hnone (by simp_all [Call.deltas]) _
  split
  · rename_i hcopy
    exact hnone (by simp_all [Call.deltas]) _
  rename_i halloc hcopy
  have hdeltas : (Call.chardevWrite mem buf).deltas = (decodeAdjustments buf).map (·.deltaNs) := by
    simp_all [Call.deltas]
  have hcards : LockId.cards ≠ (cardLedger c threshold cards).lock := fun e => by cases e
  rw [hdeltas, List.map_map]
  refine owes_acquire_other hcards (owes_bind ((owes_forM fun adj hadj => ?_).mono ?_))
  · exact owes_applyAdjustment (haim adj hadj)
  · rintro h a m ⟨rfl, rfl⟩
    exact owes_release_other hcards ⟨rfl, rfl⟩

/-- Every such call owes the card its deltas. -/
theorem owes_call {call : Call} (haim : call.Adjusts cards c) (rest : Applied) :
    Owes (cardLedger c threshold cards) (fun h _ m => h = none ∧ m = rest) none call.prog
      ((call.deltas.map (owed threshold)).sum + rest) := by
  cases call with
  | adjtime c' deltaNs =>
    cases haim
    show Owes _ _ none (tsfPtpAdjtime c deltaNs >>= fun _ => pure ()) (([deltaNs].map (owed threshold)).sum + rest)
    rw [List.map_singleton, List.sum_singleton]
    refine owes_bind ((owes_adjtime c deltaNs rest).mono ?_)
    rintro h a m ⟨rfl, rfl⟩
    exact ⟨rfl, rfl⟩
  | chardevWrite mem buf =>
    refine owes_bind ((owes_chardevWrite haim rest).mono ?_)
    rintro h a m ⟨rfl, rfl⟩
    exact ⟨rfl, rfl⟩
  | gettime c' => cases haim
  | settime c' ts => cases haim
  | getcrosststamp c' => cases haim
  | syncWork => cases haim
  | chardevRead mem count => cases haim
  | netdevEvent env event dev => cases haim

end Calls

/-! ## Threads -/

/-- The deltas of some calls that the threshold does not skip. -/
def notSkipped (threshold : UInt32) (calls : List Call) : List Int64 :=
  (calls.flatMap (·.deltas)).filter fun deltaNs => !belowThreshold threshold deltaNs

/-- The sum of the deltas in whole microseconds. -/
def sumUsec (deltas : List Int64) : Int := (deltas.map fun deltaNs => deltaNs.toInt.tdiv 1000).sum

/-- What a list of deltas owes is their sum in microseconds and their number. -/
theorem sum_owed (threshold : UInt32) (deltas : List Int64) :
    ((deltas.map (owed threshold)).sum.1.toNat : Int) ≡
        sumUsec (deltas.filter fun deltaNs => !belowThreshold threshold deltaNs) [ZMOD 2 ^ 64] ∧
      (deltas.map (owed threshold)).sum.2 = (deltas.filter fun deltaNs => !belowThreshold threshold deltaNs).length := by
  induction deltas with
  | nil => exact ⟨rfl, rfl⟩
  | cons d ds ih =>
    obtain ⟨hsum, hcount⟩ := ih
    rw [List.map_cons, List.sum_cons, List.filter_cons, Prod.fst_add, Prod.snd_add, owed]
    cases belowThreshold threshold d with
    | true =>
      rw [if_pos rfl, Prod.fst_zero, Prod.snd_zero, zero_add, zero_add]
      exact ⟨hsum, hcount⟩
    | false =>
      have hquot : (d / nsecPerUsec).toInt = d.toInt.tdiv 1000 := Int64.toInt_div_of_ne_right _ _ (by decide)
      have hd := toNat_toUInt64_modEq (d / nsecPerUsec)
      rw [hquot] at hd
      constructor
      · exact (toNat_add_modEq _ _).trans (hd.add hsum)
      · show 1 + _ = _ + 1
        rw [hcount, Nat.add_comm]

/-- A sum of words is the sum of the integers they stand for, modulo `2^64`. -/
theorem toNat_sum_modEq {ι : Type} [DecidableEq ι] {f : ι → UInt64} {g : ι → Int} (s : Finset ι)
    (h : ∀ i ∈ s, ((f i).toNat : Int) ≡ g i [ZMOD 2 ^ 64]) :
    ((∑ i ∈ s, f i).toNat : Int) ≡ ∑ i ∈ s, g i [ZMOD 2 ^ 64] := by
  induction s using Finset.induction_on with
  | empty => exact rfl
  | insert i s hi ih =>
    rw [Finset.sum_insert hi, Finset.sum_insert hi]
    exact (toNat_add_modEq _ _).trans ((h i (Finset.mem_insert_self i s)).add
      (ih fun j hj => h j (Finset.mem_insert_of_mem hj)))

/-- Threads owe what their calls owe. -/
theorem owesAll_thread {c : CardPtr} {threshold : UInt32} {cards : List CardPtr} {calls : List Call}
    (haim : ∀ call ∈ calls, call.Adjusts cards c) :
    OwesAll (cardLedger c threshold cards) (thread calls)
      ((calls.flatMap (·.deltas)).map (owed threshold)).sum := by
  have hsum : ((calls.flatMap (·.deltas)).map (owed threshold)).sum =
      (calls.map fun call => (call.deltas.map (owed threshold)).sum).sum + 0 := by
    rw [add_zero, List.map_flatMap, List.flatMap_def, List.sum_flatten, List.map_map]
    rfl
  rw [hsum]
  exact owes_forM fun call hcall => owes_call (haim call hcall)

/-- **No adjustment is lost**: when any number of threads have made their `tsf_ptp_adjtime` and `tsf_sync_chardev_write`
calls on one card, interleaved in any way, its TSF has moved by the sum of all deltas that the threshold does not skip,
each truncated to microseconds, and `adjtime_apply_count` by their number. -/
theorem adjustments_not_lost {ι : Type} [Fintype ι] [DecidableEq ι] (calls : ι → List Call) {s : Kernel}
    {c : CardPtr} (hvif : (s.card c).vif.isSome = true) (hget : (s.card c).hw.ops.getTsf = true)
    (hset : (s.card c).hw.ops.setTsf = true) (haim : ∀ i, ∀ call ∈ calls i, call.Adjusts s.cardsList.ptrs c)
    {sched : List ι} {p : Pool ι Kernel LockId}
    (hrun : Pool.runs sched (Pool.start (fun i => thread (calls i)) s) = some p)
    (hdone : ∀ i, p.prog i = .ret ()) :
    ((p.state.card c).hw.tsf.toNat : Int) ≡
        (s.card c).hw.tsf.toNat + ∑ i, sumUsec (notSkipped s.adjtimeThresholdNs (calls i)) [ZMOD 2 ^ 64] ∧
      p.state.adjtimeApplyCount =
        s.adjtimeApplyCount + ∑ i, (notSkipped s.adjtimeThresholdNs (calls i)).length := by
  have howes : ∀ i, OwesAll (cardLedger c s.adjtimeThresholdNs s.cardsList.ptrs) (thread (calls i)) _ := fun i =>
    owesAll_thread (haim i)
  have h := amount_of_done howes ⟨hvif, hget, hset, rfl, rfl⟩ hrun hdone
  have htsf : (p.state.card c).hw.tsf = (s.card c).hw.tsf +
      ∑ i, (((calls i).flatMap (·.deltas)).map (owed s.adjtimeThresholdNs)).sum.1 := by
    rw [← Prod.fst_sum]
    exact congrArg Prod.fst h
  have hcount : p.state.adjtimeApplyCount = s.adjtimeApplyCount +
      ∑ i, (((calls i).flatMap (·.deltas)).map (owed s.adjtimeThresholdNs)).sum.2 := by
    rw [← Prod.snd_sum]
    exact congrArg Prod.snd h
  constructor
  · rw [htsf]
    refine (toNat_add_modEq _ _).trans (Int.ModEq.add_left _ ?_)
    exact toNat_sum_modEq _ fun i _ => (sum_owed _ _).1
  · rw [hcount]
    exact congrArg _ (Finset.sum_congr rfl fun i _ => (sum_owed _ _).2)

/-- Two threads on a card with TSF 100: an adjustment by -9000 ns takes the card's lock, the write of one by 7500 ns has
to wait for it, and the TSF ends at 98. -/
theorem adjustments_not_lost_two : ∃ (sched : List Bool) (p : Pool Bool Kernel LockId),
    Pool.runs sched (Pool.start (fun i => thread (if i then [.chardevWrite .ok [0, 0, 0, 0, 76, 29, 0, 0, 0, 0, 0, 0]]
      else [.adjtime (.card 0) (-9000)])) (.withCards [.upWith 0 100])) = some p ∧
    ((p.state.card (.card 0)).hw.tsf.toNat : Int) ≡ 98 [ZMOD 2 ^ 64] ∧ p.state.adjtimeApplyCount = 2 := by
  let calls : Bool → List Call := fun i =>
    if i then [.chardevWrite .ok [0, 0, 0, 0, 76, 29, 0, 0, 0, 0, 0, 0]] else [.adjtime (.card 0) (-9000)]
  let sched : List Bool := [false, false, true, true, true] ++ List.replicate 9 false ++ List.replicate 11 true
  have haim : ∀ i, ∀ call ∈ calls i, call.Adjusts (Kernel.withCards [.upWith 0 100]).cardsList.ptrs (.card 0) := by
    intro i call hcall
    cases i with
    | false => rw [List.mem_singleton.mp hcall]; rfl
    | true =>
      rw [List.mem_singleton.mp hcall]
      show ∀ adj ∈ decodeAdjustments _, findByIndex [.card 0] adj.cardIndex = some (.card 0)
      decide
  have hends : (Pool.runs sched (Pool.start (fun i => thread (calls i)) (.withCards [.upWith 0 100]))).map
      (fun p => (p.prog false).ended && (p.prog true).ended) = some true := by decide +kernel
  obtain ⟨p, hrun, hended⟩ := Option.map_eq_some_iff.mp hends
  rw [Bool.and_eq_true] at hended
  have hdone : ∀ i, p.prog i = .ret ()
    | false => Prog.eq_ret_of_ended hended.1
    | true => Prog.eq_ret_of_ended hended.2
  have hsum : (∑ i, sumUsec (notSkipped 5000 (calls i))) = -2 := by
    rw [Fintype.sum_bool]
    decide +kernel
  have hlen : (∑ i, (notSkipped 5000 (calls i)).length) = 2 := by
    rw [Fintype.sum_bool]
    decide +kernel
  obtain ⟨htsf, hcount⟩ := adjustments_not_lost calls (s := .withCards [.upWith 0 100]) (c := .card 0) rfl rfl rfl haim
    hrun hdone
  have hthreshold : (Kernel.withCards [.upWith 0 100]).adjtimeThresholdNs = 5000 := rfl
  rw [hthreshold, hsum] at htsf
  rw [hthreshold, hlen] at hcount
  exact ⟨sched, p, hrun, htsf, hcount⟩

end TsfSync
