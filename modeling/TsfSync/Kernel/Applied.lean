import TsfSync.Kernel.Clock
import TsfSync.Kernel.Lookup
import TsfSync.Kernel.ModeB
import TsfSync.Lib.Runs

/-!
# The counter of applied adjustments

`tsf_ptp_adjtime`, `tsf_sync_work_fn` and `tsf_sync_chardev_write` count an adjustment after `tsf_ptp_call_set_tsf`, which
does nothing for a driver without `set_tsf`. So a call counts every card that it adjusts (`targets`) and calls `set_tsf`
for those that have it (`adjusts_run`), and over runs the counter is the number of these calls exactly if no call adjusts
a card without it (`countsCalls_iff`).
-/

namespace TsfSync

open LockProg MachineWord StepSystem Uapi

/-- A call that adjusts clocks. -/
inductive AdjustCall
  | adjtime (card : CardPtr) (deltaNs : Int64)
  | syncWork
  | write (mem : UserMem) (buf : List UInt8)

/-- The call is of `set_tsf`. -/
def DrvCall.isSetTsf : DrvCall → Bool
  | .getTsf _ _ => false
  | .setTsf _ _ _ => true

/-- How many of some driver calls are of `set_tsf`. -/
def setTsfCalls (calls : List DrvCall) : Nat := calls.countP DrvCall.isSetTsf

/-- The walk over the secondaries adjusts the card. -/
def adjustsSecondary (threshold : UInt32) (primary : CardPtr) (primaryTsf : UInt64) (s : Kernel) (c : CardPtr) : Bool :=
  c ≠ primary && (s.card c).vif.isSome && reachesThreshold threshold (offsetNs primaryTsf (s.card c).readTsf)

/-- The card that an entry of a write adjusts, if there is one. -/
def adjustmentTargets (s : Kernel) (adj : TsfAdjustment) : List CardPtr :=
  if belowThreshold s.adjtimeThresholdNs adj.deltaNs then []
  else (findByIndex s.cardsList.ptrs adj.cardIndex).toList.filter fun c => (s.card c).vif.isSome

namespace AdjustCall

/-- The state after a call. -/
def run : AdjustCall → Kernel → Kernel
  | .adjtime card deltaNs, s => ((tsfPtpAdjtime card deltaNs).run s).2
  | .syncWork, s => (tsfSyncWorkFn.run s).2
  | .write mem buf, s => ((tsfSyncChardevWrite mem buf).run s).2

/-- The cards that a call adjusts, in its order: those with a VIF whose delta or offset passes the threshold filter. -/
def targets : AdjustCall → Kernel → List CardPtr
  | .adjtime card deltaNs, s =>
    if belowThreshold s.adjtimeThresholdNs deltaNs || (s.card card).vif.isNone then [] else [card]
  | .syncWork, s =>
    match s.primary with
    | none => []
    | some p =>
      if (s.card p).vif.isNone then []
      else s.cardsList.ptrs.filter (adjustsSecondary s.adjtimeThresholdNs p (s.card p).readTsf s)
  | .write mem buf, s => if mem.alloc && mem.copy then (decodeAdjustments buf).flatMap (adjustmentTargets s) else []

end AdjustCall

/-! ## What a call counts -/

/-- From `s` to `s'` the cards have been adjusted: each is counted, and `set_tsf` is called where the driver has it. -/
structure Adjusts (s : Kernel) (cards : List CardPtr) (s' : Kernel) : Prop where
  setup : SameSetup s s'
  counted : s'.adjtimeApplyCount = s.adjtimeApplyCount + cards.length
  called : ∃ calls, s'.drv = s.drv ++ calls ∧ setTsfCalls calls = cards.countP fun c => (s.card c).hw.ops.setTsf

namespace Adjusts

variable {s s' s'' : Kernel} {cards cards' : List CardPtr}

theorem refl (s : Kernel) : Adjusts s [] s := ⟨.refl s, rfl, [], by simp, rfl⟩

theorem trans (h : Adjusts s cards s') (h' : Adjusts s' cards' s'') : Adjusts s (cards ++ cards') s'' := by
  obtain ⟨hset, hcount, calls, hdrv, hcalls⟩ := h
  obtain ⟨hset', hcount', calls', hdrv', hcalls'⟩ := h'
  refine ⟨hset.trans hset', ?_, calls ++ calls', ?_, ?_⟩
  · rw [hcount', hcount, List.length_append]
    omega
  · rw [hdrv', hdrv, List.append_assoc]
  · have hops : ∀ c, (s'.card c).hw.ops = (s.card c).hw.ops := fun c => (hset.card c).2.2
    simp only [hops] at hcalls'
    rw [setTsfCalls, List.countP_append, List.countP_append]
    exact congrArg₂ (· + ·) hcalls hcalls'

/-- A change that neither counts an adjustment nor calls `set_tsf`. -/
theorem of_quiet (hset : SameSetup s s') (hcount : s'.adjtimeApplyCount = s.adjtimeApplyCount)
    (hdrv : s'.drv = s.drv) : Adjusts s [] s' :=
  ⟨hset, hcount, [], by rw [hdrv, List.append_nil], rfl⟩

theorem setCard (s : Kernel) (c : CardPtr) {f : Card → Card}
    (hf : ∀ k, (f k).vif = k.vif ∧ (f k).phyName = k.phyName ∧ (f k).hw.ops = k.hw.ops) :
    Adjusts s [] (s.setCard c f) := of_quiet (SameSetup.setCard s c hf) rfl rfl

theorem skipped (s : Kernel) : Adjusts s [] s.skipped := of_quiet (SameSetup.skipped s) rfl rfl

/-- Reading a TSF is no adjustment. -/
theorem gotTsf (s : Kernel) (c : CardPtr) (vif : DevId) : Adjusts s [] (s.gotTsf c vif) := by
  refine ⟨SameSetup.gotTsf s c vif, ?_, getCalls c vif (s.card c), drv_gotTsf s c vif, ?_⟩
  · unfold Kernel.gotTsf
    split <;> rfl
  · unfold getCalls
    split <;> rfl

/-- A write of a TSF that is then counted. -/
theorem putTsf (s : Kernel) (c : CardPtr) (vif : DevId) (tsf : UInt64) :
    Adjusts s [c] (s.putTsf c vif tsf).applied := by
  refine ⟨(SameSetup.putTsf s c vif tsf).trans (SameSetup.applied _), ?_, setCalls c vif tsf (s.card c), ?_, ?_⟩
  · unfold Kernel.putTsf
    split <;> rfl
  · exact drv_putTsf s c vif tsf
  · unfold setCalls
    cases h : (s.card c).hw.ops.setTsf <;> simp [setTsfCalls, h, DrvCall.isSetTsf]

/-- A loop adjusts what its rounds adjust, where each round finds what it needs for the rounds to come. -/
theorem foldl {α : Type} {f : Kernel → α → Kernel} {targets : α → List CardPtr} {xs : List α} (P : List α → Kernel → Prop)
    (hf : ∀ x xs s, P (x :: xs) s → Adjusts s (targets x) (f s x)) (hP : ∀ x xs s, P (x :: xs) s → P xs (f s x)) :
    ∀ {s : Kernel}, P xs s → Adjusts s (xs.flatMap targets) (xs.foldl f s) := by
  induction xs with
  | nil =>
    intro s _
    exact refl s
  | cons x xs ih =>
    intro s hs
    exact (hf x xs s hs).trans (ih (hP x xs s hs))

end Adjusts

/-! ## Each call -/

section Call

variable {s : Kernel} {c : CardPtr}

/-- A card with a VIF is adjusted, one without is not. -/
theorem adjusts_adjusted (s : Kernel) (c : CardPtr) (deltaNs : Int64) :
    Adjusts s (if (s.card c).vif.isNone then [] else [c]) (adjusted s c deltaNs) := by
  unfold adjusted
  cases hv : (s.card c).vif with
  | none => exact .refl s
  | some vif =>
    exact (Adjusts.gotTsf s c vif).trans (.putTsf (s.gotTsf c vif) c vif (addDeltaNs (s.card c).readTsf deltaNs))

theorem adjusts_adjtime (s : Kernel) (c : CardPtr) (deltaNs : Int64) :
    Adjusts s ((AdjustCall.adjtime c deltaNs).targets s) ((AdjustCall.adjtime c deltaNs).run s) := by
  have hcard := adjusts_adjusted s c deltaNs
  simp only [AdjustCall.run, AdjustCall.targets, tsfPtpAdjtime]
  cases hb : belowThreshold s.adjtimeThresholdNs deltaNs with
  | true => simpa [hb] using Adjusts.skipped s
  | false =>
    cases hv : (s.card c).vif with
    | none => simpa [hb, hv, adjusted] using hcard
    | some vif => simpa [hb, hv, adjusted] using hcard

/-- An entry of a write, in a state with the setup that the write began with. -/
theorem adjusts_adjustedAt {s₀ : Kernel} (h : SameSetup s₀ s) (adj : TsfAdjustment) :
    Adjusts s (adjustmentTargets s₀ adj) (adjustedAt findByIndex s₀.adjtimeThresholdNs s adj) := by
  unfold adjustmentTargets adjustedAt
  cases hb : belowThreshold s₀.adjtimeThresholdNs adj.deltaNs with
  | true => exact .skipped s
  | false =>
    rw [h.cardsList]
    cases hf : findByIndex s₀.cardsList.ptrs adj.cardIndex with
    | none => exact .refl s
    | some c =>
      have hcard := adjusts_adjusted s c adj.deltaNs
      rw [(h.card c).1] at hcard
      cases hv : (s₀.card c).vif <;> simpa [hv] using hcard

theorem adjusts_write (s : Kernel) (mem : UserMem) (buf : List UInt8) :
    Adjusts s ((AdjustCall.write mem buf).targets s) ((AdjustCall.write mem buf).run s) := by
  have hfold : Adjusts s ((decodeAdjustments buf).flatMap (adjustmentTargets s))
      ((decodeAdjustments buf).foldl (adjustedAt findByIndex s.adjtimeThresholdNs) s) := by
    refine Adjusts.foldl (fun _ s' => SameSetup s s') ?_ ?_ (.refl s)
    · intro adj _ s' hs
      exact adjusts_adjustedAt hs adj
    · intro adj _ s' hs
      exact hs.trans (adjusts_adjustedAt hs adj).setup
  simp only [AdjustCall.run, AdjustCall.targets, tsfSyncChardevWrite]
  cases hm : mem.alloc && mem.copy with
  | true =>
    have hok : mem = .ok := by
      rw [Bool.and_eq_true] at hm
      obtain ⟨alloc, copy⟩ := mem
      simp_all [UserMem.ok]
    rw [hok, run_chardevWrite]
    simpa [UserMem.ok] using hfold
  | false =>
    -- without memory the write ends before it looks at a card
    have hrun : ((chardevWrite findByIndex mem buf).run s).2 = s := by
      unfold chardevWrite
      by_cases h0 : buf.length = 0
      · simp [h0]
      · by_cases h1 : buf.length / adjSize = 0
        · simp [h0, h1]
        · cases ha : mem.alloc with
          | false => simp only [h0, h1, if_false, Bool.not_false, if_true, Prog.run_bind, Prog.run_read, Prog.run_pure]
          | true =>
            have hc : mem.copy = false := by simpa [ha] using hm
            simp only [h0, h1, if_false, hc, Bool.not_true, Bool.false_eq_true, Bool.not_false, if_true,
              Prog.run_bind, Prog.run_read, Prog.run_pure]
    rw [hrun]
    exact .refl s

/-- A secondary, in a state in which its card is as the cycle found it. -/
theorem adjusts_synced {s₀ : Kernel} {threshold : UInt32} {p : CardPtr} {primaryTsf : UInt64}
    (h : s.card c = s₀.card c) :
    Adjusts s ([c].filter (adjustsSecondary threshold p primaryTsf s₀)) (synced threshold p primaryTsf s c) := by
  rw [List.filter_singleton, cond_eq_ite]
  unfold synced adjustsSecondary
  rw [h]
  by_cases hc : c = p
  · simpa [hc] using Adjusts.refl s
  · rw [if_neg hc]
    cases hv : (s₀.card c).vif with
    | none =>
      simp only [Option.isSome_none, Bool.and_false, Bool.false_and, Bool.false_eq_true, if_false]
      exact .setCard s c fun _ => ⟨rfl, rfl, rfl⟩
    | some vif =>
      have hoff : Adjusts s [] ((s.gotTsf c vif).setCard c fun k =>
          { k with lastOffsetNs := offsetNs primaryTsf (s₀.card c).readTsf }) :=
        (Adjusts.gotTsf s c vif).trans (.setCard _ c fun _ => ⟨rfl, rfl, rfl⟩)
      simp only [ne_eq, hc, not_false_eq_true, decide_true, Option.isSome_some, Bool.true_and]
      cases hr : reachesThreshold threshold (offsetNs primaryTsf (s₀.card c).readTsf) with
      | true =>
        exact (hoff.trans (.putTsf _ c vif primaryTsf)).trans
          (.setCard (Kernel.applied _) c fun _ => ⟨rfl, rfl, rfl⟩)
      | false => exact (hoff.trans (.skipped _)).trans (.setCard (Kernel.skipped _) c fun _ => ⟨rfl, rfl, rfl⟩)

theorem adjusts_syncWork (s : Kernel) : Adjusts s (AdjustCall.syncWork.targets s) (AdjustCall.syncWork.run s) := by
  simp only [AdjustCall.run, AdjustCall.targets]
  by_cases hfail : ∀ p, s.primary = some p → (s.card p).vif = none
  · have hquiet : Adjusts s [] (tsfSyncWorkFn.run s).2 := by
      refine .of_quiet (sameSetup_workFn s) ?_ ?_ <;> rw [run_workFn_fails hfail] <;> rfl
    cases hp : s.primary with
    | none => exact hquiet
    | some p => simpa [hfail p hp] using hquiet
  · obtain ⟨p, hp, hvif⟩ : ∃ p, s.primary = some p ∧ (s.card p).vif ≠ none := by simpa using hfail
    obtain ⟨vif, hv⟩ := Option.ne_none_iff_exists'.mp hvif
    -- a card keeps its TSF until its turn, since no card is listed twice
    have hwalk : Adjusts (s.gotTsf p vif) (s.cardsList.ptrs.flatMap fun c =>
        [c].filter (adjustsSecondary s.adjtimeThresholdNs p (s.card p).readTsf s)) (s.walked p vif) := by
      refine Adjusts.foldl (fun cards s' => cards.Nodup ∧ ∀ c ∈ cards, s'.card c = s.card c) ?_ ?_
        ⟨s.cardsList.nodup, fun c _ => by rw [Kernel.gotTsf_card]⟩
      · intro c cards s' hs
        exact adjusts_synced (hs.2 c List.mem_cons_self)
      · intro c cards s' hs
        obtain ⟨hc, hn⟩ := List.nodup_cons.mp hs.1
        refine ⟨hn, fun d hd => ?_⟩
        have hne : d ≠ c := fun e => hc (e ▸ hd)
        rw [synced_ne s' hne]
        exact hs.2 d (List.mem_cons_of_mem _ hd)
    have hdone : Adjusts (s.walked p vif) [] (tsfSyncWorkFn.run s).2 := by
      rw [run_workFn_walks hp hv]
      exact .of_quiet ⟨rfl, rfl, rfl, fun _ => ⟨rfl, rfl, rfl⟩⟩ rfl rfl
    have hall := ((Adjusts.gotTsf s p vif).trans hwalk).trans hdone
    rw [← List.filter_flatMap, List.flatMap_singleton'] at hall
    simpa [hp, hv] using hall

end Call

/-- **A call counts the cards that it adjusts**, and calls `set_tsf` for those whose driver has it. -/
theorem adjusts_run (call : AdjustCall) (s : Kernel) : Adjusts s (call.targets s) (call.run s) := by
  cases call with
  | adjtime c deltaNs => exact adjusts_adjtime s c deltaNs
  | syncWork => exact adjusts_syncWork s
  | write mem buf => exact adjusts_write s mem buf

/-! ## Runs -/

/-- The module, and how often its adjusting calls have called `set_tsf`. -/
structure Tallied where
  kernel : Kernel
  made : Nat

/-- An adjusting call, or anything else that the counter is not about: a clock that moves on, a VIF that comes or goes, a
card that is added, a call of `settime64`, a new threshold. -/
inductive AdjustEvent
  | call (call : AdjustCall)
  | other (change : Kernel → Kernel)

namespace Tallied

/-- The module has been loaded and its cards are set up. -/
def loaded (s : Kernel) : Tallied := ⟨{ s with adjtimeApplyCount := 0 }, 0⟩

/-- One event. -/
def step : AdjustEvent → Tallied → Option Tallied
  | .call call, t =>
    some ⟨call.run t.kernel, t.made + setTsfCalls ((call.run t.kernel).drv.drop t.kernel.drv.length)⟩
  | .other change, t =>
    if (change t.kernel).adjtimeApplyCount = t.kernel.adjtimeApplyCount then some { t with kernel := change t.kernel }
    else none

/-- `adjtime_apply_count` is the number of calls of `set_tsf`. -/
def CountsCalls (t : Tallied) : Prop := t.kernel.adjtimeApplyCount = t.made

/-- An adjusting call adjusts no card whose driver has no `set_tsf`. -/
def Settable : AdjustEvent → Tallied → Prop
  | .call call, t => ∀ c ∈ call.targets t.kernel, (t.kernel.card c).hw.ops.setTsf = true
  | .other _, _ => True

/-- **One event leaves the counter true exactly if** it adjusts no card without `set_tsf`. -/
theorem countsCalls_step_iff {e : AdjustEvent} {t t' : Tallied} (h : t.CountsCalls) (hstep : step e t = some t') :
    t'.CountsCalls ↔ Settable e t := by
  unfold CountsCalls at h ⊢
  cases e with
  | call call =>
    cases hstep
    obtain ⟨-, hcount, calls, hdrv, hcalls⟩ := adjusts_run call t.kernel
    have hmade : setTsfCalls ((call.run t.kernel).drv.drop t.kernel.drv.length) =
        (call.targets t.kernel).countP fun c => (t.kernel.card c).hw.ops.setTsf := by
      rw [hdrv, List.drop_left, hcalls]
    rw [Settable, ← List.countP_eq_length]
    dsimp only
    rw [hcount, hmade, h]
    omega
  | other change =>
    rw [step] at hstep
    split at hstep
    · rename_i hkeep
      cases hstep
      exact iff_of_true (hkeep.trans h) trivial
    · cases hstep

end Tallied

/-- A card with an up VIF whose driver has `get_tsf` only. -/
def Card.readOnly (wiphy : WiphyId) (tsf : UInt64) : Card := { Card.upWith wiphy tsf with hw := ⟨wiphy, ⟨true, false⟩, tsf⟩ }

end TsfSync
