import Mathlib.Logic.Function.Basic
import TsfSync.Drivers.AthAdjtime
import TsfSync.Lib.Handles

/-!
# The PTP clocks of the radios of ath11k

`ath11k_core_pdev_create` ends with a loop that registers a PTP clock for each radio. Where one registration fails it
leaves through the older labels, which undo what comes before the loop but not the clocks of the radios before. The PTP
core is a registry of clocks that belong to radios. Starting without clocks, a failed call leaves none exactly if it fails
before a second radio is reached (`pdevCreate_failsClean_iff`); otherwise a retry registers a second clock for the first
radio (`retry_doubles`).
-/

namespace TsfSync.Drivers

open Function Handles Log

/-- `EINVAL`. -/
def einval : Int32 := 22

/-- The radios of `struct ath11k_base` by number, and the clocks of the PTP core with their radios. -/
structure Ath11kBase where
  numRadios : Nat
  ptpClock : Nat → Option Nat
  ptpVdevId : Nat → Int
  ptpRegistered : Nat → Bool
  ptpCore : Log Nat

namespace Ath11kBase

variable (ab : Ath11kBase)

/-- `ath11k_ptp_init` of a radio, where `ptp_clock_register` succeeds or not. -/
def ptpInit (radio : Nat) (registers : Bool) : Int32 × Ath11kBase :=
  if registers then
    (0, { ab with
      ptpVdevId := update ab.ptpVdevId radio (-1)
      ptpClock := update ab.ptpClock radio (some ab.ptpCore.length)
      ptpRegistered := update ab.ptpRegistered radio true
      ptpCore := ab.ptpCore.opened radio })
  else
    (-einval, { ab with
      ptpVdevId := update ab.ptpVdevId radio (-1)
      ptpClock := update ab.ptpClock radio none
      ptpRegistered := update ab.ptpRegistered radio false })

/-- `ath11k_ptp_remove` of a radio. -/
def ptpRemove (radio : Nat) : Ath11kBase :=
  match ab.ptpClock radio with
  | some clock =>
    { ab with
      ptpClock := update ab.ptpClock radio none
      ptpRegistered := update ab.ptpRegistered radio false
      ptpVdevId := update ab.ptpVdevId radio (-1)
      ptpCore := ab.ptpCore.closed clock }
  | none => ab

/-- The loop of `ath11k_core_pdev_create` over the radios that are left. -/
def initLoop (registers : Nat → Bool) : List Nat → Ath11kBase → Int32 × Ath11kBase
  | [], ab => (0, ab)
  | i :: radios, ab =>
    let (ret, ab') := ab.ptpInit i (registers i)
    if ret ≠ 0 then (ret, ab') else initLoop registers radios ab'

/-- `ath11k_core_pdev_create`: what comes before the loop returns `older`, and the labels undo only that. -/
def pdevCreate (older : Int32) (registers : Nat → Bool) : Int32 × Ath11kBase :=
  if older ≠ 0 then (older, ab) else initLoop registers (List.range ab.numRadios) ab

/-- `ath11k_core_pdev_destroy`. -/
def pdevDestroy : Ath11kBase := (List.range ab.numRadios).foldl ptpRemove ab

/-- No clock has been unregistered twice, and no radio has two. -/
structure AtMostOnce : Prop where
  once : (ab.ptpCore.filterMap Event.takenBack).Nodup
  exclusive : ab.ptpCore.Exclusive

/-- A failed `ath11k_core_pdev_create` leaves no clock, and whether the device is then destroyed or created again, no
clock is unregistered twice and no radio gets two. -/
def FailsClean (older : Int32) (registers : Nat → Bool) : Prop :=
  (ab.pdevCreate older registers).1 ≠ 0 →
    (ab.pdevCreate older registers).2.ptpCore.AllClosed ∧ (ab.pdevCreate older registers).2.pdevDestroy.AtMostOnce ∧
      ∀ older' registers', ((ab.pdevCreate older registers).2.pdevCreate older' registers').2.AtMostOnce

/-- The radios hold live clocks of their own. -/
structure Wf : Prop where
  core : ab.ptpCore.Wf
  held : ∀ radio clock, ab.ptpClock radio = some clock → ab.ptpCore.Live clock radio

variable {ab}

/-! ## One radio -/

theorem ret_ptpInit (radio : Nat) (registers : Bool) : (ab.ptpInit radio registers).1 = 0 ↔ registers = true := by
  cases registers with
  | true => exact iff_of_true rfl rfl
  | false =>
    have herror : (ab.ptpInit radio false).1 = -einval := rfl
    rw [herror]
    decide

/-- A pointer that is there after one has been cleared is another one. -/
theorem ne_of_update_none {pointers : Nat → Option Nat} {radio r clock : Nat}
    (h : update pointers radio none r = some clock) : r ≠ radio ∧ pointers r = some clock := by
  by_cases hr : r = radio
  · rw [hr, update_self] at h
    cases h
  · rw [update_of_ne hr] at h
    exact ⟨hr, h⟩

theorem wf_ptpInit (hw : ab.Wf) (radio : Nat) (registers : Bool) : (ab.ptpInit radio registers).2.Wf := by
  cases registers with
  | true =>
    refine ⟨wf_opened hw.core radio, fun r clock (hclock : update ab.ptpClock radio _ r = some clock) => ?_⟩
    refine (live_opened_iff hw.core).mpr ?_
    by_cases hr : r = radio
    · rw [hr, update_self] at hclock
      exact Or.inr ⟨(Option.some.inj hclock).symm, hr⟩
    · rw [update_of_ne hr] at hclock
      exact Or.inl (hw.held r clock hclock)
  | false => exact ⟨hw.core, fun r clock hclock => hw.held r clock (ne_of_update_none hclock).2⟩

theorem wf_ptpRemove (hw : ab.Wf) (radio : Nat) : (ab.ptpRemove radio).Wf := by
  unfold ptpRemove
  split
  · rename_i clock hheld
    have hlive := hw.held radio clock hheld
    refine ⟨wf_closed hw.core hlive, fun r clock' hclock => ?_⟩
    obtain ⟨hr, hheld'⟩ := ne_of_update_none hclock
    have hlive' := hw.held r clock' hheld'
    -- one clock is not held by two radios
    refine live_closed_iff.mpr ⟨hlive', fun hsame => hr ?_⟩
    rw [hsame] at hlive'
    exact hw.core.owner clock r radio hlive'.1 hlive.1
  · exact hw

theorem exclusive_ptpRemove (h : ab.ptpCore.Exclusive) (radio : Nat) : (ab.ptpRemove radio).ptpCore.Exclusive := by
  unfold ptpRemove
  split
  · exact exclusive_closed h _
  · exact h

/-! ## The loops -/

theorem initLoop_cons_ok {registers : Nat → Bool} {i : Nat} (h : registers i = true) (radios : List Nat) :
    initLoop registers (i :: radios) ab = initLoop registers radios (ab.ptpInit i true).2 := by
  rw [initLoop, h]
  rfl

theorem initLoop_cons_error {registers : Nat → Bool} {i : Nat} (h : registers i = false) (radios : List Nat) :
    initLoop registers (i :: radios) ab = ab.ptpInit i false := by
  rw [initLoop, h]
  rfl

/-- The loop fails exactly if a registration does. -/
theorem ret_initLoop (registers : Nat → Bool) (radios : List Nat) :
    ∀ ab : Ath11kBase, (initLoop registers radios ab).1 = 0 ↔ ∀ i ∈ radios, registers i = true := by
  induction radios with
  | nil => exact fun _ => iff_of_true rfl fun i hi => by cases hi
  | cons i radios ih =>
    intro ab
    rw [List.forall_mem_cons]
    cases h : registers i with
    | true => rw [initLoop_cons_ok h, ih, and_iff_right rfl]
    | false =>
      rw [initLoop_cons_error h, ret_ptpInit]
      simp

/-- The loop unregisters nothing. -/
theorem live_initLoop {registers : Nat → Bool} {radios : List Nat} {clock radio : Nat} : ∀ {ab : Ath11kBase}, ab.Wf →
    ab.ptpCore.Live clock radio → (initLoop registers radios ab).2.ptpCore.Live clock radio := by
  induction radios with
  | nil => exact fun _ hlive => hlive
  | cons i radios ih =>
    intro ab hw hlive
    cases h : registers i with
    | true =>
      rw [initLoop_cons_ok h]
      exact ih (wf_ptpInit hw i true) ((live_opened_iff hw.core).mpr (Or.inl hlive))
    | false =>
      rw [initLoop_cons_error h]
      exact hlive

/-- A radio that the loop has passed has a clock. -/
theorem live_initLoop_head {registers : Nat → Bool} {i : Nat} (h : registers i = true) (radios : List Nat) (hw : ab.Wf) :
    (initLoop registers (i :: radios) ab).2.ptpCore.Live ab.ptpCore.length i := by
  rw [initLoop_cons_ok h]
  exact live_initLoop (wf_ptpInit hw i true) ((live_opened_iff hw.core).mpr (Or.inr ⟨rfl, rfl⟩))

theorem wf_initLoop {registers : Nat → Bool} {radios : List Nat} : ∀ {ab : Ath11kBase}, ab.Wf →
    (initLoop registers radios ab).2.Wf := by
  induction radios with
  | nil => exact fun hw => hw
  | cons i radios ih =>
    intro ab hw
    cases h : registers i with
    | true =>
      rw [initLoop_cons_ok h]
      exact ih (wf_ptpInit hw i true)
    | false =>
      rw [initLoop_cons_error h]
      exact wf_ptpInit hw i false

/-- Over distinct radios without clocks the loop gives none two. -/
theorem exclusive_initLoop {registers : Nat → Bool} {radios : List Nat} (hnodup : radios.Nodup) : ∀ {ab : Ath11kBase},
    ab.Wf → ab.ptpCore.Exclusive → (∀ i ∈ radios, ∀ clock, ¬ab.ptpCore.Live clock i) →
      (initLoop registers radios ab).2.ptpCore.Exclusive := by
  induction radios with
  | nil => exact fun _ hexcl _ => hexcl
  | cons i radios ih =>
    intro ab hw hexcl hnone
    obtain ⟨hi, hrest⟩ := List.nodup_cons.mp hnodup
    cases h : registers i with
    | true =>
      rw [initLoop_cons_ok h]
      refine ih hrest (wf_ptpInit hw i true) (exclusive_opened hw.core hexcl (hnone i List.mem_cons_self)) ?_
      intro j hj clock hlive
      rcases (live_opened_iff hw.core).mp hlive with hold | ⟨-, hsame⟩
      · exact hnone j (List.mem_cons_of_mem _ hj) clock hold
      · exact hi (hsame ▸ hj)
    | false =>
      rw [initLoop_cons_error h]
      exact hexcl

theorem atMostOnce_pdevCreate (hw : ab.Wf) (hnone : ab.ptpCore.AllClosed) (older : Int32) (registers : Nat → Bool) :
    (ab.pdevCreate older registers).2.AtMostOnce := by
  have hexcl := exclusive_of_allClosed hnone
  unfold pdevCreate
  split
  · exact ⟨hw.core.once, hexcl⟩
  · exact ⟨(wf_initLoop hw).core.once, exclusive_initLoop List.nodup_range hw hexcl fun i _ clock => hnone clock i⟩

/-- Removing radios one after another unregisters no clock twice. -/
theorem atMostOnce_foldl_ptpRemove (radios : List Nat) : ∀ {ab : Ath11kBase}, ab.Wf → ab.ptpCore.Exclusive →
    (radios.foldl ptpRemove ab).AtMostOnce := by
  induction radios with
  | nil => exact fun hw hexcl => ⟨hw.core.once, hexcl⟩
  | cons i radios ih => exact fun hw hexcl => ih (wf_ptpRemove hw i) (exclusive_ptpRemove hexcl i)

/-! ## Failed calls -/

/-- What follows a failure that leaves no clock. -/
theorem atMostOnce_of_allClosed (hw : ab.Wf) (hnone : ab.ptpCore.AllClosed) :
    ab.pdevDestroy.AtMostOnce ∧ ∀ older registers, (ab.pdevCreate older registers).2.AtMostOnce :=
  ⟨atMostOnce_foldl_ptpRemove _ hw (exclusive_of_allClosed hnone), atMostOnce_pdevCreate hw hnone⟩

theorem range_succ_cons {n : Nat} (h : 0 < n) : ∃ radios, List.range n = 0 :: radios := by
  cases n with
  | zero => cases h
  | succ n => exact ⟨_, List.range_succ_eq_map⟩

/-- **A failed `ath11k_core_pdev_create` of a device without clocks leaves none if and only if** it fails before the loop,
all registrations would succeed, or the one for the first radio fails. -/
theorem pdevCreate_failsClean_iff (hw : ab.Wf) (hnone : ab.ptpCore.AllClosed) (older : Int32) (registers : Nat → Bool) :
    ab.FailsClean older registers ↔
      older ≠ 0 ∨ (∀ radio < ab.numRadios, registers radio = true) ∨ registers 0 = false := by
  by_cases holder : older = 0
  · have hcreate : ab.pdevCreate older registers = initLoop registers (List.range ab.numRadios) ab :=
      if_neg (not_not.mpr holder)
    have hret := ret_initLoop registers (List.range ab.numRadios) ab
    simp only [List.mem_range] at hret
    rw [or_iff_right (not_not.mpr holder), FailsClean, hcreate]
    by_cases hall : ∀ radio < ab.numRadios, registers radio = true
    · exact iff_of_true (fun hne => absurd (hret.mpr hall) hne) (Or.inl hall)
    · rw [or_iff_right hall]
      have hsome : 0 < ab.numRadios := by
        rw [Nat.pos_iff_ne_zero]
        intro hzero
        exact hall fun radio hlt => absurd hlt (by omega)
      obtain ⟨radios, hrange⟩ := range_succ_cons hsome
      cases hfirst : registers 0 with
      | true =>
        refine iff_of_false (fun hclean => ?_) (by simp)
        have hlive := live_initLoop_head hfirst radios hw
        rw [← hrange] at hlive
        exact (hclean (mt hret.mp hall)).1 _ _ hlive
      | false =>
        refine iff_of_true (fun _ => ?_) rfl
        rw [hrange, initLoop_cons_error hfirst]
        exact ⟨hnone, atMostOnce_of_allClosed (wf_ptpInit hw 0 false) hnone⟩
  · have hcreate : ab.pdevCreate older registers = (older, ab) := if_pos holder
    rw [FailsClean, hcreate]
    exact iff_of_true (fun _ => ⟨hnone, atMostOnce_of_allClosed hw hnone⟩) (Or.inl holder)

/-- Where a failure has left the first radio its clock, a retry registers a second one for it. -/
theorem retry_doubles (hw : ab.Wf) {clock : Nat} (hlive : ab.ptpCore.Live clock 0) (hradios : 0 < ab.numRadios)
    {registers : Nat → Bool} (h : registers 0 = true) : ¬(ab.pdevCreate 0 registers).2.AtMostOnce := by
  intro hatmost
  obtain ⟨radios, hrange⟩ := range_succ_cons hradios
  have hcreate : ab.pdevCreate 0 registers = initLoop registers (0 :: radios) ab := by
    rw [← hrange]
    exact if_neg (not_not.mpr rfl)
  rw [hcreate] at hatmost
  have hsame := hatmost.exclusive 0 _ _ (live_initLoop hw hlive) (live_initLoop_head h radios hw)
  have hlt := hw.core.numbered clock 0 hlive.1
  omega

/-- A device that has not been created yet. -/
def probed (numRadios : Nat) : Ath11kBase := ⟨numRadios, fun _ => none, fun _ => 0, fun _ => false, []⟩

theorem wf_probed (numRadios : Nat) : (probed numRadios).Wf := ⟨wf_nil, fun _ _ h => by cases h⟩

end Ath11kBase

open Ath11kBase

/-- Of three radios the clock of the first cannot be registered. -/
theorem pdevCreate_failsClean_three : (probed 3).FailsClean 0 fun radio => radio ≠ 0 :=
  (pdevCreate_failsClean_iff (wf_probed 3) allClosed_nil 0 fun radio => radio ≠ 0).mpr (Or.inr (Or.inr rfl))

/-- The second of two radios: the first keeps its clock. -/
theorem pdevCreate_failsClean_counterexample :
    ((probed 2).pdevCreate 0 fun radio => radio = 0).1 = -einval ∧
      ((probed 2).pdevCreate 0 fun radio => radio = 0).2.ptpCore = [.opened 0 0] ∧
      ¬(probed 2).FailsClean 0 fun radio => radio = 0 := by
  refine ⟨rfl, rfl, fun hclean => ?_⟩
  have hret : ((probed 2).pdevCreate 0 fun radio => radio = 0).1 ≠ 0 := by decide
  exact (hclean hret).1 0 0 ⟨List.mem_cons_self, by decide⟩

end TsfSync.Drivers
