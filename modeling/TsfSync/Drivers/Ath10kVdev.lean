import TsfSync.Drivers.AthAdjtime
import TsfSync.Lib.Runs

/-!
# The PTP vdev of ath10k

`ptp_vdev_id` names the vdev that the PTP clock of ath10k commands. It is set when an interface is added while none is
set, and taken back only by `ath10k_ptp_remove`, not when its interface is removed and not when no clock could be
registered for it. The events of a device are those of the patch: `ath10k_ptp_init` at registration, the end of
`ath10k_add_interface`, the removal of an interface, which deletes its vdev from `arvifs`, and `ath10k_ptp_remove`; live
vdevs have distinct ids.
-/

namespace TsfSync.Drivers

open TsfSync StepSystem

/-- The vdevs of a device, the one set for PTP, and whether it has a PTP clock. -/
structure Ath10kVdevs where
  arvifs : List Nat
  ptpVdevId : Int
  ptpClock : Bool
  deriving DecidableEq, Repr

/-- What happens to a device. For an interface that is added: whether `ptp_clock_register` would succeed. -/
inductive Ath10kEvent
  | init
  | addInterface (vdevId : Nat) (registers : Bool)
  | removeInterface (vdevId : Nat)
  | remove
  deriving DecidableEq, Repr

namespace Ath10kVdevs

variable (ar : Ath10kVdevs)

/-- `ath10k_ptp_init`. -/
def ptpInit : Ath10kVdevs := { ar with ptpVdevId := -1 }

/-- `ath10k_ptp_start`: a failed registration leaves `ptp_vdev_id` set. -/
def ptpStart (vdevId : Nat) (registers : Bool) : Ath10kVdevs :=
  if ar.ptpClock then ar else { ar with ptpVdevId := vdevId, ptpClock := registers }

/-- `ath10k_ptp_remove`. -/
def ptpRemove : Ath10kVdevs := if ar.ptpClock then { ar with ptpClock := false, ptpVdevId := -1 } else ar

/-- `ath10k_add_interface`, which puts the vdev on `arvifs` and ends with the hunk of the patch. -/
def addInterface (vdevId : Nat) (registers : Bool) : Ath10kVdevs :=
  let ar' := { ar with arvifs := vdevId :: ar.arvifs }
  if ar'.ptpVdevId < 0 then ar'.ptpStart vdevId registers else ar'

/-- `ath10k_remove_interface`, which the patch leaves as it is. -/
def removeInterface (vdevId : Nat) : Ath10kVdevs := { ar with arvifs := ar.arvifs.filter (· ≠ vdevId) }

/-- A device that has been registered. -/
def registered : Ath10kVdevs := ⟨[], -1, false⟩

/-- Some vdev has the id that is set. -/
def Named : Prop := ∃ vdevId ∈ ar.arvifs, (vdevId : Int) = ar.ptpVdevId

/-- The vdev that is set exists and has a clock; and a clock has a vdev if there is one. -/
structure NotStale : Prop where
  exists_of_set : 0 ≤ ar.ptpVdevId → ar.Named ∧ ar.ptpClock = true
  named_of_clock : ar.ptpClock = true → ar.arvifs ≠ [] → ar.Named

end Ath10kVdevs

/-- An event, if it can happen. -/
def ath10kStep : Ath10kEvent → Ath10kVdevs → Option Ath10kVdevs
  | .init, ar => some ar.ptpInit
  | .addInterface vdevId registers, ar => if vdevId ∈ ar.arvifs then none else some (ar.addInterface vdevId registers)
  | .removeInterface vdevId, ar => if vdevId ∈ ar.arvifs then some (ar.removeInterface vdevId) else none
  | .remove, ar => some ar.ptpRemove

/-- An event that leaves no stale vdev: the driver is initialised where no clock needs its vdev, an interface is added
where a vdev is set, or where none is and the clock can be registered, and the interface of the vdev that is set stays. -/
def KeepsVdev : Ath10kEvent → Ath10kVdevs → Prop
  | .init, ar => ar.ptpClock = false ∨ ar.arvifs = []
  | .addInterface _ registers, ar => 0 ≤ ar.ptpVdevId ∨ ar.ptpClock = false ∧ registers = true
  | .removeInterface vdevId, ar => (vdevId : Int) ≠ ar.ptpVdevId
  | .remove, _ => True

namespace Ath10kVdevs

variable {ar : Ath10kVdevs}

theorem Named.nonneg (h : ar.Named) : 0 ≤ ar.ptpVdevId := by
  obtain ⟨vdevId, -, hid⟩ := h
  omega

theorem notStale_registered : registered.NotStale where
  exists_of_set := fun h => absurd h (by decide)
  named_of_clock := fun h => absurd h (by decide)

/-- Without a clock no vdev must be set. -/
theorem notStale_of_no_clock (hclock : ar.ptpClock = false) (hid : ar.ptpVdevId < 0) : ar.NotStale where
  exists_of_set := fun h => absurd h (by omega)
  named_of_clock := fun h => absurd h (by simp [hclock])

/-- A clock with an existing vdev. -/
theorem notStale_of_named (hclock : ar.ptpClock = true) (h : ar.Named) : ar.NotStale := ⟨fun _ => ⟨h, hclock⟩, fun _ _ => h⟩

/-! ## One event -/

theorem notStale_ptpInit_iff : ar.ptpInit.NotStale ↔ ar.ptpClock = false ∨ ar.arvifs = [] := by
  constructor
  · intro h
    cases hclock : ar.ptpClock with
    | false => exact Or.inl rfl
    | true =>
      refine Or.inr (by_contra fun hne => ?_)
      have hnonneg := (h.named_of_clock hclock hne).nonneg
      exact absurd hnonneg (by simp [ptpInit])
  · rintro (hclock | hempty)
    · exact notStale_of_no_clock hclock (by simp [ptpInit])
    · exact ⟨fun h => absurd h (by simp [ptpInit]), fun _ hne => absurd hempty hne⟩

theorem notStale_ptpRemove (h : ar.NotStale) : ar.ptpRemove.NotStale := by
  unfold ptpRemove
  split
  · exact notStale_of_no_clock rfl (by simp)
  · exact h

/-- What the hunk of the patch does where no vdev is set. -/
theorem addInterface_of_unset (hid : ar.ptpVdevId < 0) (vdevId : Nat) (registers : Bool) :
    ar.addInterface vdevId registers =
      if ar.ptpClock then ⟨vdevId :: ar.arvifs, ar.ptpVdevId, true⟩ else ⟨vdevId :: ar.arvifs, vdevId, registers⟩ := by
  have hhunk : ar.addInterface vdevId registers = ptpStart { ar with arvifs := vdevId :: ar.arvifs } vdevId registers :=
    if_pos hid
  rw [hhunk, ptpStart]
  cases hclock : ar.ptpClock <;> rfl

theorem notStale_addInterface_iff (h : ar.NotStale) (vdevId : Nat) (registers : Bool) :
    (ar.addInterface vdevId registers).NotStale ↔ 0 ≤ ar.ptpVdevId ∨ ar.ptpClock = false ∧ registers = true := by
  by_cases hid : ar.ptpVdevId < 0
  · rw [or_iff_right (by omega), addInterface_of_unset hid]
    cases hclock : ar.ptpClock with
    | true =>
      -- the clock goes on without a vdev
      rw [if_pos rfl]
      refine iff_of_false (fun hpost => ?_) (by simp)
      have hnonneg := (hpost.named_of_clock rfl (by simp)).nonneg
      exact absurd hnonneg (by simpa using hid)
    | false =>
      rw [if_neg Bool.false_ne_true, and_iff_right rfl]
      cases registers with
      | true => exact iff_of_true (notStale_of_named rfl ⟨vdevId, List.mem_cons_self, rfl⟩) rfl
      | false =>
        refine iff_of_false (fun hpost => ?_) Bool.false_ne_true
        exact absurd (hpost.exists_of_set (Int.natCast_nonneg vdevId)).2 Bool.false_ne_true
  · have hadd : ar.addInterface vdevId registers = { ar with arvifs := vdevId :: ar.arvifs } := if_neg hid
    obtain ⟨⟨old, hmem, hold⟩, hclock⟩ := h.exists_of_set (by omega)
    rw [hadd]
    exact iff_of_true (notStale_of_named hclock ⟨old, List.mem_cons_of_mem _ hmem, hold⟩) (Or.inl (by omega))

theorem mem_removeInterface {vdevId v : Nat} : v ∈ (ar.removeInterface vdevId).arvifs ↔ v ∈ ar.arvifs ∧ v ≠ vdevId := by
  rw [removeInterface, List.mem_filter, decide_eq_true_eq]

theorem notStale_removeInterface_iff (h : ar.NotStale) {vdevId : Nat} (hmem : vdevId ∈ ar.arvifs) :
    (ar.removeInterface vdevId).NotStale ↔ (vdevId : Int) ≠ ar.ptpVdevId := by
  by_cases hset : (vdevId : Int) = ar.ptpVdevId
  · refine iff_of_false (fun hpost => ?_) (not_not.mpr hset)
    have hnonneg : 0 ≤ ar.ptpVdevId := by omega
    obtain ⟨v, hv, hid⟩ := (hpost.exists_of_set hnonneg).1
    have hsame : (v : Int) = vdevId := hid.trans hset.symm
    exact (mem_removeInterface.mp hv).2 (by omega)
  · refine iff_of_true ?_ hset
    by_cases hid : ar.ptpVdevId < 0
    · -- a clock without a vdev would be stale
      cases hclock : ar.ptpClock with
      | false => exact notStale_of_no_clock hclock hid
      | true =>
        have hnonneg := (h.named_of_clock hclock (List.ne_nil_of_mem hmem)).nonneg
        omega
    · obtain ⟨⟨v, hv, hvid⟩, hclock⟩ := h.exists_of_set (by omega)
      refine notStale_of_named hclock ⟨v, mem_removeInterface.mpr ⟨hv, fun hsame => hset ?_⟩, hvid⟩
      rw [← hsame]
      exact hvid

end Ath10kVdevs

open Ath10kVdevs

/-- From a state with no stale vdev an event leads to another exactly if it keeps its vdev. -/
theorem notStale_step_iff (e : Ath10kEvent) (ar ar' : Ath10kVdevs) (h : ar.NotStale) (hstep : ath10kStep e ar = some ar') :
    ar'.NotStale ↔ KeepsVdev e ar := by
  cases e with
  | init =>
    cases hstep
    exact notStale_ptpInit_iff
  | addInterface vdevId registers =>
    rw [ath10kStep, Option.ite_none_left_eq_some] at hstep
    obtain ⟨-, hstep⟩ := hstep
    cases hstep
    exact notStale_addInterface_iff h vdevId registers
  | removeInterface vdevId =>
    rw [ath10kStep, Option.ite_none_right_eq_some] at hstep
    obtain ⟨hmem, hstep⟩ := hstep
    cases hstep
    exact notStale_removeInterface_iff h hmem
  | remove =>
    cases hstep
    exact iff_of_true (notStale_ptpRemove h) trivial

/-! ## Runs -/

/-- **The PTP vdev is never stale in a run if and only if** every event of the run keeps it. -/
theorem ath10k_notStale_iff (events : List Ath10kEvent) :
    EveryState ath10kStep NotStale events registered ↔ EveryStep ath10kStep KeepsVdev events registered :=
  everyState_iff (fun _ _ _ _ _ => trivial) (fun e ar ar' _ h _ => notStale_step_iff e ar ar' h) events
    (fun _ _ => trivial) trivial notStale_registered

/-- The interface of the PTP vdev is removed: the vdev stays set, also for the interface that is added next. -/
theorem ath10k_notStale_counterexample :
    ¬EveryState ath10kStep NotStale [.addInterface 0 true, .removeInterface 0] registered := by
  intro h
  have hlast := ((h.2 ⟨[0], 0, true⟩ rfl).2 ⟨[], 0, true⟩ rfl).exists_of_set (Int.le_refl 0)
  obtain ⟨vdevId, hmem, -⟩ := hlast.1
  cases hmem

/-- While the vdev is not stale, `ath10k_ptp_adjtime` of a registered clock commands a vdev if there is one. -/
theorem sent_of_notStale {ar : Ath10kVdevs} (h : ar.NotStale) (hclock : ar.ptpClock = true) (hne : ar.arvifs ≠ [])
    (wmi : Int32) {deltaNs : Int64} (hdelta : requested deltaNs ≠ 0) :
    ∃ cmd, (ath10kPtpAdjtime ar.ptpVdevId ar.arvifs wmi deltaNs).sent = [(cmd, wmi)] ∧ cmd.vdevId ∈ ar.arvifs := by
  obtain ⟨vdevId, hmem, hcall⟩ := ath10kPtpAdjtime_of_named wmi hdelta (h.named_of_clock hclock hne)
  exact ⟨_, congrArg AdjtimeCall.sent hcall, hmem⟩

end TsfSync.Drivers
