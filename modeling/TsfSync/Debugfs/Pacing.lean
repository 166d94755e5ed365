import TsfSync.Debugfs.Cycles
import TsfSync.Debugfs.Deadline
import TsfSync.Lib.Runs

/-!
# The pace of the loops

In nanoseconds, every call of `advance_deadline` adds the period, and neither the normalised times nor the loop that makes
them lose any of it (`deadlines_exact`). `run_single` makes one call in every cycle, also where a read fails, so it sleeps
to the start plus one period, two periods and so on (`slept_exact`).
-/

namespace TsfSync.Debugfs

open MachineWord StepSystem

/-! ## Times as nanoseconds -/

/-- A time in nanoseconds. -/
def Timespec.ns (ts : Timespec) : Int := ts.tvSec.toInt * 1000000000 + ts.tvNsec.toInt

/-- A normalised `timespec` holds so many nanoseconds. -/
def Representable (ns : Int) : Prop := ∃ ts : Timespec, ts.Normalised ∧ ts.ns = ns

theorem representable_iff {ns : Int} :
    Representable ns ↔ -2 ^ 63 * 1000000000 ≤ ns ∧ ns < 2 ^ 63 * 1000000000 := by
  constructor
  · rintro ⟨ts, ⟨hnonneg, hlt⟩, rfl⟩
    have hsec := toInt_range ts.tvSec
    unfold Timespec.ns
    omega
  · intro h
    obtain ⟨ts, hnormalised, hsec, hnsec⟩ :=
      exists_normalised (ns / 1000000000) (ns % 1000000000) (by omega) (by omega)
    refine ⟨ts, hnormalised, ?_⟩
    unfold Timespec.ns
    omega

/-! ## The calls of `advance_deadline` -/

/-- A round of the loop of `advance_deadline`; none where the loop ends or the round overflows. -/
def carryRound (_ : Unit) (ts : Timespec) : Option Timespec := if 1_000_000_000 ≤ ts.tvNsec then carryOnce ts else none

/-- The loop returns after some rounds. -/
theorem runs_of_carry {ts last : Timespec} (h : carry ts = some last) :
    ∃ rounds, runs carryRound rounds ts = some last ∧ ¬1_000_000_000 ≤ last.tvNsec := by
  induction ts using carry.induct with
  | case1 ts hloop hnone =>
    rw [carry, if_pos hloop, hnone] at h
    cases h
  | case2 ts hloop next hnext ih =>
    rw [carry, if_pos hloop, hnext] at h
    obtain ⟨rounds, hruns, hlast⟩ := ih h
    refine ⟨() :: rounds, ?_, hlast⟩
    rw [runs, carryRound, if_pos hloop, hnext, Option.bind_some, hruns]
  | case3 ts hloop =>
    rw [carry, if_neg hloop] at h
    cases h
    exact ⟨[], rfl, hloop⟩

/-- A call of `advance_deadline` in which nothing overflows and the loop ends. -/
structure Advances (now : Timespec) (periodNs : Int64) (next : Timespec) : Prop where
  returns : advanceDeadline now periodNs = some next
  ends : ∃ tvNsec rounds, addChecked now.tvNsec periodNs = some tvNsec ∧
    runs carryRound rounds { now with tvNsec } = some next ∧ ¬1_000_000_000 ≤ next.tvNsec

variable {start now next : Timespec} {periodNs : Int64}

theorem advances_of_eq_some (h : advanceDeadline now periodNs = some next) : Advances now periodNs next := by
  refine ⟨h, ?_⟩
  rw [advanceDeadline, Option.bind_eq_bind, Option.bind_eq_some_iff] at h
  obtain ⟨tvNsec, hsum, hcarry⟩ := h
  obtain ⟨rounds, hruns, hlast⟩ := runs_of_carry hcarry
  exact ⟨tvNsec, rounds, hsum, hruns, hlast⟩

/-- After `k` calls of `m` the deadline is normalised and exact; if that is not the last one, the next call advances it. -/
structure OnTime (start : Timespec) (periodNs : Int64) (m k : Nat) (now : Timespec) : Prop where
  reached : deadlineAfter start periodNs k = some now
  normalised : now.Normalised
  exact : now.ns = start.ns + k * periodNs.toInt
  goesOn : k < m → ∃ next, Advances now periodNs next ∧ deadlineAfter start periodNs (k + 1) = some next

/-- The deadline after so many calls is the normalised time that is so many periods after the start. -/
theorem deadlineAfter_eq_some (hstart : start.Normalised)
    (hperiod : 0 ≤ periodNs.toInt ∧ periodNs.toInt ≤ 2 ^ 63 - 1000000000) {k : Nat} (hnow : now.Normalised)
    (hexact : now.ns = start.ns + k * periodNs.toInt) :
    deadlineAfter start periodNs k = some now := by
  rw [deadlineAfter_eq_some_iff hstart hperiod.1]
  have hns : now.tvSec.toInt * 1000000000 + now.tvNsec.toInt =
      start.tvSec.toInt * 1000000000 + nsecAfter start periodNs k := by
    have hassoc : start.tvSec.toInt * 1000000000 + nsecAfter start periodNs k = start.ns + k * periodNs.toInt :=
      (Int.add_assoc _ _ _).symm
    rw [hassoc]
    exact hexact
  obtain ⟨hnonneg, hlt⟩ := hnow
  refine ⟨fun j _ => ?_, by omega, by omega⟩
  have hmod := Int.emod_lt_of_pos (nsecAfter start periodNs j) (show (0 : Int) < 1000000000 by decide)
  have hle := hperiod.2
  omega

/-- **Deadlines do not drift**: after any number of calls the time is normalised and exact, and every call returns. -/
theorem deadlines_exact (hstart : start.Normalised)
    (hperiod : 0 ≤ periodNs.toInt ∧ periodNs.toInt ≤ 2 ^ 63 - 1000000000) (m : Nat)
    (htotal : Representable (start.ns + m * periodNs.toInt)) : ∀ k ≤ m, ∃ now, OnTime start periodNs m k now := by
  have hreached : ∀ k ≤ m, ∃ now : Timespec, now.Normalised ∧ now.ns = start.ns + k * periodNs.toInt ∧
      deadlineAfter start periodNs k = some now := by
    intro k hk
    -- the times only grow, so those before the last are representable as well
    have hgrow : (k : Int) * periodNs.toInt ≤ m * periodNs.toInt :=
      Int.mul_le_mul_of_nonneg_right (Int.ofNat_le.mpr hk) hperiod.1
    have hpos : 0 ≤ (k : Int) * periodNs.toInt := Int.mul_nonneg (Int.natCast_nonneg k) hperiod.1
    have hfirst := representable_iff.mp ⟨start, hstart, rfl⟩
    have hlast := representable_iff.mp htotal
    obtain ⟨now, hnow, hexact⟩ : Representable (start.ns + k * periodNs.toInt) :=
      representable_iff.mpr ⟨by omega, by omega⟩
    exact ⟨now, hnow, hexact, deadlineAfter_eq_some hstart hperiod hnow hexact⟩
  intro k hk
  obtain ⟨now, hnow, hexact, hafter⟩ := hreached k hk
  refine ⟨now, hafter, hnow, hexact, fun hlt => ?_⟩
  obtain ⟨next, -, -, hnext⟩ := hreached (k + 1) hlt
  have hcall := hnext
  rw [deadlineAfter, hafter] at hcall
  exact ⟨next, advances_of_eq_some hcall, hnext⟩

/-- The third and the fourth of four calls with a period of 2.5 s, from the last nanosecond of a second. -/
theorem deadlines_exact_four : (∃ now, OnTime ⟨100, 999999999⟩ 2500000000 4 3 now) ∧
    ∃ now, OnTime ⟨100, 999999999⟩ 2500000000 4 4 now := by
  have hstart : Timespec.Normalised ⟨100, 999999999⟩ := by
    unfold Timespec.Normalised
    decide
  have htotal : Representable (Timespec.ns ⟨100, 999999999⟩ + (4 : Nat) * (2500000000 : Int64).toInt) := by
    rw [representable_iff, Timespec.ns]
    decide
  have hall := deadlines_exact hstart (by decide) 4 htotal
  exact ⟨hall 3 (by decide), hall 4 (by decide)⟩

/-! ## The sleeps of `run_single` -/

/-- `run_single` at the head of its loop, with its deadline and those that it has slept to. -/
structure Paced (F : Type) (n : Nat) where
  single : Single F n
  deadline : Timespec
  slept : List Timespec

namespace Paced

variable {F : Type} [F64 F] {n : Nat}

/-- One cycle of the loop: after a failed read of the master, too, the deadline is advanced and slept to. None if
`advance_deadline` overflows. -/
def iteration (files : Files n) (periodNs : Int64) (k : Nat) (p : Paced F n) : Option (Paced F n) :=
  let single := p.single.iteration files k
  if single.panicked then some { p with single }
  else do
    let deadline ← advanceDeadline p.deadline periodNs
    return ⟨single, deadline, p.slept ++ [deadline]⟩

/-- The loop after so many cycles. -/
def loop (files : Files n) (controllers : Fin n → Controller F) (start : Timespec) (periodNs : Int64) :
    Nat → Option (Paced F n)
  | 0 => some ⟨.start controllers, start, []⟩
  | k + 1 => do (← loop files controllers start periodNs k).iteration files periodNs k

/-- **`run_single` sleeps to the start plus one period, two periods and so on**, whatever its reads give. -/
theorem slept_exact {files : Files n} {controllers : Fin n → Controller F}
    (hp : ∀ i, clampPanics (controllers i).maxStepUs = false) (hstart : start.Normalised)
    (hperiod : 0 ≤ periodNs.toInt ∧ periodNs.toInt ≤ 2 ^ 63 - 1000000000) {m : Nat}
    (htotal : Representable (start.ns + m * periodNs.toInt)) : ∀ k ≤ m,
      ∃ p, loop files controllers start periodNs k = some p ∧ p.single = Single.loop files controllers k ∧
        deadlineAfter start periodNs k = some p.deadline ∧
        p.slept.map Timespec.ns = (List.range k).map fun j : Nat => start.ns + (j + 1 : Nat) * periodNs.toInt := by
  have honTime := deadlines_exact hstart hperiod m htotal
  intro k
  induction k with
  | zero => exact fun _ => ⟨_, rfl, rfl, rfl, rfl⟩
  | succ k ih =>
    intro hk
    obtain ⟨p, hloop, hsingle, hdeadline, hslept⟩ := ih (by omega)
    obtain ⟨now, hnow⟩ := honTime k (by omega)
    obtain ⟨next, hnext⟩ := honTime (k + 1) hk
    obtain ⟨next', hcall, hnext'⟩ := hnow.goesOn hk
    cases hnow.reached.symm.trans hdeadline
    cases hnext.reached.symm.trans hnext'
    have hrunning : (Single.loop files controllers (k + 1)).panicked = false :=
      (Single.loop_controllers files hp (k + 1)).1
    refine ⟨⟨Single.loop files controllers (k + 1), next, p.slept ++ [next]⟩, ?_, rfl, hnext', ?_⟩
    · rw [loop, hloop]
      show p.iteration files periodNs k = _
      rw [Single.loop, ← hsingle] at hrunning ⊢
      rw [iteration, hrunning, hcall.returns]
      rfl
    · rw [List.map_append, hslept, List.range_succ, List.map_append, List.map_singleton, List.map_singleton,
        hnext.exact]

end Paced

end TsfSync.Debugfs
