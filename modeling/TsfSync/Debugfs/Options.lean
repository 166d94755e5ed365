import TsfSync.Debugfs.Deadline

/-!
# The period and the statistics interval

`main` turns the options `period_ms` and `stats_interval`, which may be any `u64`, into `period_ns` and
`stats_interval_cycles`, and the loops advance their deadline by `period_ns` in every cycle. All of this is defined, and
means what the options say, just for options and cycles in a range (`computesSoundly_iff`).
-/

namespace TsfSync.Debugfs

open MachineWord

/-- The options of `Cli` that `main` computes with. -/
structure Cli where
  periodMs : UInt64
  statsInterval : UInt64
  deriving DecidableEq, Repr

namespace Cli

/-- `period_ns`; none on overflow. -/
def periodNs (args : Cli) : Option Int64 := mulChecked args.periodMs.toInt64 1_000_000

/-- `stats_interval_cycles`; none on overflow or a division by zero. -/
def statsIntervalCycles (args : Cli) : Option UInt64 :=
  if 0 < args.statsInterval then do udivChecked (← umulChecked args.statsInterval 1000) args.periodMs else some 0

/-- `main` and so many cycles compute without overflow, division by zero or change of sign; the period is positive and the
one of the options; and statistics that were asked for are not disabled, which is what an interval of 0 cycles does. -/
structure ComputesSoundly (args : Cli) (start : Timespec) (cycles : Nat) : Prop where
  sign : args.periodMs.toInt64.toInt = args.periodMs.toNat
  period : ∃ periodNs, args.periodNs = some periodNs ∧ 0 < periodNs.toInt ∧
    periodNs.toInt = args.periodMs.toNat * 1000000 ∧ ∃ deadline, deadlineAfter start periodNs cycles = some deadline
  stats : ∃ statsIntervalCycles, args.statsIntervalCycles = some statsIntervalCycles ∧
    (0 < args.statsInterval → 0 < statsIntervalCycles)

/-- The period is positive and its nanoseconds fit `i64`; the milliseconds of the statistics interval fit `u64` and are no
fewer than those of the period; and the sums in `advance_deadline` fit `i64` up to the last cycle. -/
structure InRange (args : Cli) (start : Timespec) (cycles : Nat) : Prop where
  pos : 0 < args.periodMs.toNat
  period : args.periodMs.toNat * 1000000 < 2 ^ 63
  stats : args.statsInterval.toNat = 0 ∨
    args.statsInterval.toNat * 1000 < 2 ^ 64 ∧ args.periodMs.toNat ≤ args.statsInterval.toNat * 1000
  nsec : ∀ m < cycles, (start.tvNsec.toInt + m * (args.periodMs.toNat * 1000000 : Int)) % 1000000000 +
    (args.periodMs.toNat * 1000000 : Int) < 2 ^ 63
  sec : start.tvSec.toInt + (start.tvNsec.toInt + cycles * (args.periodMs.toNat * 1000000 : Int)) / 1000000000 < 2 ^ 63

variable {args : Cli} {start : Timespec} {periodNs : Int64} {cycles : Nat}

theorem periodNs_eq_some_iff : args.periodNs = some periodNs ↔ periodNs.toInt = args.periodMs.toInt64.toInt * 1000000 :=
  ofIntChecked_eq_some_iff

/-- The cast keeps the sign of the periods whose nanoseconds fit. -/
theorem sign_iff : args.periodMs.toInt64.toInt = args.periodMs.toNat ↔ args.periodMs.toNat < 2 ^ 63 := by
  constructor
  · intro h
    have hr := toInt_range args.periodMs.toInt64
    omega
  · exact toInt_toInt64_of_lt

/-- The interval of the statistics is a number of cycles, and not 0 if there is one. -/
theorem stats_iff (hpos : 0 < args.periodMs.toNat) :
    (∃ statsIntervalCycles, args.statsIntervalCycles = some statsIntervalCycles ∧
      (0 < args.statsInterval → 0 < statsIntervalCycles)) ↔
    args.statsInterval.toNat = 0 ∨
      args.statsInterval.toNat * 1000 < 2 ^ 64 ∧ args.periodMs.toNat ≤ args.statsInterval.toNat * 1000 := by
  have hthousand : (1000 : UInt64).toNat = 1000 := rfl
  unfold statsIntervalCycles
  by_cases hinterval : 0 < args.statsInterval
  · have hne : args.statsInterval.toNat ≠ 0 := Nat.ne_of_gt (UInt64.lt_iff_toNat_lt.mp hinterval)
    simp only [if_pos hinterval, Option.bind_eq_bind, Option.bind_eq_some_iff, umulChecked_eq_some_iff,
      udivChecked_eq_some_iff, hne, false_or, hthousand]
    constructor
    · rintro ⟨n, ⟨ms, hms, -, hn⟩, hnpos⟩
      have hn' : 0 < n.toNat := UInt64.lt_iff_toNat_lt.mp (hnpos hinterval)
      rw [hn, Nat.div_pos_iff, hms] at hn'
      exact ⟨hms ▸ ms.toNat_lt, hn'.2⟩
    · rintro ⟨hfits, hle⟩
      have hms : (args.statsInterval * 1000).toNat = args.statsInterval.toNat * 1000 := by
        rw [UInt64.toNat_mul, hthousand, Nat.mod_eq_of_lt hfits]
      refine ⟨args.statsInterval * 1000 / args.periodMs, ⟨_, hms, hpos, UInt64.toNat_div ..⟩, fun _ => ?_⟩
      rw [UInt64.lt_iff_toNat_lt, UInt64.toNat_div, hms]
      exact Nat.div_pos hle hpos
  · have hzero : args.statsInterval.toNat = 0 := Nat.eq_zero_of_not_pos fun hpos => hinterval (UInt64.lt_iff_toNat_lt.mpr hpos)
    exact iff_of_true ⟨0, if_neg hinterval, fun h => absurd h hinterval⟩ (.inl hzero)

/-- Where the period is exact, the deadline of every cycle fits if and only if the sums up to the last one do. -/
theorem deadline_iff (hstart : start.Normalised) (hperiod : periodNs.toInt = args.periodMs.toNat * 1000000) :
    (∃ deadline, deadlineAfter start periodNs cycles = some deadline) ↔
      (∀ m < cycles, (start.tvNsec.toInt + m * (args.periodMs.toNat * 1000000 : Int)) % 1000000000 +
        (args.periodMs.toNat * 1000000 : Int) < 2 ^ 63) ∧
      start.tvSec.toInt + (start.tvNsec.toInt + cycles * (args.periodMs.toNat * 1000000 : Int)) / 1000000000 < 2 ^ 63 := by
  have hnonneg : 0 ≤ periodNs.toInt := by omega
  simp only [deadlineAfter_eq_some_iff hstart hnonneg, nsecAfter, hperiod]
  have htotal : 0 ≤ start.tvNsec.toInt + cycles * (args.periodMs.toNat * 1000000 : Int) := by
    have hmul : 0 ≤ (cycles : Int) * (args.periodMs.toNat * 1000000 : Int) :=
      Int.mul_nonneg (Int.natCast_nonneg cycles) (by omega)
    exact Int.add_nonneg hstart.1 hmul
  constructor
  · rintro ⟨deadline, hall, hsec, -⟩
    exact ⟨hall, hsec ▸ (toInt_range deadline.tvSec).2⟩
  · rintro ⟨hall, hfits⟩
    generalize start.tvNsec.toInt + cycles * (args.periodMs.toNat * 1000000 : Int) = total at *
    have hr := toInt_range start.tvSec
    obtain ⟨deadline, -, hsec, hnsec⟩ :=
      exists_normalised (start.tvSec.toInt + total / 1000000000) (total % 1000000000) (by omega) (by omega)
    exact ⟨deadline, hall, hsec, hnsec⟩

/-- **The options and the deadlines are computed soundly if and only if they are in range.** -/
theorem computesSoundly_iff (args : Cli) {start : Timespec} (hstart : start.Normalised) (cycles : Nat) :
    args.ComputesSoundly start cycles ↔ args.InRange start cycles := by
  constructor
  · rintro ⟨-, ⟨periodNs, -, hpos, hperiod, hdeadline⟩, hstats⟩
    have hms : 0 < args.periodMs.toNat := by omega
    have hfits := (toInt_range periodNs).2
    obtain ⟨hnsec, hsec⟩ := (deadline_iff hstart hperiod).mp hdeadline
    exact ⟨hms, by omega, (stats_iff hms).mp hstats, hnsec, hsec⟩
  · intro h
    have hsign : args.periodMs.toInt64.toInt = args.periodMs.toNat := sign_iff.mpr (by have := h.period; omega)
    obtain ⟨periodNs, -, hperiod⟩ := ofIntChecked_of_range (x := (args.periodMs.toNat * 1000000 : Int)) (by
      have := h.period
      omega)
    refine ⟨hsign, ⟨periodNs, ?_, ?_, hperiod, (deadline_iff hstart hperiod).mpr ⟨h.nsec, h.sec⟩⟩,
      (stats_iff h.pos).mpr h.stats⟩
    · rw [periodNs_eq_some_iff, hperiod, hsign]
    · have := h.pos
      omega

/-- The default period of 10 ms, with statistics every second, for an hour. -/
theorem computesSoundly_iff_hour : ComputesSoundly ⟨10, 1⟩ ⟨0, 0⟩ 360000 := by
  have hstart : Timespec.Normalised ⟨0, 0⟩ := by unfold Timespec.Normalised; decide
  refine (computesSoundly_iff ⟨10, 1⟩ hstart 360000).mpr ?_
  refine ⟨by decide, by decide, .inr (by decide), fun m _ => ?_, by decide⟩
  show ((0 : Int) + m * 10000000) % 1000000000 + 10000000 < 2 ^ 63
  omega

/-- A period of 0 ms with statistics every second: `main` divides by zero. -/
theorem computesSoundly_counterexample : ¬∀ (args : Cli) (start : Timespec) (cycles : Nat), start.Normalised →
    args.ComputesSoundly start cycles := by
  intro h
  obtain ⟨-, -, n, hn, -⟩ := h ⟨0, 1⟩ ⟨0, 0⟩ 0 (by unfold Timespec.Normalised; decide)
  cases hn

end Cli

end TsfSync.Debugfs
