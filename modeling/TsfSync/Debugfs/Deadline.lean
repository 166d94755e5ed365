import TsfSync.Lib.Word

/-!
# The deadlines of `tsf-sync-debugfs`

`advance_deadline` of `rt.rs` adds a period to the nanoseconds of a `timespec` and carries whole seconds over one at a
time. There is no result where an addition overflows. From a normalised time the loop divides (`carry_eq_some_iff`), so
that the time after any number of calls is the exact one, or an addition on the way does not fit (`deadlineAfter_eq_some_iff`).
-/

namespace TsfSync.Debugfs

open MachineWord

/-- `libc::timespec`. -/
@[ext]
structure Timespec where
  tvSec : Int64
  tvNsec : Int64
  deriving DecidableEq, Repr

/-- The nanoseconds are less than a second. -/
def Timespec.Normalised (ts : Timespec) : Prop := 0 ≤ ts.tvNsec.toInt ∧ ts.tvNsec.toInt < 1000000000

/-- A normalised time has any seconds that fit and any nanoseconds of a second. -/
theorem exists_normalised (sec nsec : Int) (hsec : -2 ^ 63 ≤ sec ∧ sec < 2 ^ 63)
    (hnsec : 0 ≤ nsec ∧ nsec < 1000000000) :
    ∃ ts : Timespec, ts.Normalised ∧ ts.tvSec.toInt = sec ∧ ts.tvNsec.toInt = nsec := by
  obtain ⟨tvSec, -, rfl⟩ := ofIntChecked_of_range hsec
  obtain ⟨tvNsec, -, rfl⟩ := ofIntChecked_of_range (show -2 ^ 63 ≤ nsec ∧ nsec < 2 ^ 63 by omega)
  exact ⟨⟨tvSec, tvNsec⟩, hnsec, rfl, rfl⟩

/-- The body of the loop of `advance_deadline`. -/
def carryOnce (ts : Timespec) : Option Timespec := do
  let tvSec ← addChecked ts.tvSec 1
  let tvNsec ← subChecked ts.tvNsec 1_000_000_000
  return ⟨tvSec, tvNsec⟩

theorem carryOnce_eq_some_iff {ts ts' : Timespec} : carryOnce ts = some ts' ↔
    ts'.tvSec.toInt = ts.tvSec.toInt + 1 ∧ ts'.tvNsec.toInt = ts.tvNsec.toInt - 1000000000 := by
  have hsec : ∀ w, addChecked ts.tvSec 1 = some w ↔ w.toInt = ts.tvSec.toInt + 1 := fun _ => ofIntChecked_eq_some_iff
  have hnsec : ∀ w, subChecked ts.tvNsec 1_000_000_000 = some w ↔ w.toInt = ts.tvNsec.toInt - 1000000000 :=
    fun _ => ofIntChecked_eq_some_iff
  simp only [carryOnce, Option.bind_eq_bind, Option.bind_eq_some_iff, hsec, hnsec]
  constructor
  · rintro ⟨tvSec, h₁, tvNsec, h₂, h⟩
    cases h
    exact ⟨h₁, h₂⟩
  · rintro ⟨h₁, h₂⟩
    exact ⟨ts'.tvSec, h₁, ts'.tvNsec, h₂, rfl⟩

/-- The loop goes on. -/
theorem le_tvNsec_iff {ts : Timespec} : 1_000_000_000 ≤ ts.tvNsec ↔ 1000000000 ≤ ts.tvNsec.toInt := Int64.le_iff_toInt_le

/-- The loop of `advance_deadline`. -/
def carry (ts : Timespec) : Option Timespec :=
  if 1_000_000_000 ≤ ts.tvNsec then
    match _h : carryOnce ts with
    | none => none
    | some ts' => carry ts'
  else some ts
termination_by ts.tvNsec.toInt.toNat
decreasing_by
  rename_i hloop
  have hle := le_tvNsec_iff.mp hloop
  have hnsec := (carryOnce_eq_some_iff.mp _h).2
  omega

/-- **The loop divides**: there is a result exactly if the seconds with those carried over fit. -/
theorem carry_eq_some_iff {ts ts' : Timespec} (h : 0 ≤ ts.tvNsec.toInt) : carry ts = some ts' ↔
    ts'.tvSec.toInt = ts.tvSec.toInt + ts.tvNsec.toInt / 1000000000 ∧
      ts'.tvNsec.toInt = ts.tvNsec.toInt % 1000000000 := by
  induction ts using carry.induct with
  | case1 ts hloop hnone =>
    have hle := le_tvNsec_iff.mp hloop
    rw [carry, if_pos hloop, hnone]
    refine iff_of_false nofun fun ⟨hsec, _⟩ => ?_
    -- where all seconds to be carried over fit, so does the first
    obtain ⟨tvSec, -, htvSec⟩ := ofIntChecked_of_range (x := ts.tvSec.toInt + 1) (by
      have := toInt_range ts.tvSec
      have := toInt_range ts'.tvSec
      omega)
    obtain ⟨tvNsec, -, htvNsec⟩ := ofIntChecked_of_range (x := ts.tvNsec.toInt - 1000000000) (by
      have := toInt_range ts.tvNsec
      omega)
    have honce : carryOnce ts = some ⟨tvSec, tvNsec⟩ := carryOnce_eq_some_iff.mpr ⟨htvSec, htvNsec⟩
    rw [hnone] at honce
    cases honce
  | case2 ts hloop next hnext ih =>
    have hle := le_tvNsec_iff.mp hloop
    obtain ⟨hsec, hnsec⟩ := carryOnce_eq_some_iff.mp hnext
    rw [carry, if_pos hloop, hnext]
    dsimp only
    rw [ih (by omega), hsec, hnsec]
    constructor
    · intro h
      omega
    · intro h
      omega
  | case3 ts hloop =>
    have hlt : ¬1000000000 ≤ ts.tvNsec.toInt := mt le_tvNsec_iff.mpr hloop
    rw [carry, if_neg hloop, Option.some.injEq, Int.ediv_eq_zero_of_lt h (by omega), Int.emod_eq_of_lt h (by omega),
      Int.add_zero, Int64.toInt_inj, Int64.toInt_inj, eq_comm, Timespec.ext_iff]

/-- `advance_deadline`. -/
def advanceDeadline (ts : Timespec) (periodNs : Int64) : Option Timespec := do
  let tvNsec ← addChecked ts.tvNsec periodNs
  carry { ts with tvNsec }

/-- The deadline after so many cycles. -/
def deadlineAfter (start : Timespec) (periodNs : Int64) : Nat → Option Timespec
  | 0 => some start
  | m + 1 => do advanceDeadline (← deadlineAfter start periodNs m) periodNs

variable {start ts ts' : Timespec} {periodNs : Int64}

/-- A call is exact where the sums of the nanoseconds and of the seconds fit. -/
theorem advanceDeadline_eq_some_iff (hts : ts.Normalised) (hperiod : 0 ≤ periodNs.toInt) :
    advanceDeadline ts periodNs = some ts' ↔ ts.tvNsec.toInt + periodNs.toInt < 2 ^ 63 ∧
      ts'.tvSec.toInt = ts.tvSec.toInt + (ts.tvNsec.toInt + periodNs.toInt) / 1000000000 ∧
      ts'.tvNsec.toInt = (ts.tvNsec.toInt + periodNs.toInt) % 1000000000 := by
  have hsums : 0 ≤ ts.tvNsec.toInt + periodNs.toInt := Int.add_nonneg hts.1 hperiod
  have hcarry : ∀ tvNsec : Int64, 0 ≤ tvNsec.toInt → (carry { ts with tvNsec } = some ts' ↔
      ts'.tvSec.toInt = ts.tvSec.toInt + tvNsec.toInt / 1000000000 ∧
        ts'.tvNsec.toInt = tvNsec.toInt % 1000000000) := fun _ h => carry_eq_some_iff h
  simp only [advanceDeadline, Option.bind_eq_bind, Option.bind_eq_some_iff, addChecked, ofIntChecked_eq_some_iff]
  constructor
  · rintro ⟨tvNsec, hsum, hnext⟩
    have hfits := (toInt_range tvNsec).2
    rw [hcarry tvNsec (hsum ▸ hsums), hsum] at hnext
    rw [hsum] at hfits
    exact ⟨hfits, hnext⟩
  · rintro ⟨hfits, hnext⟩
    obtain ⟨tvNsec, -, hsum⟩ := ofIntChecked_of_range
      (show -2 ^ 63 ≤ ts.tvNsec.toInt + periodNs.toInt ∧ _ from ⟨hsums.trans' (by decide), hfits⟩)
    rw [← hsum] at hsums hnext
    exact ⟨tvNsec, hsum, (hcarry tvNsec hsums).mpr hnext⟩

/-- The nanoseconds of the deadline after so many cycles, were there no bound, from the start of its second on. -/
def nsecAfter (start : Timespec) (periodNs : Int64) (m : Nat) : Int := start.tvNsec.toInt + m * periodNs.toInt

/-- Seconds that are carried over early are not lost. -/
theorem carried_add (nsec period : Int) :
    nsec / 1000000000 + (nsec % 1000000000 + period) / 1000000000 = (nsec + period) / 1000000000 ∧
      (nsec % 1000000000 + period) % 1000000000 = (nsec + period) % 1000000000 := by
  omega

/-- **After any number of cycles the deadline is exact**, where the sums of the nanoseconds on the way and the seconds
fit. -/
theorem deadlineAfter_eq_some_iff (hstart : start.Normalised) (hperiod : 0 ≤ periodNs.toInt) (m : Nat) :
    deadlineAfter start periodNs m = some ts ↔
      (∀ k < m, nsecAfter start periodNs k % 1000000000 + periodNs.toInt < 2 ^ 63) ∧
      ts.tvSec.toInt = start.tvSec.toInt + nsecAfter start periodNs m / 1000000000 ∧
      ts.tvNsec.toInt = nsecAfter start periodNs m % 1000000000 := by
  induction m generalizing ts with
  | zero =>
    obtain ⟨hnonneg, hlt⟩ := hstart
    have hzero : nsecAfter start periodNs 0 = start.tvNsec.toInt := by simp [nsecAfter]
    rw [deadlineAfter, hzero, Option.some.injEq, Int.ediv_eq_zero_of_lt hnonneg hlt, Int.emod_eq_of_lt hnonneg hlt,
      Int.add_zero, Int64.toInt_inj, Int64.toInt_inj, eq_comm, Timespec.ext_iff]
    exact (and_iff_right fun k hk => absurd hk (Nat.not_lt_zero k)).symm
  | succ m ih =>
    have hsucc : nsecAfter start periodNs (m + 1) = nsecAfter start periodNs m + periodNs.toInt := by
      unfold nsecAfter
      rw [Nat.cast_succ, Int.add_mul, Int.one_mul, Int.add_assoc]
    have hnonneg : 0 ≤ nsecAfter start periodNs m := by
      have hmul : 0 ≤ (m : Int) * periodNs.toInt := Int.mul_nonneg (Int.natCast_nonneg m) hperiod
      exact Int.add_nonneg hstart.1 hmul
    simp only [deadlineAfter, Option.bind_eq_bind, Option.bind_eq_some_iff, Nat.forall_lt_succ_right]
    obtain ⟨hsecs, hnsecs⟩ := carried_add (nsecAfter start periodNs m) periodNs.toInt
    rw [hsucc, ← hsecs, ← hnsecs, ← Int.add_assoc]
    constructor
    · rintro ⟨now, hnow, hnext⟩
      obtain ⟨hall, hsec, hnsec⟩ := ih.mp hnow
      have hnormalised : now.Normalised := by
        unfold Timespec.Normalised
        omega
      rw [advanceDeadline_eq_some_iff hnormalised hperiod, hsec, hnsec] at hnext
      exact ⟨⟨hall, hnext.1⟩, hnext.2⟩
    · rintro ⟨⟨hall, hfits⟩, hlast⟩
      -- the seconds before the last call are between the first and the last
      have hfirst := toInt_range start.tvSec
      have hlastSec := toInt_range ts.tvSec
      obtain ⟨now, hnormalised, hsec, hnsec⟩ := exists_normalised
        (start.tvSec.toInt + nsecAfter start periodNs m / 1000000000) (nsecAfter start periodNs m % 1000000000)
        (by omega) (by omega)
      refine ⟨now, ih.mpr ⟨hall, hsec, hnsec⟩, ?_⟩
      rw [advanceDeadline_eq_some_iff hnormalised hperiod, hsec, hnsec]
      exact ⟨hfits, hlast⟩

end TsfSync.Debugfs
