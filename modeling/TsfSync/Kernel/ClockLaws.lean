import TsfSync.Kernel.Clock
import TsfSync.Kernel.Nanoseconds
import TsfSync.Kernel.Netdev
import TsfSync.Kernel.Spec

/-!
# The laws of the PTP clock

`tsf_ptp_settime` divides unsigned, `tsf_ptp_gettime` multiplies signed and `tsf_ptp_adjtime` divides signed. One law
covers all three: a time that is set reads back rounded down to a microsecond (`toInt_tsfToNs_div`), and an adjustment
moves the clock by its delta truncated to microseconds, modulo `2^64` (`tsfToNs_addDeltaNs_modEq`).
-/

namespace TsfSync

open LockProg MachineWord

/-! ## Times -/

namespace Timespec64

/-- The nanoseconds that a timespec stands for. -/
def ns (ts : Timespec64) : Int := ts.tvSec.toInt * 1000000000 + ts.tvNsec.toInt

/-- The nanoseconds are less than a second. -/
def Normalised (ts : Timespec64) : Prop := 0 ≤ ts.tvNsec.toInt ∧ ts.tvNsec.toInt < 1000000000

end Timespec64

theorem toInt_nsToTimespec64 (ns : Int64) : (nsToTimespec64 ns).tvSec.toInt = ns.toInt / 1000000000 ∧
    (nsToTimespec64 ns).tvNsec.toInt = ns.toInt % 1000000000 := by
  have hr := toInt_range ns
  exact ⟨Int64.toInt_ofInt_of_le (by omega) (by omega), Int64.toInt_ofInt_of_le (by omega) (by omega)⟩

/-- A nanosecond count survives the conversion to a timespec. -/
theorem ns_nsToTimespec64 (ns : Int64) : (nsToTimespec64 ns).ns = ns.toInt := by
  obtain ⟨hsec, hnsec⟩ := toInt_nsToTimespec64 ns
  rw [Timespec64.ns, hsec, hnsec]
  omega

theorem normalised_nsToTimespec64 (ns : Int64) : (nsToTimespec64 ns).Normalised := by
  obtain ⟨-, hnsec⟩ := toInt_nsToTimespec64 ns
  rw [Timespec64.Normalised, hnsec]
  omega

/-- The times a clock can be set to. -/
structure Timespec64.Settable (ts : Timespec64) : Prop where
  secNonneg : 0 ≤ ts.tvSec.toInt
  secLt : ts.tvSec < ktimeSecMax
  normalised : ts.Normalised

theorem Timespec64.Settable.range {ts : Timespec64} (h : ts.Settable) : 0 ≤ ts.ns ∧ ts.ns < 2 ^ 63 := by
  have hlt := Int64.lt_iff_toInt_lt.mp h.secLt
  have hmax : ktimeSecMax.toInt = 9223372036 := by decide
  have h0 := h.secNonneg
  obtain ⟨h₁, h₂⟩ := h.normalised
  unfold Timespec64.ns
  constructor <;> omega

theorem toInt_timespec64ToNs {ts : Timespec64} (h : ts.Settable) : (timespec64ToNs ts).toInt = ts.ns := by
  have hmin : ktimeSecMin.toInt = -9223372036 := by decide
  have h0 := h.secNonneg
  have hr := h.range
  have hge : ¬ts.tvSec ≥ ktimeSecMax := by
    have := h.secLt
    rw [ge_iff_le, Int64.not_le]
    exact this
  have hle : ¬ts.tvSec ≤ ktimeSecMin := by
    rw [Int64.le_iff_toInt_le]
    omega
  have hsec : (ts.tvSec * 1000000000).toInt = ts.tvSec.toInt * 1000000000 := by
    obtain ⟨h₁, h₂⟩ := h.normalised
    unfold Timespec64.ns at hr
    apply toInt_mul_of_range
    · show -2 ^ 63 ≤ ts.tvSec.toInt * 1000000000
      omega
    · show ts.tvSec.toInt * 1000000000 < 2 ^ 63
      omega
  rw [timespec64ToNs, if_neg hge, if_neg hle, Int64.toInt_add, hsec]
  exact Int.bmod_eq_of_le (by unfold Timespec64.ns at hr; omega) (by unfold Timespec64.ns at hr; omega)

/-! ## Rounding -/

/-- Nanoseconds that are set read back rounded down to a microsecond. -/
theorem toInt_tsfToNs_div {ns : Int64} (h : 0 ≤ ns.toInt) :
    (tsfToNs (ns.toUInt64 / 1000)).toInt = ns.toInt - ns.toInt % 1000 := by
  have hr := toInt_range ns
  have hns : (ns.toUInt64.toNat : Int) = ns.toInt := by
    have hm := toNat_toUInt64_modEq ns
    have hlt := ns.toUInt64.toNat_lt
    rw [Int.ModEq, Int.emod_eq_of_lt (by omega) (by omega), Int.emod_eq_of_lt h (by omega)] at hm
    exact hm
  have hdiv : (ns.toUInt64 / 1000).toNat = ns.toUInt64.toNat / 1000 := UInt64.toNat_div ..
  have hfits : FitsNs (ns.toUInt64 / 1000) := by
    rw [FitsNs, hdiv]
    omega
  rw [toInt_tsfToNs hfits, hdiv]
  omega

/-- An adjustment moves the clock by its delta truncated to microseconds, wherever the sum wraps. -/
theorem tsfToNs_addDeltaNs_modEq (x : UInt64) (d : Int64) :
    (tsfToNs (addDeltaNs x d)).toInt - (tsfToNs x).toInt ≡ d.toInt - d.toInt.tmod 1000 [ZMOD 2 ^ 64] := by
  have hns : ∀ y : UInt64, (tsfToNs y).toInt ≡ y.toNat * 1000 [ZMOD 2 ^ 64] := fun y =>
    (toInt_mul_modEq _ _).trans ((toInt_toInt64_modEq y).mul_right _)
  have hquot : (d / nsecPerUsec).toInt = d.toInt.tdiv 1000 := Int64.toInt_div_of_ne_right _ _ (by decide)
  have hadd : ((addDeltaNs x d).toNat : Int) ≡ x.toNat + d.toInt.tdiv 1000 [ZMOD 2 ^ 64] := by
    have h := toNat_toUInt64_modEq (d / nsecPerUsec)
    rw [hquot] at h
    exact (toNat_add_modEq x _).trans (h.add_left _)
  have htrunc : d.toInt - d.toInt.tmod 1000 = 1000 * d.toInt.tdiv 1000 := by
    have := Int.mul_tdiv_add_tmod d.toInt 1000
    omega
  calc (tsfToNs (addDeltaNs x d)).toInt - (tsfToNs x).toInt
      ≡ (x.toNat + d.toInt.tdiv 1000) * 1000 - x.toNat * 1000 [ZMOD 2 ^ 64] :=
        ((hns _).trans (hadd.mul_right _)).sub (hns x)
    _ = d.toInt - d.toInt.tmod 1000 := by rw [htrunc, Int.add_mul, Int.mul_comm 1000]; omega

/-! ## The operations on a card with a VIF -/

/-- A card as `tsf_ptp_probe` leaves it: its driver has `get_tsf`, and the PTP core can set and adjust the clock only
where it has `set_tsf`. -/
structure Card.Registered (k : Card) : Prop where
  getTsf : k.hw.ops.getTsf = true
  settime64 : k.settime64 = k.hw.ops.setTsf
  adjtime : k.adjtime = k.hw.ops.setTsf

theorem registered_new {w : WiphyId} {loc : Local w} (h : loc.hw.ops.getTsf = true) : (Card.new loc).Registered :=
  ⟨h, rfl, rfl⟩

theorem Card.Registered.readTsf {k : Card} (h : k.Registered) : k.readTsf = k.hw.tsf := if_pos h.getTsf

section Contract

variable {s : Kernel} {c : CardPtr} {vif : DevId}

theorem run_gettime (hv : (s.card c).vif = some vif) : (tsfPtpGettime c).run s =
    (.ok (nsToTimespec64 (tsfToNs (s.card c).readTsf)), s.gotTsf c vif) := by
  simp [tsfPtpGettime, hv]

theorem run_settime (hv : (s.card c).vif = some vif) (ts : Timespec64) : (tsfPtpSettime c ts).run s =
    (.ok (), s.putTsf c vif ((timespec64ToNs ts).toUInt64 / 1000)) := by
  simp [tsfPtpSettime, hv]

theorem run_adjtime (hv : (s.card c).vif = some vif) {d : Int64} (hd : belowThreshold s.adjtimeThresholdNs d = false) :
    (tsfPtpAdjtime c d).run s = (.ok (), adjusted s c d) := by
  simp [tsfPtpAdjtime, adjusted, hv, hd]

/-- Reading the clock gives the TSF in nanoseconds. -/
theorem gettime_ns (hk : (s.card c).Registered) (hv : (s.card c).vif = some vif) :
    ∃ ts, ((tsfPtpGettime c).run s).1 = .ok ts ∧ ts.Normalised ∧ ts.ns = (tsfToNs (s.card c).hw.tsf).toInt := by
  refine ⟨nsToTimespec64 (tsfToNs (s.card c).hw.tsf), ?_, normalised_nsToTimespec64 _, ns_nsToTimespec64 _⟩
  rw [run_gettime hv, hk.readTsf]

/-- A write of the TSF leaves the rest of the card. -/
theorem registered_putTsf (vif : DevId) (tsf : UInt64) (hk : (s.card c).Registered) :
    ((s.putTsf c vif tsf).card c).Registered ∧ ((s.putTsf c vif tsf).card c).vif = (s.card c).vif := by
  rw [Kernel.putTsf_self]
  split
  · exact ⟨⟨hk.getTsf, hk.settime64, hk.adjtime⟩, rfl⟩
  · exact ⟨hk, rfl⟩

/-- **The contract of the clock**: a time that is set reads back rounded down to a microsecond, and an adjustment that
is not skipped moves the time by the delta truncated to microseconds, modulo `2^64`. -/
theorem clock_contract (hk : (s.card c).Registered) (hv : (s.card c).vif = some vif) :
    ((s.card c).settime64 = true → ∀ ts : Timespec64, ts.Settable →
      ((tsfPtpSettime c ts).run s).1 = .ok () ∧
      ∃ ts', ((tsfPtpGettime c).run ((tsfPtpSettime c ts).run s).2).1 = .ok ts' ∧ ts'.Normalised ∧
        ts'.ns = ts.ns - ts.ns % 1000 ∧ 0 ≤ ts.ns - ts'.ns ∧ ts.ns - ts'.ns ≤ 999) ∧
    ((s.card c).adjtime = true → ∀ d : Int64, belowThreshold s.adjtimeThresholdNs d = false →
      ((tsfPtpAdjtime c d).run s).1 = .ok () ∧
      ∃ before after, ((tsfPtpGettime c).run s).1 = .ok before ∧
        ((tsfPtpGettime c).run ((tsfPtpAdjtime c d).run s).2).1 = .ok after ∧
        after.ns - before.ns ≡ d.toInt - d.toInt.tmod 1000 [ZMOD 2 ^ 64]) := by
  constructor
  · intro hset ts hts
    have hops : (s.card c).hw.ops.setTsf = true := hk.settime64 ▸ hset
    rw [run_settime hv]
    refine ⟨rfl, ?_⟩
    obtain ⟨hk', hv'⟩ := registered_putTsf vif ((timespec64ToNs ts).toUInt64 / 1000) hk
    obtain ⟨ts', hget, hnorm, hns⟩ := gettime_ns hk' (hv'.trans hv)
    have hround : ts'.ns = ts.ns - ts.ns % 1000 := by
      have hnonneg : 0 ≤ (timespec64ToNs ts).toInt := by
        rw [toInt_timespec64ToNs hts]
        exact hts.range.1
      rw [hns, Kernel.putTsf_self, if_pos hops, toInt_tsfToNs_div hnonneg, toInt_timespec64ToNs hts]
    refine ⟨ts', hget, hnorm, hround, ?_, ?_⟩ <;> omega
  · intro hadj d hd
    have hops : (s.card c).hw.ops.setTsf = true := hk.adjtime ▸ hadj
    obtain ⟨before, hbefore, -, hns⟩ := gettime_ns hk hv
    have hput : ∀ tsf, (((s.gotTsf c vif).putTsf c vif tsf).applied.card c).Registered ∧
        (((s.gotTsf c vif).putTsf c vif tsf).applied.card c).vif = some vif ∧
        (((s.gotTsf c vif).putTsf c vif tsf).applied.card c).hw.tsf = tsf := fun tsf => by
      obtain ⟨hk', hv'⟩ := registered_putTsf (s := s.gotTsf c vif) vif tsf (by simpa using hk)
      refine ⟨hk', by simpa [hv] using hv', ?_⟩
      rw [Kernel.applied_card, Kernel.putTsf_self, Kernel.gotTsf_card, if_pos hops]
    rw [run_adjtime hv hd, adjusted, hv]
    obtain ⟨hk', hv', htsf⟩ := hput (addDeltaNs (s.card c).readTsf d)
    obtain ⟨after, hafter, -, hns'⟩ := gettime_ns hk' hv'
    refine ⟨rfl, before, after, hbefore, hafter, ?_⟩
    rw [hns', hns, htsf, hk.readTsf]
    exact tsfToNs_addDeltaNs_modEq _ d

end Contract

/-- A probed card with a VIF and TSF 0: 1.000001999 s read back as 1.000001 s, and -7500 ns wrap around 0. -/
theorem clock_contract_run :
    (∃ ts', ((tsfPtpGettime (.card 0)).run ((tsfPtpSettime (.card 0) ⟨1, 1999⟩).run
        (.withCards [{ Card.new (.both 0) with vif := some 0 }])).2).1 = .ok ts' ∧ ts'.ns = 1000001000) ∧
      ∃ before after, ((tsfPtpGettime (.card 0)).run (.withCards [{ Card.new (.both 0) with vif := some 0 }])).1 =
          .ok before ∧
        ((tsfPtpGettime (.card 0)).run ((tsfPtpAdjtime (.card 0) (-7500)).run
          (.withCards [{ Card.new (.both 0) with vif := some 0 }])).2).1 = .ok after ∧
        after.ns - before.ns ≡ -7000 [ZMOD 2 ^ 64] := by
  have hk : (Card.new (.both 0)).Registered := registered_new rfl
  have hv : ((Kernel.withCards [{ Card.new (.both 0) with vif := some 0 }]).card (.card 0)).vif = some 0 := rfl
  obtain ⟨hset, hadj⟩ := clock_contract ⟨hk.getTsf, hk.settime64, hk.adjtime⟩ hv
  have hns : (⟨1, 1999⟩ : Timespec64).ns - (⟨1, 1999⟩ : Timespec64).ns % 1000 = 1000001000 := by decide
  obtain ⟨-, ts', hget, -, hround, -⟩ := hset rfl ⟨1, 1999⟩ ⟨by decide, by decide, by decide, by decide⟩
  obtain ⟨-, before, after, hbefore, hafter, hmod⟩ := hadj rfl (-7500) (by decide)
  exact ⟨⟨ts', hget, hround.trans hns⟩, before, after, hbefore, hafter, hmod⟩

end TsfSync
