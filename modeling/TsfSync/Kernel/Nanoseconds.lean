import Mathlib.Algebra.Order.Ring.Abs
import TsfSync.Kernel.SyncWork

/-!
# Microseconds and nanoseconds

A TSF counts microseconds in `u64`; the module scales it and the difference of two to nanoseconds in `s64`, and divides
a nanosecond delta back. Where the TSFs fit signed nanoseconds (`FitsNs`) nothing overflows and the offset that the
kernel computes (`offsetNs`) is that of the daemon (`tsfToNs_sub`).
-/

namespace TsfSync

open MachineWord

/-- A TSF whose nanoseconds fit `s64`. -/
def FitsNs (tsf : UInt64) : Prop := tsf.toNat ≤ (2 ^ 63 - 1) / 1000

variable {p c : UInt64}

theorem toInt_nsecPerUsec : nsecPerUsec.toInt = 1000 := rfl

theorem FitsNs.lt (h : FitsNs p) : p.toNat < 2 ^ 63 := by
  have : (2 ^ 63 - 1) / 1000 < 2 ^ 63 := by decide
  exact lt_of_le_of_lt h this

theorem FitsNs.bound (h : FitsNs p) : 1000 * (p.toNat : Int) ≤ 2 ^ 63 - 1 := by
  have h' := Nat.mul_le_of_le_div 1000 _ _ h
  omega

theorem toInt_tsfToNs (h : FitsNs p) : (tsfToNs p).toInt = 1000 * (p.toNat : Int) := by
  have hb := h.bound
  rw [tsfToNs, toInt_mul_of_range] <;> rw [toInt_toInt64_of_lt h.lt, toInt_nsecPerUsec] <;> omega

theorem toInt_offsetNs (hp : FitsNs p) (hc : FitsNs c) : (offsetNs p c).toInt = 1000 * ((p.toNat : Int) - c.toNat) := by
  have hb := hp.bound
  have hb' := hc.bound
  rw [offsetNs, toInt_mul_of_range] <;> rw [toInt_toInt64_sub hp.lt hc.lt, toInt_nsecPerUsec] <;> omega

theorem toInt_absW_offsetNs (hp : FitsNs p) (hc : FitsNs c) :
    (absW (offsetNs p c)).toInt = 1000 * |(p.toNat : Int) - c.toNat| := by
  have hb := hp.bound
  have hb' := hc.bound
  rw [toInt_absW (by rw [toInt_offsetNs hp hc]; omega), toInt_offsetNs hp hc, abs_mul]
  rfl

/-- The offset of the daemon is the offset of the kernel. -/
theorem tsfToNs_sub (hp : FitsNs p) (hc : FitsNs c) : tsfToNs p - tsfToNs c = offsetNs p c := by
  have hb := hp.bound
  have hb' := hc.bound
  refine Int64.toInt_inj.mp ?_
  rw [toInt_offsetNs hp hc, toInt_sub_of_range] <;> rw [toInt_tsfToNs hp, toInt_tsfToNs hc] <;> omega

/-- Adjusting a card by its offset arrives at the primary. -/
theorem addDeltaNs_offsetNs (hp : FitsNs p) (hc : FitsNs c) : addDeltaNs c (offsetNs p c) = p := by
  have hdiv : offsetNs p c / nsecPerUsec = (p - c).toInt64 := by
    refine Int64.toInt_inj.mp ?_
    rw [Int64.toInt_div_of_ne_right _ _ (by decide), toInt_offsetNs hp hc, toInt_nsecPerUsec,
      toInt_toInt64_sub hp.lt hc.lt, Int.mul_tdiv_cancel_left _ (by decide)]
  rw [addDeltaNs, hdiv, UInt64.toUInt64_toInt64, UInt64.add_comm, UInt64.sub_add_cancel]

theorem eq_of_offset_eq_zero (h : |(p.toNat : Int) - c.toNat| = 0) : c = p :=
  UInt64.toNat_inj.mp (by rw [abs_eq_zero] at h; omega)

end TsfSync
