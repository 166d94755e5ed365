import Mathlib.Data.Int.ModEq
import Mathlib.Data.Int.Order.Basic
import Mathlib.Tactic.Linarith

/-!
# Signed and unsigned machine words

What C and Rust do with 64-bit words, in terms of the integers they stand for: unsigned words read as signed ones,
the wrap-around absolute value `if d < 0 then -d else d` (`absW`), a `u32` compared with an `s64`, and a scaling that
stays in range. Modulo `2^64` every operation is that of the integers (`toInt_mul_modEq`, `toNat_add_modEq`), so that a
comparison after a wrap goes wrong near the multiples of `2^64` only (`absW_exact_iff`).
-/

namespace MachineWord

/-- The absolute value as the code computes it; the least word is its own negation. -/
def absW (d : Int64) : Int64 := if d < 0 then -d else d

/-- A `u32` converted to `s64`. -/
def ofU32 (t : UInt32) : Int64 := t.toUInt64.toInt64

theorem toInt_toInt64 (x : UInt64) : x.toInt64.toInt = (x.toNat : Int).bmod (2 ^ 64) := by
  rw [← Int64.toInt_toBitVec, UInt64.toBitVec_toInt64, BitVec.toInt_eq_toNat_bmod, UInt64.toNat_toBitVec]

/-- A word below `2^63` reads the same as a signed one. -/
theorem toInt_toInt64_of_lt {x : UInt64} (h : x.toNat < 2 ^ 63) : x.toInt64.toInt = x.toNat := by
  rw [toInt_toInt64]
  exact Int.bmod_eq_of_le (by omega) (by omega)

/-- A word from `2^63` on reads as a negative one. -/
theorem toInt_toInt64_of_ge {x : UInt64} (h : 2 ^ 63 ≤ x.toNat) : x.toInt64.toInt = x.toNat - 2 ^ 64 := by
  have hlt := x.toNat_lt
  rw [toInt_toInt64, ← Int.sub_bmod_right, Int.bmod_eq_of_le (by omega) (by omega)]
  rfl

@[simp] theorem toInt_ofU32 (t : UInt32) : (ofU32 t).toInt = t.toNat := by
  have ht : t.toNat < 2 ^ 32 := t.toNat_lt
  have h : t.toUInt64.toNat = t.toNat := UInt32.toNat_toUInt64 t
  rw [ofU32, toInt_toInt64_of_lt (by omega), h]

theorem toInt_range (d : Int64) : -2 ^ 63 ≤ d.toInt ∧ d.toInt < 2 ^ 63 := ⟨d.le_toInt, d.toInt_lt⟩

/-- Away from the least word a negation is exact. -/
theorem toInt_neg_of_gt {d : Int64} (h : -2 ^ 63 < d.toInt) : (-d).toInt = -d.toInt := by
  have hr := toInt_range d
  rw [Int64.toInt_neg, Int.bmod_eq_of_le (by omega) (by omega)]

/-- Away from the least word the computed absolute value is the absolute value. -/
theorem toInt_absW {d : Int64} (h : -2 ^ 63 < d.toInt) : (absW d).toInt = |d.toInt| := by
  unfold absW
  split
  · rename_i hneg
    rw [Int64.lt_iff_toInt_lt, Int64.toInt_zero] at hneg
    rw [toInt_neg_of_gt h, abs_of_neg hneg]
  · rename_i hpos
    rw [Int64.lt_iff_toInt_lt, Int64.toInt_zero] at hpos
    rw [abs_of_nonneg (by omega)]

/-- A product that stays in the signed range is exact. -/
theorem toInt_mul_of_range {a b : Int64} (h₁ : -2 ^ 63 ≤ a.toInt * b.toInt) (h₂ : a.toInt * b.toInt < 2 ^ 63) :
    (a * b).toInt = a.toInt * b.toInt := by
  rw [Int64.toInt_mul]
  exact Int.bmod_eq_of_le (by omega) (by omega)

/-- A difference that stays in the signed range is exact. -/
theorem toInt_sub_of_range {a b : Int64} (h₁ : -2 ^ 63 ≤ a.toInt - b.toInt) (h₂ : a.toInt - b.toInt < 2 ^ 63) :
    (a - b).toInt = a.toInt - b.toInt := by
  rw [Int64.toInt_sub]
  exact Int.bmod_eq_of_le (by omega) (by omega)

/-- The signed difference of two small unsigned words. -/
theorem toInt_toInt64_sub {x y : UInt64} (hx : x.toNat < 2 ^ 63) (hy : y.toNat < 2 ^ 63) :
    (x - y).toInt64.toInt = (x.toNat : Int) - y.toNat := by
  rw [UInt64.toInt64_sub, toInt_sub_of_range] <;> rw [toInt_toInt64_of_lt hx, toInt_toInt64_of_lt hy] <;> omega

/-- A word clamped between two others. -/
theorem toInt_clamp {low high : Int64} (h : low.toInt ≤ high.toInt) (d : Int64) :
    (if d < low then low else if high < d then high else d).toInt = max low.toInt (min d.toInt high.toInt) := by
  simp only [Int64.lt_iff_toInt_lt]
  split
  · omega
  · split <;> omega

/-- Negation does not change the computed absolute value, not even of the least word. -/
theorem absW_neg (d : Int64) : absW (-d) = absW d := by
  by_cases hmin : d.toInt = -2 ^ 63
  · have : d = Int64.minValue := Int64.toInt_inj.mp (by rw [hmin]; rfl)
    subst this
    decide
  · have hr := toInt_range d
    have hneg : (-d).toInt = -d.toInt := toInt_neg_of_gt (by omega)
    refine Int64.toInt_inj.mp ?_
    rw [toInt_absW (by omega), toInt_absW (by omega), hneg, abs_neg]

/-! ## Checked operations -/

/-- The signed word for an integer, none out of range. -/
def ofIntChecked (x : Int) : Option Int64 := if -2 ^ 63 ≤ x ∧ x < 2 ^ 63 then some (Int64.ofInt x) else none

/-- A product, none on overflow. -/
def mulChecked (a b : Int64) : Option Int64 := ofIntChecked (a.toInt * b.toInt)

/-- A difference, none on overflow. -/
def subChecked (a b : Int64) : Option Int64 := ofIntChecked (a.toInt - b.toInt)

/-- A sum, none on overflow. -/
def addChecked (a b : Int64) : Option Int64 := ofIntChecked (a.toInt + b.toInt)

/-- A negation, none on overflow. -/
def negChecked (a : Int64) : Option Int64 := ofIntChecked (-a.toInt)

/-- A truncated quotient, none on overflow or by zero. -/
def divChecked (a b : Int64) : Option Int64 := if b = 0 then none else ofIntChecked (a.toInt.tdiv b.toInt)

/-- An absolute value, none if the negation overflows. -/
def absChecked (d : Int64) : Option Int64 := if d < 0 then ofIntChecked (-d.toInt) else some d

/-- An unsigned product, none on overflow. -/
def umulChecked (a b : UInt64) : Option UInt64 := if a.toNat * b.toNat < 2 ^ 64 then some (a * b) else none

/-- An unsigned quotient, none by zero. -/
def udivChecked (a b : UInt64) : Option UInt64 := if b = 0 then none else some (a / b)

/-- A checked operation agrees with the wrapping one where that is exact. -/
theorem ofIntChecked_of_eq {x : Int} {w : Int64} (h : w.toInt = x) : ofIntChecked x = some w := by
  subst h
  rw [ofIntChecked, if_pos (toInt_range w), Int64.ofInt_toInt]

/-- A checked operation yields the word for its integer. -/
theorem ofIntChecked_eq_some_iff {x : Int} {w : Int64} : ofIntChecked x = some w ↔ w.toInt = x := by
  refine ⟨fun h => ?_, ofIntChecked_of_eq⟩
  unfold ofIntChecked at h
  split at h
  · rename_i hr
    cases h
    exact Int64.toInt_ofInt_of_le hr.1 hr.2
  · cases h

/-- A checked operation has a result exactly in range. -/
theorem ofIntChecked_of_range {x : Int} (h : -2 ^ 63 ≤ x ∧ x < 2 ^ 63) : ∃ w, ofIntChecked x = some w ∧ w.toInt = x :=
  ⟨Int64.ofInt x, if_pos h, Int64.toInt_ofInt_of_le h.1 h.2⟩

theorem umulChecked_eq_some_iff {a b w : UInt64} : umulChecked a b = some w ↔ w.toNat = a.toNat * b.toNat := by
  unfold umulChecked
  split
  · rename_i hlt
    have hmul : (a * b).toNat = a.toNat * b.toNat := by rw [UInt64.toNat_mul, Nat.mod_eq_of_lt hlt]
    rw [Option.some.injEq, ← hmul, eq_comm, UInt64.toNat_inj]
  · rename_i hge
    exact iff_of_false nofun fun h => hge (h ▸ w.toNat_lt)

theorem udivChecked_eq_some_iff {a b w : UInt64} :
    udivChecked a b = some w ↔ 0 < b.toNat ∧ w.toNat = a.toNat / b.toNat := by
  have hzero : b = 0 ↔ b.toNat = 0 := by rw [← UInt64.toNat_inj]; rfl
  unfold udivChecked
  split
  · rename_i hb
    exact iff_of_false nofun fun h => h.1.ne' (hzero.mp hb)
  · rename_i hb
    rw [Option.some.injEq, ← UInt64.toNat_div, eq_comm, UInt64.toNat_inj]
    exact (and_iff_right (Nat.pos_of_ne_zero (mt hzero.mpr hb))).symm

theorem absChecked_eq {d : Int64} (h : -2 ^ 63 < d.toInt) : absChecked d = some (absW d) := by
  unfold absChecked absW
  split
  · exact ofIntChecked_of_eq (toInt_neg_of_gt h)
  · rfl

/-! ## Modulo `2^64` -/

/-- A word read as a signed one is the same number modulo `2^64`. -/
theorem toInt_toInt64_modEq (x : UInt64) : x.toInt64.toInt ≡ x.toNat [ZMOD 2 ^ 64] := by
  rw [toInt_toInt64]
  exact Int.bmod_emod (m := 2 ^ 64)

theorem toNat_toUInt64_modEq (d : Int64) : (d.toUInt64.toNat : Int) ≡ d.toInt [ZMOD 2 ^ 64] := by
  have h := toInt_toInt64_modEq d.toUInt64
  rw [Int64.toInt64_toUInt64] at h
  exact h.symm

theorem toNat_add_modEq (x y : UInt64) : ((x + y).toNat : Int) ≡ x.toNat + y.toNat [ZMOD 2 ^ 64] := by
  rw [UInt64.toNat_add, Int.ModEq]
  omega

/-- An unsigned word moved by a signed one, if it stays in range. -/
theorem toNat_add_signed {x : UInt64} {d : Int64} (h : 0 ≤ x.toNat + d.toInt ∧ x.toNat + d.toInt < 2 ^ 64) :
    ((x.toInt64 + d).toUInt64.toNat : Int) = x.toNat + d.toInt := by
  have hlt := (x.toInt64 + d).toUInt64.toNat_lt
  have hsum : (x.toInt64 + d).toInt ≡ x.toNat + d.toInt [ZMOD 2 ^ 64] := by
    rw [Int64.toInt_add]
    exact (Int.bmod_emod (m := 2 ^ 64)).trans ((toInt_toInt64_modEq x).add_right _)
  have hmod := (toNat_toUInt64_modEq (x.toInt64 + d)).trans hsum
  rw [Int.ModEq, Int.emod_eq_of_lt (by omega) (by omega), Int.emod_eq_of_lt h.1 h.2] at hmod
  exact hmod

/-- The signed word that is congruent to an integer in range is that integer. -/
theorem toInt_toInt64_of_modEq {x : UInt64} {z : Int} (h : (x.toNat : Int) ≡ z [ZMOD 2 ^ 64]) (hz : -2 ^ 63 ≤ z)
    (hz' : z < 2 ^ 63) : x.toInt64.toInt = z := by
  have hx := toInt_range x.toInt64
  have hmod := (toInt_toInt64_modEq x).trans h
  rw [Int.ModEq] at hmod
  omega

theorem toNat_add_ofNat_modEq (x : UInt64) (n : Nat) :
    ((x + UInt64.ofNat n).toNat : Int) ≡ x.toNat + n [ZMOD 2 ^ 64] := by
  rw [UInt64.toNat_add, UInt64.toNat_ofNat', Int.ModEq]
  omega

/-- Words that come together after `n` and `m` steps are `m - n` apart, read as signed ones. -/
theorem toInt_toInt64_of_add_eq {x y : UInt64} {m n : Nat} (h : x + UInt64.ofNat n = y + UInt64.ofNat m)
    (hlow : -2 ^ 63 ≤ y.toInt64.toInt + (m - n)) (hhigh : y.toInt64.toInt + (m - n) < 2 ^ 63) :
    x.toInt64.toInt = y.toInt64.toInt + (m - n) := by
  have hx := toNat_add_ofNat_modEq x n
  rw [h] at hx
  have hsum : (x.toNat : Int) + n ≡ y.toNat + m [ZMOD 2 ^ 64] := hx.symm.trans (toNat_add_ofNat_modEq y m)
  have hdiff := hsum.sub_right n
  rw [add_sub_cancel_right, add_sub_assoc] at hdiff
  exact toInt_toInt64_of_modEq (hdiff.trans ((toInt_toInt64_modEq y).symm.add_right _)) hlow hhigh

theorem toInt_mul_modEq (a b : Int64) : (a * b).toInt ≡ a.toInt * b.toInt [ZMOD 2 ^ 64] := by
  rw [Int64.toInt_mul]
  exact Int.bmod_emod (m := 2 ^ 64)

/-! ## Narrowing -/

/-- `(u32)` of an `s64`. -/
def truncU32 (d : Int64) : UInt32 := d.toUInt64.toUInt32

theorem toNat_truncU32 (d : Int64) : ((truncU32 d).toNat : Int) = d.toInt % 2 ^ 32 := by
  have hmod := toNat_toUInt64_modEq d
  rw [Int.ModEq] at hmod
  rw [truncU32, UInt64.toNat_toUInt32]
  omega

/-- A word that is not negative survives the narrowing exactly if it has 32 bits. -/
theorem toNat_truncU32_eq_iff {d : Int64} (h : 0 ≤ d.toInt) : ((truncU32 d).toNat : Int) = d.toInt ↔ d.toInt < 2 ^ 32 := by
  rw [toNat_truncU32]
  omega

/-! ## Comparisons after a wrap -/

/-- A bound of 32 bits on the computed absolute value: the least word does not reach it. -/
theorem ofU32_le_absW_iff (t : UInt32) (d : Int64) :
    ofU32 t ≤ absW d ↔ d.toInt ≠ -2 ^ 63 ∧ (t.toNat : Int) ≤ |d.toInt| := by
  rw [Int64.le_iff_toInt_le, toInt_ofU32]
  by_cases hmin : d.toInt = -2 ^ 63
  · have hd : d = Int64.minValue := Int64.toInt_inj.mp (by rw [hmin]; rfl)
    have habs : (absW d).toInt = -2 ^ 63 := by rw [hd]; rfl
    have ht : (0 : Int) ≤ t.toNat := Int.natCast_nonneg _
    rw [habs]
    constructor
    · intro h
      omega
    · intro h
      exact absurd hmin h.1
  · have hr := toInt_range d
    rw [toInt_absW (by omega)]
    exact ⟨fun h => ⟨hmin, h⟩, fun h => h.2⟩

/-- Other than by a multiple of `2^64`, a word differs from no integer it is congruent to. -/
theorem exists_wraps {d : Int64} {x : Int} (h : d.toInt ≡ x [ZMOD 2 ^ 64]) : ∃ k : Int, x = d.toInt + 2 ^ 64 * k :=
  Int.modEq_iff_add_fac.mp h

/-- A comparison of a wrapped value with a bound is the comparison of the integer exactly if the integer is not an odd
multiple of `2^63` and lies no closer than the bound to a multiple of `2^64` other than `0`. -/
theorem absW_exact_iff {t : UInt32} {d : Int64} {x : Int} (ht : 0 < t.toNat) (h : d.toInt ≡ x [ZMOD 2 ^ 64]) :
    (ofU32 t ≤ absW d ↔ (t.toNat : Int) ≤ |x|) ↔
      ¬x ≡ 2 ^ 63 [ZMOD 2 ^ 64] ∧ ∀ k : Int, k ≠ 0 → (t.toNat : Int) ≤ |x - 2 ^ 64 * k| := by
  have ht' : t.toNat < 2 ^ 32 := t.toNat_lt
  have hr := toInt_range d
  obtain ⟨k, hk⟩ := exists_wraps h
  have hmin : d.toInt = -2 ^ 63 ↔ x ≡ 2 ^ 63 [ZMOD 2 ^ 64] := by
    rw [Int.ModEq]
    constructor <;> intro h <;> omega
  rw [ofU32_le_absW_iff, ne_eq, hmin]
  by_cases hodd : x ≡ 2 ^ 63 [ZMOD 2 ^ 64]
  · have hlarge : (t.toNat : Int) ≤ |x| := by
      rw [le_abs, Int.ModEq] at *
      omega
    exact iff_of_false (fun hiff => (hiff.mpr hlarge).1 hodd) fun hcond => hcond.1 hodd
  · simp only [hodd, not_false_eq_true, true_and]
    by_cases hzero : k = 0
    · -- nothing has wrapped, and every other multiple is far away
      have hx : x = d.toInt := by rw [hk, hzero, mul_zero, add_zero]
      refine iff_of_true (by rw [hx]) fun j hj => ?_
      rw [le_abs]
      omega
    · have hlarge : (t.toNat : Int) ≤ |x| := by
        rw [le_abs]
        omega
      refine ⟨fun hiff j hj => ?_, fun hfar => ⟨fun _ => hlarge, fun _ => ?_⟩⟩
      · have hd := le_abs.mp (hiff.mpr hlarge)
        rw [le_abs]
        omega
      · have hd := hfar k hzero
        rwa [hk, add_sub_cancel_right] at hd

end MachineWord
