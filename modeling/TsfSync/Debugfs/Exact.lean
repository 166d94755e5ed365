import Mathlib.Analysis.Real.Sqrt
import Mathlib.Data.Rat.Sqrt
import TsfSync.Debugfs.Control

/-!
# Exact arithmetic

What the controller and the statistics compute when nothing is rounded, with the rationals in place of `f64`, or with the
reals where a root is taken. The two have in common that their values stand for numbers of a field (`Exact`).
-/

namespace TsfSync.Debugfs

/-- The reals in place of `f64`; `as` goes toward zero and saturates. -/
noncomputable instance exactArithmetic : F64 ℝ where
  lit n := n
  ofI64 x := x.toInt
  ofU64 x := x.toNat
  toI64 x := Int64.ofInt (max (-2 ^ 63) (min (if 0 ≤ x then ⌊x⌋ else ⌈x⌉) (2 ^ 63 - 1)))
  toU64 x := UInt64.ofNat (min ⌊x⌋₊ (2 ^ 64 - 1))
  sqrt := Real.sqrt
  gt a b := decide (b < a)

/-- The rationals in place of `f64`; `as` goes toward zero and saturates, and the root is that of a square. -/
instance rationalArithmetic : F64 ℚ where
  lit n := n
  ofI64 x := x.toInt
  ofU64 x := x.toNat
  toI64 x := Int64.ofInt (max (-2 ^ 63) (min (if 0 ≤ x then ⌊x⌋ else ⌈x⌉) (2 ^ 63 - 1)))
  toU64 x := UInt64.ofNat (min ⌊x⌋₊ (2 ^ 64 - 1))
  sqrt := Rat.sqrt
  gt a b := decide (b < a)

/-- No operation rounds: the values stand for numbers, and the operations are those of the numbers. -/
structure Exact {F K : Type} [F64 F] [Field K] (value : F → K) : Prop where
  lit (n : Nat) : value (F64.lit n) = n
  ofI64 (x : Int64) : value (F64.ofI64 x) = x.toInt
  ofU64 (x : UInt64) : value (F64.ofU64 x) = x.toNat
  add (a b : F) : value (a + b) = value a + value b
  sub (a b : F) : value (a - b) = value a - value b
  mul (a b : F) : value (a * b) = value a * value b
  div (a b : F) : value (a / b) = value a / value b

theorem exact_real : Exact (id : ℝ → ℝ) :=
  ⟨fun _ => rfl, fun _ => rfl, fun _ => rfl, fun _ _ => rfl, fun _ _ => rfl, fun _ _ => rfl, fun _ _ => rfl⟩

theorem exact_rat : Exact (id : ℚ → ℚ) :=
  ⟨fun _ => rfl, fun _ => rfl, fun _ => rfl, fun _ _ => rfl, fun _ _ => rfl, fun _ _ => rfl, fun _ _ => rfl⟩

/-- `as i64` does not leave an interval of words around `0`. -/
theorem toI64_between {x : ℚ} {low high : Int} (hlow : -2 ^ 63 ≤ low ∧ low ≤ 0) (hhigh : 0 ≤ high ∧ high < 2 ^ 63)
    (hx : (low : ℚ) ≤ x ∧ x ≤ high) : low ≤ (F64.toI64 x).toInt ∧ (F64.toI64 x).toInt ≤ high := by
  have hround : low ≤ (if 0 ≤ x then ⌊x⌋ else ⌈x⌉) ∧ (if 0 ≤ x then ⌊x⌋ else ⌈x⌉) ≤ high := by
    split
    · rename_i hpos
      exact ⟨hlow.2.trans (Int.floor_nonneg.mpr hpos), Int.cast_le.mp ((Int.floor_le x).trans hx.2)⟩
    · rename_i hneg
      have hceil : ⌈x⌉ ≤ 0 := Int.ceil_le.mpr (by rw [Int.cast_zero]; exact (not_le.mp hneg).le)
      exact ⟨Int.cast_le.mp (hx.1.trans (Int.le_ceil x)), hceil.trans hhigh.1⟩
  show low ≤ (Int64.ofInt (max (-2 ^ 63) (min (if 0 ≤ x then ⌊x⌋ else ⌈x⌉) (2 ^ 63 - 1)))).toInt ∧
    (Int64.ofInt (max (-2 ^ 63) (min (if 0 ≤ x then ⌊x⌋ else ⌈x⌉) (2 ^ 63 - 1)))).toInt ≤ high
  generalize (if 0 ≤ x then ⌊x⌋ else ⌈x⌉) = rounded at hround ⊢
  -- nothing saturates within the range of the words
  have hword : (Int64.ofInt (max (-2 ^ 63) (min rounded (2 ^ 63 - 1)))).toInt = rounded := by
    rw [Int64.toInt_ofInt_of_le (by omega) (by omega)]
    omega
  rw [hword]
  exact hround

end TsfSync.Debugfs
