import Mathlib.Algebra.Order.Ring.Abs
import Mathlib.Data.Int.Order.Basic
import Mathlib.Tactic.Linarith

/-!
# Integers that approach zero

A sequence of integers each of whose terms lies strictly between its predecessor and `0`, or on `0` (`Approaches`), gets
smaller in every step until it is `0`, keeps its sign, is `0` after as many steps as its first term is large, and stays
there (`converges_of_approaches`).
-/

namespace Approach

/-- From `e` to `e'` towards zero, at least by one and not past it. -/
def Approaches (e e' : Int) : Prop := (0 < e → 0 ≤ e' ∧ e' < e) ∧ (e < 0 → e < e' ∧ e' ≤ 0) ∧ (e = 0 → e' = 0)

/-- The first `n` steps of a sequence lead to zero, within as many steps as its first term is large. -/
structure Converges (e : Nat → Int) (n : Nat) : Prop where
  decreases : ∀ k < n, e k ≠ 0 → |e (k + 1)| < |e k|
  sign : ∀ k ≤ n, e k ≠ 0 → (e k).sign = (e 0).sign
  reaches : ∀ k ≤ n, |e 0| ≤ k → e k = 0
  stays : ∀ j k, j ≤ k → k ≤ n → e j = 0 → e k = 0

variable {e : Nat → Int} {n : Nat}

theorem Approaches.abs_lt {e e' : Int} (h : Approaches e e') (hne : e ≠ 0) : |e'| < |e| := by
  obtain ⟨hpos, hneg, -⟩ := h
  rcases Int.lt_or_gt_of_ne hne with hlt | hgt
  · have := hneg hlt
    rw [abs_of_neg hlt, abs_of_nonpos this.2]
    omega
  · have := hpos hgt
    rw [abs_of_pos hgt, abs_of_nonneg this.1]
    omega

theorem Approaches.abs_le {e e' : Int} (h : Approaches e e') : |e'| ≤ |e| := by
  by_cases hne : e = 0
  · rw [h.2.2 hne, hne]
  · exact le_of_lt (h.abs_lt hne)

theorem Approaches.sign_eq {e e' : Int} (h : Approaches e e') (hne : e' ≠ 0) : e'.sign = e.sign ∧ e ≠ 0 := by
  obtain ⟨hpos, hneg, hzero⟩ := h
  rcases Int.lt_trichotomy e 0 with hlt | heq | hgt
  · have := hneg hlt
    rw [Int.sign_eq_neg_one_of_neg hlt, Int.sign_eq_neg_one_of_neg (by omega)]
    omega
  · exact absurd (hzero heq) hne
  · have := hpos hgt
    rw [Int.sign_eq_one_of_pos hgt, Int.sign_eq_one_of_pos (by omega)]
    omega

/-- After `k` steps a term is `0` or at least `k` smaller than the first. -/
theorem zero_or_abs_le (h : ∀ k < n, Approaches (e k) (e (k + 1))) {k : Nat} (hk : k ≤ n) :
    e k = 0 ∨ |e k| + k ≤ |e 0| := by
  induction k with
  | zero => exact Or.inr (by simp)
  | succ k ih =>
    have hstep := h k (by omega)
    rcases ih (by omega) with hzero | hle
    · exact Or.inl (hstep.2.2 hzero)
    · by_cases hne : e k = 0
      · exact Or.inl (hstep.2.2 hne)
      · have hlt := hstep.abs_lt hne
        exact Or.inr (by omega)

theorem sign_of_approaches (h : ∀ k < n, Approaches (e k) (e (k + 1))) {k : Nat} (hk : k ≤ n) (hne : e k ≠ 0) :
    (e k).sign = (e 0).sign := by
  induction k with
  | zero => rfl
  | succ k ih =>
    obtain ⟨hsign, hne'⟩ := (h k (by omega)).sign_eq hne
    rw [hsign, ih (by omega) hne']

theorem zero_of_approaches (h : ∀ k < n, Approaches (e k) (e (k + 1))) {j k : Nat} (hjk : j ≤ k) (hk : k ≤ n)
    (hzero : e j = 0) : e k = 0 := by
  induction k, hjk using Nat.le_induction with
  | base => exact hzero
  | succ k hjk ih => exact (h k (by omega)).2.2 (ih (by omega))

/-- **A sequence that approaches zero in every step converges to it.** -/
theorem converges_of_approaches (h : ∀ k < n, Approaches (e k) (e (k + 1))) : Converges e n where
  decreases := fun k hk hne => (h k hk).abs_lt hne
  sign := fun _ hk hne => sign_of_approaches h hk hne
  reaches := fun k hk hle => by
    rcases zero_or_abs_le h hk with hzero | hsmall
    · exact hzero
    · exact abs_eq_zero.mp (le_antisymm (by omega) (abs_nonneg _))
  stays := fun _ _ hjk hk hzero => zero_of_approaches h hjk hk hzero

end Approach
