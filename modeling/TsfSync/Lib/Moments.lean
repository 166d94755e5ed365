import Mathlib.Algebra.BigOperators.Group.List.Basic
import Mathlib.Algebra.Order.Field.Basic
import Mathlib.Tactic.FieldSimp
import Mathlib.Tactic.LinearCombination
import Mathlib.Tactic.Positivity
import Mathlib.Tactic.Ring

/-!
# Running moments and maxima

A mean and a second moment that are kept while values come in one by one: with the `n`-th value `x` the mean moves by
`(x - mean) / n`, and `(x - mean) * (x - mean')` is added to the second moment. After some values the second moment is the
sum of their squares less what their mean accounts for (`Tracks.m2_eq`), so it measures their spread
(`Tracks.m2_eq_deviations`) and is the sum of their squares only if they sum up to `0` (`Tracks.m2_eq_iff`). The order in
which the values come does not matter, neither for the moments (`Tracks.perm`) nor for the largest absolute value
(`largest_perm`).
-/

namespace RunningMoments

section Moments

variable {K : Type} [Field K] [LinearOrder K] [IsStrictOrderedRing K]

/-- The mean and the second moment after some values. -/
structure Tracks (xs : List K) (mean m2 : K) : Prop where
  mean_mul : mean * xs.length = xs.sum
  m2_eq : m2 = (xs.map (· ^ 2)).sum - xs.sum * mean
  nonneg : 0 ≤ m2

omit [IsStrictOrderedRing K] in
theorem tracks_nil : Tracks ([] : List K) 0 0 := ⟨by simp, by simp, le_refl 0⟩

variable {xs ys : List K} {mean mean' m2 m2' : K}

/-- The moments with one value more. -/
theorem Tracks.step (h : Tracks xs mean m2) (x : K) : Tracks (xs ++ [x]) (mean + (x - mean) / (xs.length + 1))
    (m2 + (x - mean) * (x - (mean + (x - mean) / (xs.length + 1)))) := by
  have hpos : (0 : K) < xs.length + 1 := by positivity
  have hmove : (x - mean) / (xs.length + 1) * (xs.length + 1) = x - mean := div_mul_cancel₀ _ hpos.ne'
  generalize hd : (x - mean) / (xs.length + 1) = d at hmove ⊢
  have hmean := h.mean_mul
  refine ⟨?_, ?_, ?_⟩
  · rw [List.length_append, List.length_singleton, List.sum_append, List.sum_singleton, Nat.cast_add, Nat.cast_one]
    linear_combination hmean + hmove
  · rw [List.map_append, List.sum_append, List.sum_append, List.map_singleton, List.sum_singleton,
      List.sum_singleton, h.m2_eq]
    -- the mean moves by `d`, and `n * d` is what `x` is away from the new mean
    linear_combination mean * hmove - d * hmean
  · have hadd : (x - mean) * (x - (mean + d)) = xs.length * (xs.length + 1) * d ^ 2 := by
      linear_combination (-(x - mean) - (xs.length + 1) * d + d) * hmove
    rw [hadd]
    have := h.nonneg
    positivity

/-- The second moment is the sum of the squares only if the values sum up to `0`. -/
theorem Tracks.m2_eq_iff (h : Tracks xs mean m2) : m2 = (xs.map (· ^ 2)).sum ↔ xs.sum = 0 := by
  rw [h.m2_eq, sub_eq_self, mul_eq_zero]
  constructor
  · rintro (hsum | hmean)
    · exact hsum
    · rw [← h.mean_mul, hmean, zero_mul]
  · exact .inl

/-! ## What the moments are -/

omit [LinearOrder K] [IsStrictOrderedRing K] in
/-- The squared deviations from any number. -/
theorem sum_sq_sub (xs : List K) (c : K) : (xs.map fun x => (x - c) ^ 2).sum =
    (xs.map (· ^ 2)).sum - 2 * c * xs.sum + xs.length * c ^ 2 := by
  induction xs with
  | nil => simp
  | cons x xs ih =>
    rw [List.map_cons, List.sum_cons, ih, List.map_cons, List.sum_cons, List.sum_cons, List.length_cons, Nat.cast_add,
      Nat.cast_one]
    ring

omit [IsStrictOrderedRing K] in
/-- The second moment is the sum of the squared deviations from the mean. -/
theorem Tracks.m2_eq_deviations (h : Tracks xs mean m2) : m2 = (xs.map fun x => (x - mean) ^ 2).sum := by
  rw [sum_sq_sub, h.m2_eq]
  linear_combination -mean * h.mean_mul

/-- The mean is the arithmetic mean. -/
theorem Tracks.mean_eq (h : Tracks xs mean m2) (hne : xs ≠ []) : mean = xs.sum / xs.length := by
  have hlen : (xs.length : K) ≠ 0 := Nat.cast_ne_zero.mpr fun hzero => hne (List.length_eq_zero_iff.mp hzero)
  exact eq_div_of_mul_eq hlen h.mean_mul

/-- The moments do not depend on the order of the values. -/
theorem Tracks.perm (h : Tracks xs mean m2) (h' : Tracks ys mean' m2') (hne : xs ≠ []) (hperm : xs.Perm ys) :
    mean = mean' ∧ m2 = m2' := by
  have hne' : ys ≠ [] := by
    rintro rfl
    exact hne hperm.eq_nil
  have hmean : mean = mean' := by rw [h.mean_eq hne, h'.mean_eq hne', hperm.sum_eq, hperm.length_eq]
  refine ⟨hmean, ?_⟩
  rw [h.m2_eq, h'.m2_eq, hmean, hperm.sum_eq, (hperm.map _).sum_eq]

end Moments

/-! ## The largest absolute value -/

section Largest

variable {K : Type} [AddGroup K] [LinearOrder K] {xs ys : List K}

/-- The largest absolute value, 0 where there is none. -/
def largest (xs : List K) : K := (0 :: xs.map (|·|)).max (List.cons_ne_nil _ _)

theorem largest_le_iff {m : K} : largest xs ≤ m ↔ 0 ≤ m ∧ ∀ x ∈ xs, |x| ≤ m := by
  rw [largest, List.max_le_iff, List.forall_mem_cons, List.forall_mem_map]

theorem largest_nonneg : 0 ≤ largest xs := (largest_le_iff.mp le_rfl).1

theorem abs_le_largest {x : K} (h : x ∈ xs) : |x| ≤ largest xs := (largest_le_iff.mp le_rfl).2 x h

theorem largest_perm (h : xs.Perm ys) : largest xs = largest ys :=
  eq_of_forall_ge_iff fun m => by simp only [largest_le_iff, h.mem_iff]

theorem largest_append (xs : List K) (x : K) : largest (xs ++ [x]) = max (largest xs) |x| :=
  eq_of_forall_ge_iff fun m => by
    rw [largest_le_iff, max_le_iff, largest_le_iff, List.forall_mem_append, List.forall_mem_singleton, and_assoc]

end Largest

end RunningMoments
