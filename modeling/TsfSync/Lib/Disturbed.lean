import Mathlib.Algebra.Order.Ring.Abs
import Mathlib.Data.Int.Order.Basic
import Mathlib.Tactic.Linarith
import Mathlib.Tactic.Ring

/-!
# Integers that recover from disturbances

A sequence of integers loses at least one in each step while it is above a bound, except in the steps that fail, where
it may grow by `D`. Then it is within the bound as soon as it has had the time to lose what it was above it, up to
`D + 1` for every step that failed on the way (`abs_le_of_recovers`).
-/

namespace Disturbed

variable {e : Nat → Int} {fails : Nat → Bool} {bound : Int} {D j k : Nat}

/-- One more step may fail. -/
theorem countP_range'_succ (h : j ≤ k) : (List.range' j (k + 1 - j)).countP fails =
    (List.range' j (k - j)).countP fails + if fails k then 1 else 0 := by
  have hlen : k + 1 - j = (k - j) + 1 := by omega
  have hlast : j + 1 * (k - j) = k := by omega
  rw [hlen, List.range'_concat, List.countP_append, List.countP_singleton, hlast]

/-- **What recovers from disturbances is within its bound**, up to the disturbances. -/
theorem abs_le_of_recovers (hgood : ∀ m < k, fails m = false → |e (m + 1)| ≤ max bound (|e m| - 1))
    (hbad : ∀ m < k, fails m = true → |e (m + 1)| ≤ |e m| + D) (hjk : j ≤ k) :
    |e k| ≤ max bound (|e j| - (k - j)) + (D + 1) * ((List.range' j (k - j)).countP fails : Nat) := by
  induction k, hjk using Nat.le_induction with
  | base => simp
  | succ k hjk ih =>
    have hle := ih (fun m hm => hgood m (by omega)) fun m hm => hbad m (by omega)
    rw [countP_range'_succ hjk]
    have hnonneg : (0 : Int) ≤ (D + 1) * ((List.range' j (k - j)).countP fails : Nat) :=
      mul_nonneg (by omega) (by omega)
    cases hfails : fails k with
    | false =>
      have hstep := hgood k (by omega) hfails
      simp only [Bool.false_eq_true, if_false, Nat.add_zero]
      push_cast
      omega
    | true =>
      have hstep := hbad k (by omega) hfails
      simp only [if_true]
      push_cast
      rw [mul_add]
      omega

end Disturbed
