import Mathlib.Data.List.Basic

/-!
# Retry loops

A loop that calls the system until a result is not one to try again after (`retry`), over the results that the calls
give. It ends at the first such result (`retry_eq_some_iff`), so two tests that differ there make different loops, and
others the same (`retry_eq_iff`).
-/

namespace Retry

variable {α : Type} {again again' : α → Bool}

/-- The first result that is not one to try again after, with the results that are left; none if they run out. -/
def retry (again : α → Bool) : List α → Option (α × List α)
  | [] => none
  | r :: rs => if again r then retry again rs else some (r, rs)

theorem retry_cons_of_again {r : α} (h : again r = true) (rs : List α) : retry again (r :: rs) = retry again rs := by
  rw [retry, if_pos h]

theorem retry_cons_of_done {r : α} (h : again r = false) (rs : List α) : retry again (r :: rs) = some (r, rs) := by
  rw [retry, h]
  exact if_neg Bool.false_ne_true

/-- A loop ends at the first result that is not one to try again after. -/
theorem retry_eq_some_iff {rs rest : List α} {r : α} : retry again rs = some (r, rest) ↔
    ∃ front, rs = front ++ r :: rest ∧ (∀ x ∈ front, again x = true) ∧ again r = false := by
  induction rs with
  | nil => simp [retry]
  | cons x xs ih =>
    cases hx : again x with
    | true =>
      rw [retry_cons_of_again hx, ih]
      constructor
      · rintro ⟨front, hsplit, hfront, hr⟩
        exact ⟨x :: front, by rw [hsplit, List.cons_append], List.forall_mem_cons.mpr ⟨hx, hfront⟩, hr⟩
      · rintro ⟨front, hsplit, hfront, hr⟩
        cases front with
        | nil =>
          obtain ⟨rfl, -⟩ := List.cons.inj hsplit
          rw [hx] at hr
          cases hr
        | cons y front =>
          exact ⟨front, (List.cons.inj hsplit).2, fun z hz => hfront z (List.mem_cons_of_mem _ hz), hr⟩
    | false =>
      rw [retry_cons_of_done hx, Option.some.injEq, Prod.mk.injEq]
      constructor
      · rintro ⟨rfl, rfl⟩
        exact ⟨[], rfl, fun _ h => absurd h List.not_mem_nil, hx⟩
      · rintro ⟨front, hsplit, hfront, -⟩
        cases front with
        | nil => exact List.cons.inj hsplit
        | cons y front =>
          obtain ⟨rfl, -⟩ := List.cons.inj hsplit
          rw [hfront x List.mem_cons_self] at hx
          cases hx

theorem length_lt_of_retry {rs rest : List α} {r : α} (h : retry again rs = some (r, rest)) :
    rest.length < rs.length := by
  obtain ⟨front, rfl, -, -⟩ := retry_eq_some_iff.mp h
  simp only [List.length_append, List.length_cons]
  omega

/-- Two loops are the same exactly if their tests agree on the first result that does not make both try again. -/
theorem retry_eq_iff (rs : List α) : retry again rs = retry again' rs ↔
    ∀ r ∈ (rs.dropWhile fun r => again r && again' r).head?, again r = again' r := by
  induction rs with
  | nil => exact iff_of_true rfl fun r hr => by cases hr
  | cons x xs ih =>
    cases hx : again x <;> cases hx' : again' x
    · rw [retry_cons_of_done hx, retry_cons_of_done hx', List.dropWhile_cons_of_neg (by simp [hx])]
      simp [hx, hx']
    · -- the first loop ends here, the second one later
      rw [retry_cons_of_done hx, retry_cons_of_again hx', List.dropWhile_cons_of_neg (by simp [hx])]
      refine iff_of_false (fun h => ?_) (by simp [hx, hx'])
      have hlt := length_lt_of_retry h.symm
      omega
    · rw [retry_cons_of_again hx, retry_cons_of_done hx', List.dropWhile_cons_of_neg (by simp [hx'])]
      refine iff_of_false (fun h => ?_) (by simp [hx, hx'])
      have hlt := length_lt_of_retry h
      omega
    · rw [retry_cons_of_again hx, retry_cons_of_again hx', List.dropWhile_cons_of_pos (by simp [hx, hx']), ih]

end Retry
