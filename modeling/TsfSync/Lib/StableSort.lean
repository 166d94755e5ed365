import Mathlib.Data.List.Sort

/-!
# What a stable sort makes of the order of its input

Insertion sort by a total preorder `le`. The result depends only on what is sorted and not on its order if ties are
equal (`insertionSort_eq_of_perm`). A sort is stable, so elements of one tie come out in the order that they came in
(`filter_insertionSort`), and of two elements of a tie that lead different inputs the result tells which one did
(`eq_of_insertionSort_cons_eq`).
-/

namespace StableSort

variable {α : Type} {le : α → α → Prop} [DecidableRel le]

/-- Elements of one tie come out in the order that they came in. -/
theorem filter_insertionSort (p : α → Bool) (hp : ∀ a b, p a = true → p b = true → le a b) (l : List α) :
    (l.insertionSort le).filter p = l.filter p := by
  have hpair : (l.filter p).Pairwise le := by
    rw [List.pairwise_iff_forall_sublist]
    intro a b hab
    have ha := (List.mem_filter.mp (hab.subset List.mem_cons_self)).2
    have hb := (List.mem_filter.mp (hab.subset (List.mem_cons_of_mem _ List.mem_cons_self))).2
    exact hp a b ha hb
  have hsub : (l.filter p).Sublist ((l.insertionSort le).filter p) := by
    have := (List.sublist_insertionSort hpair List.filter_sublist).filter p
    simpa only [List.filter_filter, Bool.and_self] using this
  have hlen : (l.filter p).length = ((l.insertionSort le).filter p).length :=
    ((List.perm_insertionSort le l).filter p).length_eq.symm
  exact (hsub.eq_of_length hlen).symm

variable [Std.Total le] [IsTrans α le] {l₁ l₂ : List α} {a b : α}

/-- If ties are equal, the order of the input makes no difference. -/
theorem insertionSort_eq_of_perm (hl : l₁.Perm l₂) (ties : ∀ a ∈ l₁, ∀ b ∈ l₁, le a b → le b a → a = b) :
    l₁.insertionSort le = l₂.insertionSort le := by
  have hperm : (l₁.insertionSort le).Perm (l₂.insertionSort le) :=
    (List.perm_insertionSort le l₁).trans (hl.trans (List.perm_insertionSort le l₂).symm)
  refine hperm.eq_of_pairwise ?_ (List.pairwise_insertionSort le l₁) (List.pairwise_insertionSort le l₂)
  intro a b ha hb
  apply ties
  · exact (List.mem_insertionSort le).mp ha
  · exact hl.mem_iff.mpr ((List.mem_insertionSort le).mp hb)

/-- Which of two elements of a tie led the input shows in the result. -/
theorem eq_of_insertionSort_cons_eq (hab : le a b) (hba : le b a)
    (h : (a :: l₁).insertionSort le = (b :: l₂).insertionSort le) : a = b := by
  let p : α → Bool := fun x => decide (le a x) && decide (le x a)
  have hmem : ∀ {x}, p x = true ↔ le a x ∧ le x a := by
    intro x
    simp [p]
  have hp : ∀ x y, p x = true → p y = true → le x y := by
    intro x y hx hy
    exact IsTrans.trans x a y (hmem.mp hx).2 (hmem.mp hy).1
  have ha : p a = true := hmem.mpr ⟨(Std.Total.total a a).elim id id, (Std.Total.total a a).elim id id⟩
  have hb : p b = true := hmem.mpr ⟨hab, hba⟩
  have hfilter := congrArg (List.filter p) h
  rw [filter_insertionSort p hp, filter_insertionSort p hp, List.filter_cons_of_pos ha, List.filter_cons_of_pos hb]
    at hfilter
  exact (List.cons.inj hfilter).1

end StableSort
