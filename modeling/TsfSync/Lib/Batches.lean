import Mathlib.Data.List.Count
import Mathlib.Data.Nat.Find
import Mathlib.Logic.Function.Basic

/-!
# Observations in batches

Observations of numbered cycles are added to accumulators, and at the cycles that are due an accumulator is evaluated and
cleared. An account keeps book of what the accumulators hold, of all that was added and of the batches that were evaluated
(`Account`). The evaluations miss nothing and count nothing twice if every observation is in the batch of the first cycle
that is due and not before its own, and in no other (`Monitored`). That is so where all observations go to the accumulator
that is evaluated, in the order of the cycles (`Kept`).
-/

namespace Batching

open Function

/-- An evaluation: its cycle, the value that was evaluated, and the observations in it. -/
structure Batch (O S : Type) where
  cycle : Nat
  value : S
  seen : List O

/-- What each accumulator holds, all that was ever added, and the batches. -/
structure Account (A O S : Type) where
  holds : A → List O
  added : List O
  batches : List (Batch O S)

namespace Account

variable {A O S : Type}

/-- Nothing was added yet. -/
def empty : Account A O S := ⟨fun _ => [], [], []⟩

variable [DecidableEq A]

/-- An observation is added to an accumulator. -/
def add (a : Account A O S) (acc : A) (o : O) : Account A O S :=
  { a with holds := update a.holds acc (a.holds acc ++ [o]), added := a.added ++ [o] }

/-- An accumulator, with this value, is evaluated and cleared. -/
def evaluate (a : Account A O S) (acc : A) (cycle : Nat) (value : S) : Account A O S :=
  { a with holds := update a.holds acc [], batches := a.batches ++ [⟨cycle, value, a.holds acc⟩] }

/-- An accumulator is cleared. -/
def clear (a : Account A O S) (acc : A) : Account A O S := { a with holds := update a.holds acc [] }

variable {a : Account A O S} {acc acc' : A} {o : O} {cycle : Nat} {value : S}

@[simp] theorem holds_add : (a.add acc o).holds acc = a.holds acc ++ [o] := update_self ..

theorem holds_add_of_ne (h : acc' ≠ acc) : (a.add acc o).holds acc' = a.holds acc' := update_of_ne h ..

@[simp] theorem holds_evaluate : (a.evaluate acc cycle value).holds acc = [] := update_self ..

theorem holds_evaluate_of_ne (h : acc' ≠ acc) : (a.evaluate acc cycle value).holds acc' = a.holds acc' :=
  update_of_ne h ..

@[simp] theorem holds_clear : (a.clear acc).holds acc = [] := update_self ..

theorem holds_clear_of_ne (h : acc' ≠ acc) : (a.clear acc).holds acc' = a.holds acc' := update_of_ne h ..

end Account

/-- The first cycle that is due and not before another. -/
def FirstDue (due : Nat → Prop) (c e : Nat) : Prop := due e ∧ c ≤ e ∧ ∀ e', c ≤ e' → e' < e → ¬due e'

/-- Not before a cycle there is a first one that is due if there is any. -/
theorem exists_firstDue {due : Nat → Prop} [DecidablePred due] {c e : Nat} (he : due e) (hc : c ≤ e) :
    ∃ e' ≤ e, FirstDue due c e' := by
  have hex : ∃ e', c ≤ e' ∧ due e' := ⟨e, hc, he⟩
  refine ⟨Nat.find hex, Nat.find_min' hex ⟨hc, he⟩, (Nat.find_spec hex).2, (Nat.find_spec hex).1, ?_⟩
  intro e' hle hlt hdue
  exact Nat.find_min hex hlt ⟨hle, hdue⟩

section Monitored

variable {A O S : Type} [DecidableEq O] (due : Nat → Prop) (cycle : O → Nat) (summary : List O → S)

/-- Up to cycle `now` each due cycle has its evaluation; the value of an evaluation is the summary of its observations, and
these are all those, each as often as it was added, whose first due cycle it is. -/
structure Monitored (now : Nat) (a : Account A O S) : Prop where
  calls : ∀ e, 1 ≤ e → e ≤ now → due e → ∃ b ∈ a.batches, b.cycle = e
  value : ∀ b ∈ a.batches, due b.cycle ∧ b.value = summary b.seen
  first : ∀ b ∈ a.batches, ∀ o, FirstDue due (cycle o) b.cycle → b.seen.count o = a.added.count o
  other : ∀ b ∈ a.batches, ∀ o, ¬FirstDue due (cycle o) b.cycle → b.seen.count o = 0

/-- After cycle `now`, and within the next one: the accumulator holds what has not met a due cycle yet. -/
structure Kept (acc : A) (now : Nat) (a : Account A O S) : Prop extends Monitored due cycle summary now a where
  bound : ∀ o ∈ a.added, cycle o ≤ now + 1
  past : ∀ b ∈ a.batches, b.cycle ≤ now
  held : ∀ o, (∀ e, cycle o ≤ e → e ≤ now → ¬due e) → (a.holds acc).count o = a.added.count o
  gone : ∀ o e, cycle o ≤ e → e ≤ now → due e → (a.holds acc).count o = 0

variable {due cycle summary} {acc : A} {now : Nat} {a : Account A O S}

theorem kept_empty : Kept due cycle summary acc 0 (Account.empty : Account A O S) where
  calls := fun e h₁ h₂ _ => absurd h₁ (by omega)
  value := fun b hb => by cases hb
  first := fun b hb => by cases hb
  other := fun b hb => by cases hb
  bound := fun o ho => by cases ho
  past := fun b hb => by cases hb
  held := fun o _ => rfl
  gone := fun o e _ _ _ => rfl

variable [DecidableEq A]

/-- An observation of the cycle at hand is added. -/
theorem Kept.add (h : Kept due cycle summary acc now a) {o : O} (ho : cycle o = now + 1) :
    Kept due cycle summary acc now (a.add acc o) := by
  have hcount : ∀ {l : List O} {o'}, o' ≠ o → (l ++ [o]).count o' = l.count o' := by
    intro l o' hne
    rw [List.count_append, List.count_singleton, if_neg, Nat.add_zero]
    simpa using fun heq => hne heq.symm
  refine ⟨⟨h.calls, h.value, ?_, h.other⟩, ?_, h.past, ?_, ?_⟩
  · intro b hb o' hfirst
    have hne : o' ≠ o := by
      rintro rfl
      have := hfirst.2.1
      have := h.past b hb
      omega
    exact (h.first b hb o' hfirst).trans (hcount hne).symm
  · intro o' ho'
    rcases List.mem_append.mp ho' with hold | hnew
    · exact h.bound o' hold
    · rw [List.mem_singleton.mp hnew]
      exact Nat.le_of_eq ho
  · intro o' hnot
    have hheld := h.held o' hnot
    rw [Account.holds_add]
    show (a.holds acc ++ [o]).count o' = (a.added ++ [o]).count o'
    rw [List.count_append, List.count_append, hheld]
  · intro o' e hle hnow hdue
    have hne : o' ≠ o := by
      rintro rfl
      omega
    rw [Account.holds_add, hcount hne]
    exact h.gone o' e hle hnow hdue

omit [DecidableEq A] in
/-- A cycle that is not due ends. -/
theorem Kept.skip (h : Kept due cycle summary acc now a) (hdue : ¬due (now + 1)) :
    Kept due cycle summary acc (now + 1) a := by
  have hold : ∀ {e}, e ≤ now + 1 → due e → e ≤ now := by
    intro e he hd
    have hne : e ≠ now + 1 := fun heq => hdue (heq ▸ hd)
    omega
  refine ⟨⟨?_, h.value, h.first, h.other⟩, ?_, ?_, ?_, ?_⟩
  · intro e h₁ he hd
    exact h.calls e h₁ (hold he hd) hd
  · intro o ho
    exact Nat.le_succ_of_le (h.bound o ho)
  · intro b hb
    exact Nat.le_succ_of_le (h.past b hb)
  · intro o hnot
    apply h.held
    intro e hle hnow
    exact hnot e hle (Nat.le_succ_of_le hnow)
  · intro o e hle hnow hd
    exact h.gone o e hle (hold hnow hd) hd

/-- A due cycle ends with an evaluation. -/
theorem Kept.evaluate (h : Kept due cycle summary acc now a) (hdue : due (now + 1)) :
    Kept due cycle summary acc (now + 1) (a.evaluate acc (now + 1) (summary (a.holds acc))) := by
  have hmem : ∀ {b}, b ∈ (a.evaluate acc (now + 1) (summary (a.holds acc))).batches →
      b ∈ a.batches ∨ b = ⟨now + 1, summary (a.holds acc), a.holds acc⟩ := by
    intro b hb
    rcases List.mem_append.mp hb with hold | hnew
    · exact .inl hold
    · exact .inr (List.mem_singleton.mp hnew)
  have hlater : ∀ {o}, now + 1 < cycle o → a.added.count o = 0 := by
    intro o hlt
    rw [List.count_eq_zero]
    intro ho
    exact absurd (h.bound o ho) (Nat.not_le.mpr hlt)
  refine ⟨⟨?_, ?_, ?_, ?_⟩, ?_, ?_, ?_, ?_⟩
  · intro e h₁ he hd
    by_cases heq : e = now + 1
    · exact ⟨_, List.mem_append_right _ List.mem_cons_self, heq.symm⟩
    · obtain ⟨b, hb, hcycle⟩ := h.calls e h₁ (by omega) hd
      exact ⟨b, List.mem_append_left _ hb, hcycle⟩
  · intro b hb
    rcases hmem hb with hold | rfl
    · exact h.value b hold
    · exact ⟨hdue, rfl⟩
  · intro b hb o hfirst
    rcases hmem hb with hold | rfl
    · exact h.first b hold o hfirst
    · apply h.held
      intro e hle hnow
      exact hfirst.2.2 e hle (Nat.lt_succ_of_le hnow)
  · intro b hb o hnot
    rcases hmem hb with hold | rfl
    · exact h.other b hold o hnot
    · -- the observation has met a due cycle before, or was not made yet
      by_cases hmet : ∃ e, cycle o ≤ e ∧ e ≤ now ∧ due e
      · obtain ⟨e, hle, hnow, hd⟩ := hmet
        exact h.gone o e hle hnow hd
      · have hclear : ∀ e, cycle o ≤ e → e ≤ now → ¬due e := fun e hle hnow hd => hmet ⟨e, hle, hnow, hd⟩
        show (a.holds acc).count o = 0
        rw [h.held o hclear]
        apply hlater
        by_contra hle
        exact hnot ⟨hdue, Nat.not_lt.mp hle, fun e hce hlt => hclear e hce (Nat.le_of_lt_succ hlt)⟩
  · intro o ho
    exact Nat.le_succ_of_le (h.bound o ho)
  · intro b hb
    rcases hmem hb with hold | rfl
    · exact Nat.le_succ_of_le (h.past b hold)
    · exact Nat.le_refl _
  · intro o hnot
    rw [Account.holds_evaluate]
    have hlt : now + 1 < cycle o := by
      by_contra hle
      exact hnot (now + 1) (Nat.not_lt.mp hle) (Nat.le_refl _) hdue
    exact (hlater hlt).symm
  · intro o e _ _ _
    rw [Account.holds_evaluate]
    rfl

end Monitored

end Batching
