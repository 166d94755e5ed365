import Mathlib.Data.List.Basic

/-!
# Runs of a step function

A system takes a step for an action, or the action is not enabled (`step : A → σ → Option σ`); a run is a list of
actions (`runs`). What every step keeps, every run keeps (`runs_inv`), and where a measure drops with every step a run
leads to a state with no step (`exists_stuck`). Where a step keeps a property exactly if it meets a condition, a run keeps
it exactly if all its steps do (`everyState_iff`).
-/

namespace StepSystem

variable {σ A : Type} {step : A → σ → Option σ}

/-- The state after a list of actions; none if one is not enabled. -/
def runs (step : A → σ → Option σ) : List A → σ → Option σ
  | [], s => some s
  | a :: as, s => (step a s).bind (runs step as)

/-- No action is enabled. -/
def Stuck (step : A → σ → Option σ) (s : σ) : Prop := ∀ a, step a s = none

theorem runs_append (as bs : List A) : ∀ s : σ, runs step (as ++ bs) s = (runs step as s).bind (runs step bs) := by
  induction as with
  | nil => exact fun _ => rfl
  | cons a as ih =>
    intro s
    rw [List.cons_append, runs, runs, Option.bind_assoc]
    exact congrArg _ (funext ih)

/-- Where nothing steps a run ends at once. -/
theorem runs_of_stuck {as : List A} {s s' : σ} (hs : Stuck step s) (h : runs step as s = some s') : s' = s := by
  cases as with
  | nil => exact (Option.some.inj h).symm
  | cons a as => rw [runs, hs a] at h; cases h

/-- A run followed by another. -/
theorem runs_trans {as bs : List A} {s s₁ s₂ : σ} (h₁ : runs step as s = some s₁) (h₂ : runs step bs s₁ = some s₂) :
    runs step (as ++ bs) s = some s₂ := by
  rw [runs_append, h₁, Option.bind_some, h₂]

/-- An invariant of the steps is one of the runs. -/
theorem runs_inv {P : σ → Prop} (hstep : ∀ a s s', P s → step a s = some s' → P s') (as : List A) :
    ∀ {s s' : σ}, P s → runs step as s = some s' → P s' := by
  induction as with
  | nil => intro s s' hs h; cases h; exact hs
  | cons a as ih =>
    intro s s' hs h
    obtain ⟨s₁, h₁, h₂⟩ := Option.bind_eq_some_iff.mp h
    exact ih (hstep a s s₁ hs h₁) h₂

/-- Where every step of a system is one of another in what it shows, so is every run. -/
theorem runs_map {τ : Type} {step' : A → τ → Option τ} {f : τ → σ}
    (hstep : ∀ a t, (step' a t).map f = step a (f t)) (as : List A) :
    ∀ t : τ, (runs step' as t).map f = runs step as (f t) := by
  induction as with
  | nil => exact fun _ => rfl
  | cons a as ih =>
    intro t
    rw [runs, runs, ← hstep a t, Option.map_bind, Option.bind_map]
    exact congrArg _ (funext ih)

/-- Every state of a run satisfies `P`. -/
def EveryState (step : A → σ → Option σ) (P : σ → Prop) : List A → σ → Prop
  | [], s => P s
  | a :: as, s => P s ∧ ∀ s', step a s = some s' → EveryState step P as s'

/-- Every step of a run meets `Q` in the state it is taken from. -/
def EveryStep (step : A → σ → Option σ) (Q : A → σ → Prop) : List A → σ → Prop
  | [], _ => True
  | a :: as, s => ∀ s', step a s = some s' → Q a s ∧ EveryStep step Q as s'

theorem EveryState.head {P : σ → Prop} {as : List A} {s : σ} (h : EveryState step P as s) : P s := by
  cases as with
  | nil => exact h
  | cons a as => exact h.1

/-- Among the states of an invariant and the actions of a kind, a run stays in `P` exactly if all its steps meet the
condition under which one step does. -/
theorem everyState_iff {I P : σ → Prop} {K : A → Prop} {Q : A → σ → Prop}
    (hinv : ∀ a s s', I s → step a s = some s' → I s')
    (hstep : ∀ a s s', I s → P s → K a → step a s = some s' → (P s' ↔ Q a s)) (as : List A) (hkind : ∀ a ∈ as, K a) :
    ∀ {s : σ}, I s → P s → (EveryState step P as s ↔ EveryStep step Q as s) := by
  induction as with
  | nil => exact fun _ hp => iff_of_true hp trivial
  | cons a as ih =>
    intro s hs hp
    obtain ⟨ha, hrest⟩ := List.forall_mem_cons.mp hkind
    constructor
    · rintro ⟨-, hall⟩ s' h
      have hp' := (hall s' h).head
      exact ⟨(hstep a s s' hs hp ha h).mp hp', (ih hrest (hinv a s s' hs h) hp').mp (hall s' h)⟩
    · intro hall
      refine ⟨hp, fun s' h => ?_⟩
      obtain ⟨hq, hsteps⟩ := hall s' h
      exact (ih hrest (hinv a s s' hs h) ((hstep a s s' hs hp ha h).mpr hq)).mpr hsteps

/-- Where a measure drops with every step, a run ends where nothing steps. -/
theorem exists_stuck {P : σ → Prop} (hstep : ∀ a s s', P s → step a s = some s' → P s') (rank : σ → Nat)
    (hrank : ∀ a s s', P s → step a s = some s' → rank s' < rank s) (s : σ) (hs : P s) :
    ∃ as s', runs step as s = some s' ∧ Stuck step s' := by
  by_cases hstuck : Stuck step s
  · exact ⟨[], s, rfl, hstuck⟩
  · obtain ⟨a, ha⟩ := not_forall.mp hstuck
    obtain ⟨s₁, h₁⟩ := Option.ne_none_iff_exists'.mp ha
    obtain ⟨as, s₂, hrun, h₂⟩ := exists_stuck hstep rank hrank s₁ (hstep a s s₁ hs h₁)
    exact ⟨a :: as, s₂, by rw [runs, h₁, Option.bind_some, hrun], h₂⟩
termination_by rank s
decreasing_by exact hrank a s s₁ hs h₁

end StepSystem
