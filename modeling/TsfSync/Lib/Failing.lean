import Mathlib.Control.Basic

/-!
# Runs that change a state and may fail

In `ExceptT ε (StateM σ)` a sequence goes on from the result and the state of its first part (`bind_ok`) or stops with
its error, the state as the first part left it (`bind_error`); a second part that keeps the state adds nothing to it
(`snd_bind`). `Ensures P x Q E` is the triple of such a run, with a postcondition for each way it ends, and
`Preserves P x` the invariance of `P`.
-/

namespace FailingRun

variable {ε σ α β : Type} {x : ExceptT ε (StateM σ) α} {f : α → ExceptT ε (StateM σ) β} {s s' : σ}

theorem bind_ok {a : α} (hx : x s = (.ok a, s')) : (x >>= f) s = f a s' := by
  show (match x s with | (r, s₁) => ExceptT.bindCont f r s₁) = _
  rw [hx]
  rfl

theorem bind_error {e : ε} (hx : x s = (.error e, s')) : (x >>= f) s = (.error e, s') := by
  show (match x s with | (r, s₁) => ExceptT.bindCont f r s₁) = _
  rw [hx]
  rfl

/-- A run that succeeds succeeds step by step. -/
theorem of_bind_eq_ok {b : β} (h : (x >>= f) s = (.ok b, s')) : ∃ a s₁, x s = (.ok a, s₁) ∧ f a s₁ = (.ok b, s') := by
  rcases hx : x s with ⟨r, s₁⟩
  cases r with
  | ok a => exact ⟨a, s₁, rfl, (bind_ok hx).symm.trans h⟩
  | error e =>
    rw [bind_error hx] at h
    cases h

/-- Where the second part leaves the state, a sequence changes it as its first part does. -/
theorem snd_bind (hf : ∀ a s₁, (f a s₁).2 = s₁) (s : σ) : ((x >>= f) s).2 = (x s).2 := by
  rcases hx : x s with ⟨r, s₁⟩
  cases r with
  | ok a => exact (congrArg Prod.snd (bind_ok hx)).trans (hf a s₁)
  | error e => exact congrArg Prod.snd (bind_error hx)

/-! ## Triples -/

/-- From a state in `P`, a run that succeeds ends in `Q` of its result, and one that fails in `E`. -/
def Ensures (P : σ → Prop) (x : ExceptT ε (StateM σ) α) (Q : α → σ → Prop) (E : σ → Prop) : Prop :=
  ∀ s, P s → (∀ a s', x s = (.ok a, s') → Q a s') ∧ ∀ e s', x s = (.error e, s') → E s'

section Ensures

variable {P P' : σ → Prop} {Q : α → σ → Prop} {R : β → σ → Prop} {E E' : σ → Prop}

/-- A run that always succeeds. -/
theorem ensures_of_ok (h : ∀ s, P s → ∃ a s', x s = (.ok a, s') ∧ Q a s') : Ensures P x Q E := by
  intro s hs
  obtain ⟨a, s', hx, hq⟩ := h s hs
  constructor
  · intro a' s'' hrun
    cases hx.symm.trans hrun
    exact hq
  · intro e s'' hrun
    cases hx.symm.trans hrun

theorem ensures_pure {a : α} (h : ∀ s, P s → Q a s) : Ensures P (pure a : ExceptT ε (StateM σ) α) Q E :=
  ensures_of_ok fun s hs => ⟨a, s, rfl, h s hs⟩

theorem ensures_throw {e : ε} (h : ∀ s, P s → E s) : Ensures P (throw e : ExceptT ε (StateM σ) α) Q E := by
  intro s hs
  constructor
  · intro a s' hrun
    cases hrun
  · intro e' s' hrun
    cases hrun
    exact h s hs

theorem Ensures.bind (hx : Ensures P x Q E) (hf : ∀ a, Ensures (Q a) (f a) R E) : Ensures P (x >>= f) R E := by
  intro s hs
  rcases hrun : x s with ⟨r, s₁⟩
  cases r with
  | ok a =>
    rw [bind_ok hrun]
    exact hf a s₁ ((hx s hs).1 a s₁ hrun)
  | error e =>
    rw [bind_error hrun]
    constructor
    · intro b s' h
      cases h
    · intro e' s' h
      cases h
      exact (hx s hs).2 e s₁ hrun

/-- However the run ends, it ends in `P` if it begins there. -/
def Preserves (P : σ → Prop) (x : ExceptT ε (StateM σ) α) : Prop := Ensures P x (fun _ => P) P

theorem Preserves.bind (hx : Preserves P x) (hf : ∀ a, Preserves P (f a)) : Preserves P (x >>= f) := Ensures.bind hx hf

end Ensures

end FailingRun
