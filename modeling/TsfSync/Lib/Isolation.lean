import TsfSync.Lib.Threads

/-!
# A thread that runs as if it were alone

`Confined V p`: the program's steps depend on the view `V` of the state only, and do the same to equal views. Where no
other thread changes the view, it evolves as in a run of this one thread alone (`Pool.isolated`), whatever the schedule.
Confined programs compose (`confined_bind`, `confined_forM`).
-/

namespace LockProg

open Function

variable {ι σ τ L α β : Type} {V : σ → τ}

/-- The steps depend on the view only. -/
def Confined (V : σ → τ) : Prog σ L α → Prop
  | .ret _ => True
  | .act upd k => (∀ s t, V s = V t → k s = k t ∧ V (upd s) = V (upd t)) ∧ ∀ s, Confined V (k s)
  | .lock _ k => Confined V k
  | .unlock _ k => Confined V k

theorem confined_bind' {p : Prog σ L α} {f : α → Prog σ L β} (hp : Confined V p) (hf : ∀ a, Confined V (f a)) :
    Confined V (p.bind f) := by
  induction p with
  | ret a => exact hf a
  | act u k ih =>
    exact ⟨fun s t h => ⟨congrArg (Prog.bind · f) (hp.1 s t h).1, (hp.1 s t h).2⟩, fun s => ih s (hp.2 s)⟩
  | lock l k ih => exact ih hp
  | unlock l k ih => exact ih hp

/-- Confined programs compose. -/
theorem confined_bind {p : Prog σ L α} {f : α → Prog σ L β} (hp : Confined V p) (hf : ∀ a, Confined V (f a)) :
    Confined V (p >>= f) := confined_bind' hp hf

theorem confined_forM {f : α → Prog σ L PUnit} {xs : List α} (hf : ∀ x ∈ xs, Confined V (f x)) :
    Confined V (forM xs f) := by
  induction xs with
  | nil => exact trivial
  | cons x xs ih =>
    rw [List.forM_cons]
    exact confined_bind (hf x List.mem_cons_self) fun _ => ih fun y hy => hf y (List.mem_cons_of_mem _ hy)

/-- A look at the view. -/
theorem confined_read {g : σ → α} (hg : ∀ s t, V s = V t → g s = g t) : Confined V (Prog.read g : Prog σ L α) :=
  ⟨fun s t h => ⟨congrArg Prog.ret (hg s t h), h⟩, fun _ => trivial⟩

/-- A change of the view. -/
theorem confined_modify {f : σ → σ} (hf : ∀ s t, V s = V t → V (f s) = V (f t)) :
    Confined V (Prog.modify f : Prog σ L Unit) :=
  ⟨fun s t h => ⟨rfl, hf s t h⟩, fun _ => trivial⟩

theorem confined_acquire (l : L) : Confined V (Prog.acquire l : Prog σ L Unit) := trivial

theorem confined_release (l : L) : Confined V (Prog.release l : Prog σ L Unit) := trivial

/-- From equal views a confined program runs alike. -/
theorem Confined.run {p : Prog σ L α} (hp : Confined V p) {s t : σ} (h : V s = V t) :
    (p.run s).1 = (p.run t).1 ∧ V (p.run s).2 = V (p.run t).2 := by
  induction p generalizing s t with
  | ret a => exact ⟨rfl, h⟩
  | act u k ih =>
    obtain ⟨hk, hu⟩ := hp.1 s t h
    have hrun := ih s (hp.2 s) hu
    show ((k s).run (u s)).1 = ((k t).run (u t)).1 ∧ V ((k s).run (u s)).2 = V ((k t).run (u t)).2
    rw [← hk]
    exact hrun
  | lock l k ih => exact ih hp h
  | unlock l k ih => exact ih hp h

namespace Pool

variable [DecidableEq ι] [DecidableEq L]

/-- The actions of the other threads leave the view alone, in every state that a schedule reaches. -/
def Undisturbed (V : σ → τ) (r : ι) (c : Pool ι σ L) : Prop :=
  ∀ sched c', runs sched c = some c' → ∀ i, i ≠ r → ∀ upd k, c'.prog i = .act upd k → V (upd c'.state) = V c'.state

theorem Undisturbed.step {c c' : Pool ι σ L} {r i : ι} (h : Undisturbed V r c) (hstep : c.step i = some c') :
    Undisturbed V r c' := fun sched c₁ hrun =>
  h (i :: sched) c₁ (by rw [runs, hstep]; exact hrun)

/-- After every schedule, what is left of a confined thread would, alone, bring the view where the thread alone from the
start brings it. -/
theorem isolated {r : ι} (sched : List ι) : ∀ {c c' : Pool ι σ L}, Confined V (c.prog r) → Undisturbed V r c →
    runs sched c = some c' →
    Confined V (c'.prog r) ∧ V ((c'.prog r).run c'.state).2 = V ((c.prog r).run c.state).2 := by
  induction sched with
  | nil => intro c c' hl _ h; cases h; exact ⟨hl, rfl⟩
  | cons i sched ih =>
    intro c c' hl hu h
    obtain ⟨c₁, h₁, h₂⟩ := Option.bind_eq_some_iff.mp h
    have hone : Confined V (c₁.prog r) ∧ V ((c₁.prog r).run c₁.state).2 = V ((c.prog r).run c.state).2 := by
      by_cases hi : i = r
      · -- the thread itself moves on in its run
        subst hi
        rcases step_cases h₁ with ⟨upd, k, hp, rfl⟩ | ⟨l, k, hp, -, rfl⟩ | ⟨l, k, hp, rfl⟩
        all_goals rw [hp] at hl ⊢
        · simpa using ⟨hl.2 c.state, rfl⟩
        · simpa using ⟨hl, rfl⟩
        · simpa using ⟨hl, rfl⟩
      · have hprog : c₁.prog r = c.prog r ∧ V c₁.state = V c.state := by
          rcases step_cases h₁ with ⟨upd, k, hp, rfl⟩ | ⟨l, k, hp, -, rfl⟩ | ⟨l, k, hp, rfl⟩
          · exact ⟨update_of_ne (Ne.symm hi) _ _, hu [] c rfl i hi upd k hp⟩
          · exact ⟨update_of_ne (Ne.symm hi) _ _, rfl⟩
          · exact ⟨update_of_ne (Ne.symm hi) _ _, rfl⟩
        rw [hprog.1]
        exact ⟨hl, (hl.run hprog.2).2⟩
    obtain ⟨hl', hv⟩ := ih hone.1 (hu.step h₁) h₂
    exact ⟨hl', hv.trans hone.2⟩

/-- A confined thread that has ended has done to the view what it does alone. -/
theorem isolated_end {r : ι} {sched : List ι} {c c' : Pool ι σ L} (hl : Confined V (c.prog r)) (hu : Undisturbed V r c)
    (hrun : runs sched c = some c') (hret : c'.prog r = .ret ()) : V c'.state = V ((c.prog r).run c.state).2 := by
  have h := (isolated sched hl hu hrun).2
  rw [hret] at h
  exact h

end Pool

end LockProg
