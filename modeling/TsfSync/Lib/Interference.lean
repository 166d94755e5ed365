import TsfSync.Lib.Threads

/-!
# A program among the moves of others

`Wp env Q p s`: if the others make moves of `env` before each action of the program `p`, then from the state `s` it ends
with `Q`. The rules follow the program (`wp_bind`, `wp_forM`); a part whose own actions are moves of `env`, too, only
moves on (`Moves.wp`). In a pool where the actions of all other threads are moves of `env`, the thread with the program
ends with `Q` under every schedule, up to moves that come after (`Pool.wp_end`).
-/

namespace LockProg

open Function

variable {ι σ τ L α β : Type} {env : σ → σ → Prop}

/-- Among moves of the others the program ends with `Q`. -/
def Wp (env : σ → σ → Prop) (Q : α → σ → Prop) : Prog σ L α → σ → Prop
  | .ret a, s => Q a s
  | .act upd k, s => ∀ s', env s s' → Wp env Q (k s') (upd s')
  | .lock _ k, s => Wp env Q k s
  | .unlock _ k, s => Wp env Q k s

/-- Every action is a move of `env`. -/
def Moves (env : σ → σ → Prop) : Prog σ L α → Prop
  | .ret _ => True
  | .act upd k => ∀ s, env s (upd s) ∧ Moves env (k s)
  | .lock _ k => Moves env k
  | .unlock _ k => Moves env k

/-! ## Rules -/

section Rules

variable {Q Q' : α → σ → Prop} {s : σ}

theorem Wp.mono {p : Prog σ L α} (h : Wp env Q p s) (hQ : ∀ a s, Q a s → Q' a s) : Wp env Q' p s := by
  induction p generalizing s with
  | ret a => exact hQ a s h
  | act upd k ih => exact fun s' hs => ih s' (h s' hs)
  | lock l k ih => exact ih h
  | unlock l k ih => exact ih h

theorem wp_bind' {p : Prog σ L β} {f : β → Prog σ L α} (h : Wp env (fun b s => Wp env Q (f b) s) p s) :
    Wp env Q (p.bind f) s := by
  induction p generalizing s with
  | ret b => exact h
  | act upd k ih => exact fun s' hs => ih s' (h s' hs)
  | lock l k ih => exact ih h
  | unlock l k ih => exact ih h

/-- A part and then the rest. -/
theorem wp_bind {p : Prog σ L β} {f : β → Prog σ L α} (h : Wp env (fun b s => Wp env Q (f b) s) p s) :
    Wp env Q (p >>= f) s := wp_bind' h

/-- A loop, with what is known after the rounds so far. -/
theorem wp_forM {f : β → Prog σ L PUnit} (I : List β → σ → Prop) {xs : List β}
    (h : ∀ done x rest, xs = done ++ x :: rest → ∀ s, I done s → Wp env (fun _ => I (done ++ [x])) (f x) s)
    (hs : I [] s) : Wp env (fun _ => I xs) (forM xs f) s := by
  have key : ∀ rest done s, xs = done ++ rest → I done s → Wp env (fun _ => I xs) (forM rest f) s := by
    intro rest
    induction rest with
    | nil =>
      intro done s hxs hI
      rw [List.append_nil] at hxs
      exact hxs ▸ hI
    | cons x rest ih =>
      intro done s hxs hI
      rw [List.forM_cons]
      apply wp_bind
      apply (h done x rest hxs s hI).mono
      intro _ s' hI'
      exact ih (done ++ [x]) s' (by rw [hxs, List.append_assoc]; rfl) hI'
  exact key xs [] s rfl hs

end Rules

/-! ## Programs that only make moves -/

theorem moves_bind' {p : Prog σ L β} {f : β → Prog σ L α} (hp : Moves env p) (hf : ∀ b, Moves env (f b)) :
    Moves env (p.bind f) := by
  induction p with
  | ret b => exact hf b
  | act upd k ih => exact fun s => ⟨(hp s).1, ih s (hp s).2⟩
  | lock l k ih => exact ih hp
  | unlock l k ih => exact ih hp

theorem moves_bind {p : Prog σ L β} {f : β → Prog σ L α} (hp : Moves env p) (hf : ∀ b, Moves env (f b)) :
    Moves env (p >>= f) := moves_bind' hp hf

theorem moves_forM {f : β → Prog σ L PUnit} {xs : List β} (hf : ∀ x ∈ xs, Moves env (f x)) :
    Moves env (forM xs f) := by
  induction xs with
  | nil => exact trivial
  | cons x xs ih =>
    rw [List.forM_cons]
    exact moves_bind (hf x List.mem_cons_self) fun _ => ih fun y hy => hf y (List.mem_cons_of_mem _ hy)

theorem Moves.wp [IsTrans σ env] {p : Prog σ L α} (hp : Moves env p) {s₀ s : σ} (hs : env s₀ s) :
    Wp env (fun _ s' => env s₀ s') p s := by
  induction p generalizing s with
  | ret a => exact hs
  | act upd k ih =>
    intro s' h
    have hmoved : env s₀ (upd s') := IsTrans.trans _ _ _ (IsTrans.trans _ _ _ hs h) (hp s').1
    exact ih s' (hp s').2 hmoved
  | lock l k ih => exact ih hp hs
  | unlock l k ih => exact ih hp hs

/-! ## Programs besides other state -/

section Besides

variable {env : σ × τ → σ × τ → Prop} {Q : α → σ × τ → Prop} {s : σ × τ}

theorem wp_besides_bind {p : Prog σ L β} {f : β → Prog σ L α}
    (h : Wp env (fun b s => Wp env Q (f b).besides s) (Prog.besides p) s) : Wp env Q (Prog.besides (p >>= f)) s := by
  rw [Prog.besides_bind]
  exact wp_bind h

theorem wp_besides_acquire {l : L} {f : Unit → Prog σ L α} (h : Wp env Q (f ()).besides s) :
    Wp env Q (Prog.besides (Prog.acquire l >>= f)) s := h

theorem wp_besides_release {l : L} {f : Unit → Prog σ L α} (h : Wp env Q (f ()).besides s) :
    Wp env Q (Prog.besides (Prog.release l >>= f)) s := h

end Besides

/-! ## Pools -/

namespace Pool

variable [DecidableEq ι] [DecidableEq L] {c c' : Pool ι σ L} {i : ι}

/-- A thread that only makes moves makes one, or none. -/
theorem step_moves [Std.Refl env] (h : c.step i = some c') (hp : Moves env (c.prog i)) :
    env c.state c'.state ∧ Moves env (c'.prog i) := by
  rcases step_cases h with ⟨upd, k, hprog, rfl⟩ | ⟨l, k, hprog, -, rfl⟩ | ⟨l, k, hprog, rfl⟩
  all_goals rw [hprog] at hp
  · exact ⟨(hp c.state).1, by simpa using (hp c.state).2⟩
  · exact ⟨Std.Refl.refl _, by simpa using (show Moves env k from hp)⟩
  · exact ⟨Std.Refl.refl _, by simpa using (show Moves env k from hp)⟩

/-- A step of the thread leads on to `Q`. -/
theorem step_wp [Std.Refl env] {Q : Unit → σ → Prop} (h : c.step i = some c') {s : σ} (hs : env s c.state)
    (hp : Wp env Q (c.prog i) s) : ∃ s', env s' c'.state ∧ Wp env Q (c'.prog i) s' := by
  rcases step_cases h with ⟨upd, k, hprog, rfl⟩ | ⟨l, k, hprog, -, rfl⟩ | ⟨l, k, hprog, rfl⟩
  all_goals rw [hprog] at hp
  · exact ⟨upd c.state, Std.Refl.refl _, by simpa using hp c.state hs⟩
  · exact ⟨s, hs, by simpa using (show Wp env Q k s from hp)⟩
  · exact ⟨s, hs, by simpa using (show Wp env Q k s from hp)⟩

variable [Std.Refl env] [IsTrans σ env] {Q : Unit → σ → Prop} {r : ι}

/-- What every schedule keeps: the other threads make moves, and what is left of the thread ends with `Q`. -/
theorem wp_runs {sched : List ι} (hmoves : ∀ j, j ≠ r → Moves env (c.prog j)) (hwp : Wp env Q (c.prog r) c.state)
    (hrun : runs sched c = some c') : ∃ s, env s c'.state ∧ Wp env Q (c'.prog r) s := by
  have hinv : ∀ {c c' : Pool ι σ L} {i : ι},
      ((∀ j, j ≠ r → Moves env (c.prog j)) ∧ ∃ s, env s c.state ∧ Wp env Q (c.prog r) s) → c.step i = some c' →
      (∀ j, j ≠ r → Moves env (c'.prog j)) ∧ ∃ s, env s c'.state ∧ Wp env Q (c'.prog r) s := by
    rintro c c' i ⟨hmoves, s, hs, hwp⟩ h
    by_cases hi : i = r
    · subst hi
      refine ⟨fun j hj => ?_, step_wp h hs hwp⟩
      rw [step_prog_ne h hj]
      exact hmoves j hj
    · obtain ⟨henv, hk⟩ := step_moves h (hmoves i hi)
      refine ⟨fun j hj => ?_, s, IsTrans.trans _ _ _ hs henv, ?_⟩
      · by_cases hji : j = i
        · exact hji ▸ hk
        · rw [step_prog_ne h hji]
          exact hmoves j hj
      · rw [step_prog_ne h (Ne.symm hi)]
        exact hwp
  exact (runs_inv hinv sched ⟨hmoves, c.state, Std.Refl.refl _, hwp⟩ hrun).2

/-- **The thread ends with `Q`**, up to moves that come after. -/
theorem wp_end {sched : List ι} (hmoves : ∀ j, j ≠ r → Moves env (c.prog j)) (hwp : Wp env Q (c.prog r) c.state)
    (hrun : runs sched c = some c') (hret : c'.prog r = .ret ()) : ∃ s, env s c'.state ∧ Q () s := by
  obtain ⟨s, hs, h⟩ := wp_runs hmoves hwp hrun
  rw [hret] at h
  exact ⟨s, hs, h⟩

end Pool

end LockProg
