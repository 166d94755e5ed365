import TsfSync.Lib.Prog

/-!
# What a program leaves alone

`Frames f p`: no action of the program changes `f` of the state, whatever the state is when the action comes. So neither
a run alone (`Frames.run`) nor the steps among other threads do. Frames compose (`frames_bind`, `frames_forM`).
-/

namespace LockProg

variable {σ L α β γ : Type}

/-- No action of the program changes `f` of the state. -/
def Frames (f : σ → γ) : Prog σ L α → Prop
  | .ret _ => True
  | .act upd k => ∀ s, f (upd s) = f s ∧ Frames f (k s)
  | .lock _ k => Frames f k
  | .unlock _ k => Frames f k

variable {f : σ → γ}

theorem frames_bind' {p : Prog σ L α} {g : α → Prog σ L β} (hp : Frames f p) (hg : ∀ a, Frames f (g a)) :
    Frames f (p.bind g) := by
  induction p with
  | ret a => exact hg a
  | act u k ih => exact fun s => ⟨(hp s).1, ih s (hp s).2⟩
  | lock l k ih => exact ih hp
  | unlock l k ih => exact ih hp

/-- A sequence leaves alone what its parts do. -/
theorem frames_bind {p : Prog σ L α} {g : α → Prog σ L β} (hp : Frames f p) (hg : ∀ a, Frames f (g a)) :
    Frames f (p >>= g) := frames_bind' hp hg

theorem frames_read_bind {r : σ → α} {g : α → Prog σ L β} (hg : ∀ a, Frames f (g a)) : Frames f (Prog.read r >>= g) :=
  fun s => ⟨rfl, hg (r s)⟩

theorem frames_modify_bind {u : σ → σ} {g : Unit → Prog σ L β} (hu : ∀ s, f (u s) = f s) (hg : Frames f (g ())) :
    Frames f (Prog.modify u >>= g) := fun s => ⟨hu s, hg⟩

theorem frames_modify {u : σ → σ} (hu : ∀ s, f (u s) = f s) : Frames f (Prog.modify u : Prog σ L Unit) :=
  fun s => ⟨hu s, trivial⟩

theorem frames_acquire_bind {l : L} {g : Unit → Prog σ L β} (hg : Frames f (g ())) : Frames f (Prog.acquire l >>= g) := hg

theorem frames_release_bind {l : L} {g : Unit → Prog σ L β} (hg : Frames f (g ())) : Frames f (Prog.release l >>= g) := hg

theorem frames_forM {g : α → Prog σ L PUnit} {xs : List α} (hg : ∀ x ∈ xs, Frames f (g x)) : Frames f (forM xs g) := by
  induction xs with
  | nil => exact trivial
  | cons x xs ih =>
    rw [List.forM_cons]
    exact frames_bind (hg x List.mem_cons_self) fun _ => ih fun y hy => hg y (List.mem_cons_of_mem _ hy)

/-- A run leaves alone what the program does. -/
theorem Frames.run {p : Prog σ L α} (h : Frames f p) (s : σ) : f (p.run s).2 = f s := by
  induction p generalizing s with
  | ret a => rfl
  | act u k ih => exact (ih s (h s).2 (u s)).trans (h s).1
  | lock l k ih => exact ih h s
  | unlock l k ih => exact ih h s

end LockProg
