import Mathlib.Data.List.Basic
import Mathlib.Control.Basic

/-!
# Programs with locks

A program over a shared state `σ` and locks `L` (`Prog σ L α`) is a tree of atomic actions, lock requests and
releases; the code after an action may depend on the state that the action saw. One program has two readings:

* **Alone** (`run`, `trace`): no other thread moves, so every lock is free when it is asked for. `run` gives the
  result and the final state, `trace` the locks taken and dropped.
* **Among other threads** (`Threads.lean`): the same tree, one atomic action at a time.

`run` and `trace` of a sequence are those of its parts (`run_bind`, `trace_bind`), and of a loop over a list the
fold of its body (`run_forM`, `trace_forM`).
-/

namespace LockProg

/-- A lock that is taken or dropped. -/
inductive LockOp (L : Type)
  | take (l : L)
  | drop (l : L)
  deriving DecidableEq, Repr

/-- A program over the shared state `σ` and the locks `L`. An action updates the state at once and goes on with what
it saw before the update. -/
inductive Prog (σ L α : Type) : Type
  | ret (a : α)
  | act (upd : σ → σ) (k : σ → Prog σ L α)
  | lock (l : L) (k : Prog σ L α)
  | unlock (l : L) (k : Prog σ L α)

namespace Prog

variable {σ L α β : Type}

/-- Sequencing. -/
def bind : Prog σ L α → (α → Prog σ L β) → Prog σ L β
  | ret a, f => f a
  | act u k, f => act u fun s => (k s).bind f
  | lock l k, f => lock l (k.bind f)
  | unlock l k, f => unlock l (k.bind f)

instance : Monad (Prog σ L) where
  pure := ret
  bind := bind

theorem bind_ret (p : Prog σ L α) : p.bind ret = p := by
  induction p with
  | ret a => rfl
  | act u k ih => exact congrArg (act u) (funext ih)
  | lock l k ih => exact congrArg (lock l) ih
  | unlock l k ih => exact congrArg (unlock l) ih

theorem bind_bind {γ : Type} (p : Prog σ L α) (f : α → Prog σ L β) (g : β → Prog σ L γ) :
    (p.bind f).bind g = p.bind fun a => (f a).bind g := by
  induction p with
  | ret a => rfl
  | act u k ih => exact congrArg (act u) (funext ih)
  | lock l k ih => exact congrArg (lock l) ih
  | unlock l k ih => exact congrArg (unlock l) ih

instance : LawfulMonad (Prog σ L) :=
  LawfulMonad.mk' _ bind_ret (fun _ _ => rfl) bind_bind

/-! ## The steps a program is made of -/

/-- Ask for a lock. -/
def acquire (l : L) : Prog σ L Unit := lock l (ret ())

/-- Drop a lock. -/
def release (l : L) : Prog σ L Unit := unlock l (ret ())

/-- Look at the state. -/
def read (f : σ → α) : Prog σ L α := act id fun s => ret (f s)

/-- Change the state. -/
def modify (f : σ → σ) : Prog σ L Unit := act f fun _ => ret ()

/-- Nothing is left to do. -/
def ended : Prog σ L α → Bool
  | ret _ => true
  | act _ _ => false
  | lock _ _ => false
  | unlock _ _ => false

theorem eq_ret_of_ended {p : Prog σ L Unit} (h : p.ended = true) : p = ret () := by
  cases p with
  | ret a => rfl
  | act u k => cases h
  | lock l k => cases h
  | unlock l k => cases h

/-! ## A program alone -/

/-- The result and the final state when no other thread moves. -/
def run : Prog σ L α → σ → α × σ
  | ret a, s => (a, s)
  | act u k, s => (k s).run (u s)
  | lock _ k, s => k.run s
  | unlock _ k, s => k.run s

/-- The locks taken and dropped when no other thread moves. -/
def trace : Prog σ L α → σ → List (LockOp L)
  | ret _, _ => []
  | act u k, s => (k s).trace (u s)
  | lock l k, s => .take l :: k.trace s
  | unlock l k, s => .drop l :: k.trace s

@[simp] theorem run_pure (a : α) (s : σ) : (pure a : Prog σ L α).run s = (a, s) := rfl

@[simp] theorem run_read (f : σ → α) (s : σ) : (read f : Prog σ L α).run s = (f s, s) := rfl

@[simp] theorem run_modify (f : σ → σ) (s : σ) : (modify f : Prog σ L Unit).run s = ((), f s) := rfl

@[simp] theorem run_acquire (l : L) (s : σ) : (acquire l : Prog σ L Unit).run s = ((), s) := rfl

@[simp] theorem run_release (l : L) (s : σ) : (release l : Prog σ L Unit).run s = ((), s) := rfl

theorem run_bind' (p : Prog σ L α) (f : α → Prog σ L β) (s : σ) :
    (p.bind f).run s = (f (p.run s).1).run (p.run s).2 := by
  induction p generalizing s with
  | ret a => rfl
  | act u k ih => exact ih s (u s)
  | lock l k ih => exact ih s
  | unlock l k ih => exact ih s

/-- A sequence runs as its parts do. -/
@[simp] theorem run_bind (p : Prog σ L α) (f : α → Prog σ L β) (s : σ) :
    (p >>= f).run s = (f (p.run s).1).run (p.run s).2 := run_bind' p f s

@[simp] theorem trace_pure (a : α) (s : σ) : (pure a : Prog σ L α).trace s = [] := rfl

@[simp] theorem trace_read (f : σ → α) (s : σ) : (read f : Prog σ L α).trace s = [] := rfl

@[simp] theorem trace_modify (f : σ → σ) (s : σ) : (modify f : Prog σ L Unit).trace s = [] := rfl

@[simp] theorem trace_acquire (l : L) (s : σ) : (acquire l : Prog σ L Unit).trace s = [.take l] := rfl

@[simp] theorem trace_release (l : L) (s : σ) : (release l : Prog σ L Unit).trace s = [.drop l] := rfl

theorem trace_bind' (p : Prog σ L α) (f : α → Prog σ L β) (s : σ) :
    (p.bind f).trace s = p.trace s ++ (f (p.run s).1).trace (p.run s).2 := by
  induction p generalizing s with
  | ret a => rfl
  | act u k ih => exact ih s (u s)
  | lock l k ih => exact congrArg (LockOp.take l :: ·) (ih s)
  | unlock l k ih => exact congrArg (LockOp.drop l :: ·) (ih s)

/-- The locks of a sequence are those of its parts. -/
@[simp] theorem trace_bind (p : Prog σ L α) (f : α → Prog σ L β) (s : σ) :
    (p >>= f).trace s = p.trace s ++ (f (p.run s).1).trace (p.run s).2 := trace_bind' p f s

@[simp] theorem run_map (f : α → β) (p : Prog σ L α) (s : σ) : (f <$> p).run s = (f (p.run s).1, (p.run s).2) := by
  rw [← bind_pure_comp, run_bind, run_pure]

@[simp] theorem trace_map (f : α → β) (p : Prog σ L α) (s : σ) : (f <$> p).trace s = p.trace s := by
  rw [← bind_pure_comp, trace_bind, trace_pure, List.append_nil]

/-! ## Loops over a list -/

/-- A loop changes the state as its body does, element by element. -/
@[simp] theorem run_forM (f : α → Prog σ L PUnit) (xs : List α) (s : σ) :
    (forM xs f).run s = ((), xs.foldl (fun s x => ((f x).run s).2) s) := by
  induction xs generalizing s with
  | nil => rfl
  | cons x xs ih => rw [List.forM_cons, run_bind, ih]; rfl

/-- What every round keeps the loop keeps. -/
theorem run_forM_inv {f : α → Prog σ L PUnit} {xs : List α} (P : σ → Prop)
    (hP : ∀ x ∈ xs, ∀ s, P s → P ((f x).run s).2) {s : σ} (hs : P s) : P ((forM xs f).run s).2 := by
  induction xs generalizing s with
  | nil => exact hs
  | cons x xs ih =>
    rw [List.forM_cons, run_bind]
    exact ih (fun y hy => hP y (List.mem_cons_of_mem _ hy)) (hP x List.mem_cons_self s hs)

/-- A lock that a loop takes is taken by one of its rounds. -/
theorem take_mem_trace_forM {f : α → Prog σ L PUnit} {l : L} {xs : List α} {s : σ}
    (h : LockOp.take l ∈ (forM xs f).trace s) : ∃ x ∈ xs, ∃ s', LockOp.take l ∈ (f x).trace s' := by
  induction xs generalizing s with
  | nil => cases h
  | cons x xs ih =>
    rw [List.forM_cons, trace_bind] at h
    rcases List.mem_append.mp h with h | h
    · exact ⟨x, List.mem_cons_self, s, h⟩
    · obtain ⟨y, hy, hl⟩ := ih h
      exact ⟨y, List.mem_cons_of_mem _ hy, hl⟩

/-- A lock that one round takes in every state the loop can be in is taken by the loop. -/
theorem mem_trace_forM {f : α → Prog σ L PUnit} {op : LockOp L} {xs : List α} (P : σ → Prop)
    (hP : ∀ x ∈ xs, ∀ s, P s → P ((f x).run s).2) {x : α} (hx : x ∈ xs) (hop : ∀ s, P s → op ∈ (f x).trace s) {s : σ}
    (hs : P s) : op ∈ (forM xs f).trace s := by
  induction xs generalizing s with
  | nil => cases hx
  | cons y xs ih =>
    rw [List.forM_cons, trace_bind]
    rcases List.mem_cons.mp hx with rfl | hx
    · exact List.mem_append_left _ (hop s hs)
    · exact List.mem_append_right _
        (ih (fun z hz => hP z (List.mem_cons_of_mem _ hz)) hx (hP y List.mem_cons_self s hs))

/-- Loops whose rounds do the same in every state they can be in do the same. -/
theorem forM_congr {f g : α → Prog σ L PUnit} {xs : List α} (P : σ → Prop)
    (hP : ∀ x ∈ xs, ∀ s, P s → P ((f x).run s).2)
    (h : ∀ x ∈ xs, ∀ s, P s → (f x).run s = (g x).run s ∧ (f x).trace s = (g x).trace s) {s : σ} (hs : P s) :
    (forM xs f).run s = (forM xs g).run s ∧ (forM xs f).trace s = (forM xs g).trace s := by
  induction xs generalizing s with
  | nil => exact ⟨rfl, rfl⟩
  | cons y xs ih =>
    obtain ⟨hr, ht⟩ := h y List.mem_cons_self s hs
    have hi := ih (fun z hz => hP z (List.mem_cons_of_mem _ hz)) (fun z hz => h z (List.mem_cons_of_mem _ hz))
      (hP y List.mem_cons_self s hs)
    rw [List.forM_cons, List.forM_cons, run_bind, run_bind, trace_bind, trace_bind, ← hr, ← ht, hi.1, hi.2]
    exact ⟨rfl, rfl⟩

/-! ## More state -/

/-- The program where there is other state besides its own, which it leaves alone. -/
def besides {τ : Type} : Prog σ L α → Prog (σ × τ) L α
  | ret a => ret a
  | act upd k => act (fun s => (upd s.1, s.2)) fun s => (k s.1).besides
  | lock l k => lock l k.besides
  | unlock l k => unlock l k.besides

@[simp] theorem run_besides {τ : Type} (p : Prog σ L α) (s : σ) (t : τ) :
    (besides p).run (s, t) = ((p.run s).1, (p.run s).2, t) := by
  induction p generalizing s with
  | ret a => rfl
  | act upd k ih => exact ih s (upd s)
  | lock l k ih => exact ih s
  | unlock l k ih => exact ih s

@[simp] theorem trace_besides {τ : Type} (p : Prog σ L α) (s : σ) (t : τ) :
    (besides p).trace (s, t) = p.trace s := by
  induction p generalizing s with
  | ret a => rfl
  | act upd k ih => exact ih s (upd s)
  | lock l k ih => exact congrArg (LockOp.take l :: ·) (ih s)
  | unlock l k ih => exact congrArg (LockOp.drop l :: ·) (ih s)

/-! ## More locks -/

/-- The program where its locks have other names. -/
def mapLock {K : Type} (name : L → K) : Prog σ L α → Prog σ K α
  | ret a => ret a
  | act upd k => act upd fun s => (k s).mapLock name
  | lock l k => lock (name l) (k.mapLock name)
  | unlock l k => unlock (name l) (k.mapLock name)

@[simp] theorem run_mapLock {K : Type} (name : L → K) (p : Prog σ L α) (s : σ) : (p.mapLock name).run s = p.run s := by
  induction p generalizing s with
  | ret a => rfl
  | act upd k ih => exact ih s (upd s)
  | lock l k ih => exact ih s
  | unlock l k ih => exact ih s

theorem mapLock_bind {K : Type} (name : L → K) (p : Prog σ L α) (f : α → Prog σ L β) :
    (p >>= f).mapLock name = p.mapLock name >>= fun a => (f a).mapLock name := by
  show (p.bind f).mapLock name = (p.mapLock name).bind fun a => (f a).mapLock name
  induction p with
  | ret a => rfl
  | act upd k ih => exact congrArg (act upd) (funext ih)
  | lock l k ih => exact congrArg (lock (name l)) ih
  | unlock l k ih => exact congrArg (unlock (name l)) ih

theorem besides_bind {τ : Type} (p : Prog σ L α) (f : α → Prog σ L β) :
    (besides (p >>= f) : Prog (σ × τ) L β) = besides p >>= fun a => besides (f a) := by
  show (besides (p.bind f) : Prog (σ × τ) L β) = (besides p).bind fun a => besides (f a)
  induction p with
  | ret a => rfl
  | act upd k ih => exact congrArg (act _) (funext fun s => ih s.1)
  | lock l k ih => exact congrArg (lock l) ih
  | unlock l k ih => exact congrArg (unlock l) ih

theorem besides_forM {τ : Type} (f : α → Prog σ L PUnit) : ∀ xs : List α,
    (besides (forM xs f) : Prog (σ × τ) L PUnit) = forM xs fun x => besides (f x)
  | [] => rfl
  | x :: xs => by
    rw [List.forM_cons, List.forM_cons, besides_bind]
    exact congrArg _ (funext fun _ => besides_forM f xs)

end Prog

end LockProg
