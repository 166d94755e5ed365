import Mathlib.Logic.Relation
import TsfSync.Lib.Threads

/-!
# A lock among steps that do not take it

The threads of a pool work on a shared state under one lock, and there are steps that change the state without the lock
(`Monitor.env`). A thread that takes the lock finds the invariant of the free lock (`inv`); from then on it knows what it
did itself and that only steps without the lock came in between, and with this it must keep what holds always (`safe`)
and restore the invariant before it drops the lock (`Guards`). Sequences and loops keep the rule if their parts do
(`guards_bind`, `guards_forM`), and under every schedule of threads that keep it every state is safe (`safe_runs`).
-/

namespace LockProg

open Function Relation

variable {ι σ L α β : Type}

/-- A lock, what steps without it do to the state, what holds while nobody holds it, and what holds always. -/
structure Monitor (σ L : Type) where
  lock : L
  env : σ → σ → Prop
  inv : σ → Prop
  safe : σ → Prop
  inv_env : ∀ {s s'}, inv s → env s s' → inv s'
  safe_env : ∀ {s s'}, safe s → env s s' → safe s'

section Guards

variable (M : Monitor σ L)

/-- From a point where it left the state `s` with the lock held (`some s`) or does not hold it (`none`), the program keeps
the rule of the monitor up to an end for which `Q` holds with its result. -/
def Guards (Q : Option σ → α → Prop) : Option σ → Prog σ L α → Prop
  | h, .ret a => Q h a
  | none, .act upd k => ∀ s, M.env s (upd s) ∧ Guards Q none (k s)
  | some s, .act upd k => ∀ s', ReflTransGen M.env s s' → M.safe s' → M.safe (upd s') ∧ Guards Q (some (upd s')) (k s')
  | none, .lock l k => l = M.lock ∧ ∀ s, M.inv s → Guards Q (some s) k
  | some _, .lock _ _ => False
  | none, .unlock _ _ => False
  | some s, .unlock l k => l = M.lock ∧ (∀ s', ReflTransGen M.env s s' → M.inv s') ∧ Guards Q none k

/-- A thread that starts and ends without the lock. -/
def GuardsAll (p : Prog σ L Unit) : Prop := Guards M (fun h _ => h = none) none p

variable {M} {Q Q' : Option σ → α → Prop}

theorem guards_bind' {p : Prog σ L β} {f : β → Prog σ L α} {h : Option σ}
    (hp : Guards M (fun h' b => Guards M Q h' (f b)) h p) : Guards M Q h (p.bind f) := by
  induction p generalizing h with
  | ret b => cases h <;> exact hp
  | act u k ih =>
    cases h with
    | none => exact fun s => ⟨(hp s).1, ih s (hp s).2⟩
    | some s => exact fun s' hs' hsafe => ⟨(hp s' hs' hsafe).1, ih s' (hp s' hs' hsafe).2⟩
  | lock l k ih =>
    cases h with
    | none => exact ⟨hp.1, fun s hs => ih (hp.2 s hs)⟩
    | some s => exact hp
  | unlock l k ih =>
    cases h with
    | none => exact hp
    | some s => exact ⟨hp.1, hp.2.1, ih hp.2.2⟩

/-- A sequence keeps the rule if its parts do. -/
theorem guards_bind {p : Prog σ L β} {f : β → Prog σ L α} {h : Option σ}
    (hp : Guards M (fun h' b => Guards M Q h' (f b)) h p) : Guards M Q h (p >>= f) := guards_bind' hp

/-- What follows from the end follows from keeping the rule. -/
theorem Guards.mono (hQ : ∀ h a, Q h a → Q' h a) {p : Prog σ L α} {h : Option σ} (hp : Guards M Q h p) :
    Guards M Q' h p := by
  induction p generalizing h with
  | ret a => cases h <;> exact hQ _ a hp
  | act u k ih =>
    cases h with
    | none => exact fun s => ⟨(hp s).1, ih s (hp s).2⟩
    | some s => exact fun s' hs' hsafe => ⟨(hp s' hs' hsafe).1, ih s' (hp s' hs' hsafe).2⟩
  | lock l k ih =>
    cases h with
    | none => exact ⟨hp.1, fun s hs => ih (hp.2 s hs)⟩
    | some s => exact hp
  | unlock l k ih =>
    cases h with
    | none => exact hp
    | some s => exact ⟨hp.1, hp.2.1, ih hp.2.2⟩

/-! ## Rules -/

theorem guards_pure {a : α} {h : Option σ} (hQ : Q h a) : Guards M Q h (pure a) := by
  cases h <;> exact hQ

/-- A step without the lock. -/
theorem guards_modify_none {upd : σ → σ} (henv : ∀ s, M.env s (upd s)) : GuardsAll M (Prog.modify upd) :=
  fun s => ⟨henv s, rfl⟩

/-- A step with the lock held. -/
theorem guards_act {upd : σ → σ} {k : σ → Prog σ L β} {f : β → Prog σ L α} {s : σ}
    (hf : ∀ s', ReflTransGen M.env s s' → M.safe s' → M.safe (upd s') ∧ Guards M Q (some (upd s')) (k s' >>= f)) :
    Guards M Q (some s) (Prog.act upd k >>= f) := hf

theorem guards_modify {upd : σ → σ} {f : Unit → Prog σ L α} {s : σ}
    (hf : ∀ s', ReflTransGen M.env s s' → M.safe s' → M.safe (upd s') ∧ Guards M Q (some (upd s')) (f ())) :
    Guards M Q (some s) (Prog.modify upd >>= f) := hf

/-- A look at the state with the lock held. -/
theorem guards_read {g : σ → β} {f : β → Prog σ L α} {s : σ}
    (hf : ∀ s', ReflTransGen M.env s s' → Guards M Q (some s') (f (g s'))) : Guards M Q (some s) (Prog.read g >>= f) :=
  fun s' hs' hsafe => ⟨hsafe, hf s' hs'⟩

/-- A request for the lock finds the invariant. -/
theorem guards_acquire {f : Unit → Prog σ L α} (hf : ∀ s, M.inv s → Guards M Q (some s) (f ())) :
    Guards M Q none (Prog.acquire M.lock >>= f) := ⟨rfl, hf⟩

/-- Dropping the lock asks for the invariant. -/
theorem guards_release {f : Unit → Prog σ L α} {s : σ} (hinv : M.inv s) (hf : Guards M Q none (f ())) :
    Guards M Q (some s) (Prog.release M.lock >>= f) := by
  refine ⟨rfl, fun s' hs' => ?_, hf⟩
  induction hs' with
  | refl => exact hinv
  | tail _ hstep ih => exact M.inv_env ih hstep

/-- A loop of rounds that start and end without the lock. -/
theorem guards_forM {f : β → Prog σ L PUnit} {xs : List β} (h : ∀ x ∈ xs, GuardsAll M (f x)) :
    GuardsAll M (forM xs f) := by
  induction xs with
  | nil => exact rfl
  | cons x xs ih =>
    rw [List.forM_cons]
    refine guards_bind ((h x List.mem_cons_self).mono ?_)
    rintro h' a rfl
    exact ih fun y hy => h y (List.mem_cons_of_mem _ hy)

/-- What steps without the lock keep, any number of them keep. -/
theorem keeps_env {P : σ → Prop} (hP : ∀ s s', P s → M.env s s' → P s') {s s' : σ} (hs : P s)
    (h : ReflTransGen M.env s s') : P s' := by
  induction h with
  | refl => exact hs
  | tail _ hstep ih => exact hP _ _ ih hstep

end Guards

/-! ## Pools -/

section Pools

variable {M : Monitor σ L} [DecidableEq ι] {holder : Option ι} {s : σ} {i : ι}

/-- What a thread knows: the state `s` that the holder left, if it is the holder. -/
def knows (holder : Option ι) (s : σ) (i : ι) : Option σ := if holder = some i then some s else none

theorem knows_self : knows (some i) s i = some s := if_pos rfl

theorem knows_other (h : holder ≠ some i) : knows holder s i = none := if_neg h

/-- One thread goes on, and the others know what they knew. -/
theorem guards_update {known known' : ι → Option σ} {prog : ι → Prog σ L Unit} {p : Prog σ L Unit}
    (h : ∀ j, Guards M (fun h _ => h = none) (known j) (prog j)) (hp : Guards M (fun h _ => h = none) (known' i) p)
    (hothers : ∀ j, j ≠ i → known' j = known j) (j : ι) :
    Guards M (fun h _ => h = none) (known' j) (update prog i p j) := by
  by_cases hj : j = i
  · subst hj
    rw [update_self]
    exact hp
  · rw [update_of_ne hj, hothers j hj]
    exact h j

variable [DecidableEq L] {c c' : Pool ι σ L}

/-- Every thread keeps the rule from where it is, where the holder left the state `s`; the free lock has its
invariant. -/
structure Guarded (M : Monitor σ L) (c : Pool ι σ L) (s : σ) : Prop where
  prog : ∀ i, Guards M (fun h _ => h = none) (knows (c.holder M.lock) s i) (c.prog i)
  since : ReflTransGen M.env s c.state
  safe : M.safe c.state
  free : c.holder M.lock = none → M.inv c.state

theorem Guarded.step (h : Guarded M c s) (hstep : c.step i = some c') : ∃ s', Guarded M c' s' := by
  have hi := h.prog i
  rcases Pool.step_cases hstep with ⟨u, k, hprog, rfl⟩ | ⟨l, k, hprog, hfree, rfl⟩ | ⟨l, k, hprog, rfl⟩
  · rw [hprog] at hi
    by_cases hheld : c.holder M.lock = some i
    · rw [hheld, knows_self] at hi
      obtain ⟨hsafe, hk⟩ := hi c.state h.since h.safe
      refine ⟨u c.state, guards_update h.prog ?_ fun j hj => ?_, .refl, hsafe, fun hfree => ?_⟩
      · rw [hheld, knows_self]; exact hk
      · have hne : some i ≠ some j := fun e => hj (Option.some.inj e).symm
        rw [hheld, knows_other hne, knows_other hne]
      · cases hheld.symm.trans hfree
    · rw [knows_other hheld] at hi
      obtain ⟨henv, hk⟩ := hi c.state
      refine ⟨s, guards_update h.prog ?_ fun j _ => rfl, h.since.tail henv, M.safe_env h.safe henv,
        fun hfree => M.inv_env (h.free hfree) henv⟩
      rw [knows_other hheld]; exact hk
  · rw [hprog] at hi
    by_cases hheld : c.holder M.lock = some i
    · rw [hheld, knows_self] at hi
      exact absurd hi id
    · rw [knows_other hheld] at hi
      obtain ⟨rfl, hk⟩ := hi
      have hmine : update c.holder M.lock (some i) M.lock = some i := update_self ..
      refine ⟨c.state, guards_update h.prog ?_ fun j hj => ?_, .refl, h.safe, fun hnone => ?_⟩
      · dsimp only
        rw [hmine, knows_self]
        exact hk c.state (h.free hfree)
      · dsimp only
        rw [hmine, hfree, knows_other (fun e => hj (Option.some.inj e).symm), knows_other fun e => by cases e]
      · cases hmine.symm.trans hnone
  · rw [hprog] at hi
    by_cases hheld : c.holder M.lock = some i
    · rw [hheld, knows_self] at hi
      obtain ⟨rfl, hinv, hk⟩ := hi
      have hnone : update c.holder M.lock none M.lock = none := update_self ..
      refine ⟨s, guards_update h.prog ?_ fun j hj => ?_, h.since, h.safe, fun _ => hinv c.state h.since⟩
      · dsimp only
        rw [hnone, knows_other fun e => by cases e]
        exact hk
      · dsimp only
        rw [hnone, hheld, knows_other (fun e => by cases e), knows_other fun e => hj (Option.some.inj e).symm]
    · rw [knows_other hheld] at hi
      exact absurd hi id

/-- **Safety**: among threads that keep the rule every state is safe, and the free lock has its invariant. -/
theorem safe_runs {prog : ι → Prog σ L Unit} {s : σ} {sched : List ι} (hprog : ∀ i, GuardsAll M (prog i))
    (hsafe : M.safe s) (hinv : M.inv s) (hrun : (Pool.start prog s).runs sched = some c) :
    M.safe c.state ∧ (c.holder M.lock = none → M.inv c.state) := by
  have hstart : Guarded M (Pool.start prog s) s := ⟨fun i => hprog i, .refl, hsafe, fun _ => hinv⟩
  have hstep : ∀ {c c' : Pool ι σ L} {i : ι}, (∃ s, Guarded M c s) → c.step i = some c' → ∃ s, Guarded M c' s :=
    fun ⟨_, h⟩ hi => h.step hi
  obtain ⟨s', h⟩ := Pool.runs_inv hstep sched ⟨s, hstart⟩ hrun
  exact ⟨h.safe, h.free⟩

end Pools

end LockProg
