import Mathlib.Algebra.BigOperators.Group.Finset.Basic
import Mathlib.Data.Fintype.BigOperators
import TsfSync.Lib.Threads

/-!
# Amounts that threads owe to a shared state

Every thread of a pool owes an amount to the state, which it pays while it runs (`Owes`): an action may change the
`amount` of the state by what it takes off the debt, and the part of the state that a lock protects (`view`) only with
that lock held. In return a thread that holds the lock may rely on what it last saw of the protected part. Debts of a
sequence add up (`owes_bind`, `owes_forM`).

No payment is lost: under every schedule the amount of the state and the debts of the threads keep their sum
(`Solvent.runs`), so when all threads have ended the state has gained exactly what they owed (`amount_of_done`).
-/

namespace LockProg

open Function

variable {ι σ L α β V M : Type} [AddCommMonoid M]

/-- What a ledger is about: the lock, the part of the state it protects, the amount, and what all threads keep true of
the state. -/
structure Ledger (σ L V M : Type) where
  lock : L
  view : σ → V
  amount : σ → M
  ok : σ → Prop

section Owes

variable [DecidableEq L] (ld : Ledger σ L V M)

/-- From a point where it holds the lock and last saw `v` (`some v`) or does not hold it (`none`), the program pays what
it owes, up to a rest for which `Q` holds with its result. -/
def Owes (Q : Option V → α → M → Prop) : Option V → Prog σ L α → M → Prop
  | h, .ret a, m => Q h a m
  | h, .act upd k, m => ∀ s, ld.ok s → (∀ v, h = some v → ld.view s = v) →
    ld.ok (upd s) ∧ (h = none → ld.view (upd s) = ld.view s) ∧
    ∃ m', ld.amount (upd s) + m' = ld.amount s + m ∧ Owes Q (h.map fun _ => ld.view (upd s)) (k s) m'
  | h, .lock l k, m => if l = ld.lock then h = none ∧ ∀ v, Owes Q (some v) k m else Owes Q h k m
  | h, .unlock l k, m => if l = ld.lock then h.isSome = true ∧ Owes Q none k m else Owes Q h k m

/-- A thread that starts without the lock and pays all it owes. -/
def OwesAll (p : Prog σ L Unit) (m : M) : Prop := Owes ld (fun h _ rest => h = none ∧ rest = 0) none p m

variable {ld} {Q Q' : Option V → α → M → Prop}

theorem owes_bind' {p : Prog σ L β} {f : β → Prog σ L α} {h : Option V} {m : M}
    (hp : Owes ld (fun h' b m' => Owes ld Q h' (f b) m') h p m) : Owes ld Q h (p.bind f) m := by
  induction p generalizing h m with
  | ret b => exact hp
  | act u k ih =>
    intro s hs hv
    obtain ⟨hok, hview, m', hm, hk⟩ := hp s hs hv
    exact ⟨hok, hview, m', hm, ih s hk⟩
  | lock l k ih =>
    show (if l = ld.lock then _ else _)
    change (if l = ld.lock then _ else _) at hp
    split
    · rename_i hl
      rw [if_pos hl] at hp
      exact ⟨hp.1, fun v => ih (hp.2 v)⟩
    · rename_i hl
      rw [if_neg hl] at hp
      exact ih hp
  | unlock l k ih =>
    show (if l = ld.lock then _ else _)
    change (if l = ld.lock then _ else _) at hp
    split
    · rename_i hl
      rw [if_pos hl] at hp
      exact ⟨hp.1, ih hp.2⟩
    · rename_i hl
      rw [if_neg hl] at hp
      exact ih hp

/-- A sequence pays what its parts pay. -/
theorem owes_bind {p : Prog σ L β} {f : β → Prog σ L α} {h : Option V} {m : M}
    (hp : Owes ld (fun h' b m' => Owes ld Q h' (f b) m') h p m) : Owes ld Q h (p >>= f) m := owes_bind' hp

/-- What follows from the rest follows from paying. -/
theorem Owes.mono (hQ : ∀ h a m, Q h a m → Q' h a m) {p : Prog σ L α} {h : Option V} {m : M} (hp : Owes ld Q h p m) :
    Owes ld Q' h p m := by
  induction p generalizing h m with
  | ret a => exact hQ h a m hp
  | act u k ih =>
    intro s hs hv
    obtain ⟨hok, hview, m', hm, hk⟩ := hp s hs hv
    exact ⟨hok, hview, m', hm, ih s hk⟩
  | lock l k ih =>
    change (if l = ld.lock then _ else _) at hp ⊢
    split at hp
    · rename_i hl
      rw [if_pos hl]
      exact ⟨hp.1, fun v => ih (hp.2 v)⟩
    · rename_i hl
      rw [if_neg hl]
      exact ih hp
  | unlock l k ih =>
    change (if l = ld.lock then _ else _) at hp ⊢
    split at hp
    · rename_i hl
      rw [if_pos hl]
      exact ⟨hp.1, ih hp.2⟩
    · rename_i hl
      rw [if_neg hl]
      exact ih hp

/-! ## Rules -/

/-- An action that leaves the protected part may be taken with the lock and without it. -/
theorem owes_act_keep {upd : σ → σ} {k : σ → Prog σ L α} {h : Option V} {m : M}
    (hk : ∀ s, ld.ok s → (∀ v, h = some v → ld.view s = v) → ld.ok (upd s) ∧ ld.view (upd s) = ld.view s ∧
      ∃ m', ld.amount (upd s) + m' = ld.amount s + m ∧ Owes ld Q h (k s) m') : Owes ld Q h (.act upd k) m := by
  intro s hs hv
  obtain ⟨hok, hview, m', hm, hrest⟩ := hk s hs hv
  refine ⟨hok, fun _ => hview, m', hm, ?_⟩
  have hsame : (h.map fun _ => ld.view (upd s)) = h := by
    cases h with
    | none => rfl
    | some v => exact congrArg some (hview.trans (hv v rfl))
  rw [hsame]
  exact hrest

/-- A look at the state pays nothing. -/
theorem owes_read_bind {g : σ → β} {f : β → Prog σ L α} {h : Option V} {m : M}
    (hf : ∀ s, ld.ok s → (∀ v, h = some v → ld.view s = v) → Owes ld Q h (f (g s)) m) :
    Owes ld Q h (Prog.read g >>= f) m :=
  owes_act_keep fun s hs hv => ⟨hs, rfl, m, rfl, hf s hs hv⟩

/-- A request for the lock of the ledger shows the protected part. -/
theorem owes_acquire_lock {f : Unit → Prog σ L α} {m : M} (hf : ∀ v, Owes ld Q (some v) (f ()) m) :
    Owes ld Q none (Prog.acquire ld.lock >>= f) m := by
  show (if ld.lock = ld.lock then _ else _)
  rw [if_pos rfl]
  exact ⟨rfl, hf⟩

theorem owes_acquire_other {l : L} (hl : l ≠ ld.lock) {f : Unit → Prog σ L α} {h : Option V} {m : M}
    (hf : Owes ld Q h (f ()) m) : Owes ld Q h (Prog.acquire l >>= f) m := by
  show (if l = ld.lock then _ else _)
  rw [if_neg hl]
  exact hf

theorem owes_release_lock {f : Unit → Prog σ L α} {v : V} {m : M} (hf : Owes ld Q none (f ()) m) :
    Owes ld Q (some v) (Prog.release ld.lock >>= f) m := by
  show (if ld.lock = ld.lock then _ else _)
  rw [if_pos rfl]
  exact ⟨rfl, hf⟩

theorem owes_release_other {l : L} (hl : l ≠ ld.lock) {f : Unit → Prog σ L α} {h : Option V} {m : M}
    (hf : Owes ld Q h (f ()) m) : Owes ld Q h (Prog.release l >>= f) m := by
  show (if l = ld.lock then _ else _)
  rw [if_neg hl]
  exact hf

/-- A loop pays what its rounds pay, if each starts and ends without the lock. -/
theorem owes_forM {f : β → Prog σ L PUnit} {cost : β → M} {rest : M} : ∀ {xs : List β},
    (∀ x ∈ xs, ∀ rest, Owes ld (fun h _ m => h = none ∧ m = rest) none (f x) (cost x + rest)) →
    Owes ld (fun h _ m => h = none ∧ m = rest) none (forM xs f) ((xs.map cost).sum + rest)
  | [], _ => ⟨rfl, by rw [List.map_nil, List.sum_nil, zero_add]⟩
  | x :: xs, hf => by
    rw [List.forM_cons, List.map_cons, List.sum_cons, add_assoc]
    refine owes_bind ((hf x List.mem_cons_self _).mono ?_)
    rintro h a m ⟨rfl, rfl⟩
    exact owes_forM fun y hy => hf y (List.mem_cons_of_mem _ hy)

end Owes

/-! ## Pools -/

section Pools

variable [DecidableEq L] [Fintype ι] {ld : Ledger σ L V M} {total : M} {c c' : Pool ι σ L}

/-- The amount of the state and the debts of the threads add up to `total`, and the holder of the lock is the one that
knows the protected part. -/
def Solvent (ld : Ledger σ L V M) (total : M) (c : Pool ι σ L) : Prop :=
  ∃ (held : ι → Option V) (debt : ι → M),
    (∀ i, Owes ld (fun h _ rest => h = none ∧ rest = 0) (held i) (c.prog i) (debt i)) ∧
    (∀ i, (held i).isSome = true ↔ c.holder ld.lock = some i) ∧
    (∀ i v, held i = some v → ld.view c.state = v) ∧ ld.ok c.state ∧ ld.amount c.state + ∑ i, debt i = total

theorem solvent_start {prog : ι → Prog σ L Unit} {s : σ} {debt : ι → M} (h : ∀ i, OwesAll ld (prog i) (debt i))
    (hs : ld.ok s) : Solvent ld (ld.amount s + ∑ i, debt i) (Pool.start prog s) :=
  ⟨fun _ => none, debt, h, fun i => (by simp [Pool.start]), fun _ _ hv => (by cases hv), hs, rfl⟩

/-- When all threads have ended nothing is owed. -/
theorem Solvent.amount_of_done (h : Solvent ld total c) (hdone : ∀ i, c.prog i = .ret ()) :
    ld.amount c.state = total := by
  obtain ⟨held, debt, hp, -, -, -, hsum⟩ := h
  have hzero : ∀ i, debt i = 0 := by
    intro i
    have hi := hp i
    rw [hdone i] at hi
    exact hi.2
  rw [← hsum, Finset.sum_eq_zero fun i _ => hzero i, add_zero]

variable [DecidableEq ι]

/-- A payment of one thread leaves the sum of the amount and the debts. -/
theorem add_sum_update {debt : ι → M} {i : ι} {m a a' : M} (h : a' + m = a + debt i) :
    a' + ∑ j, update debt i m j = a + ∑ j, debt j := by
  have hsum : ∑ j, debt j = ∑ j ∈ Finset.univ \ {i}, debt j + debt i := by
    rw [← Finset.sum_sdiff (Finset.subset_univ {i}), Finset.sum_singleton]
  rw [Finset.sum_update_of_mem (Finset.mem_univ i), hsum, ← add_assoc, h, add_assoc, add_comm (debt i)]

/-- One thread goes on with what it now holds and owes, the others stay. -/
theorem Solvent.goOn {held : ι → Option V} {debt : ι → M} {i : ι} {p : Prog σ L Unit} {holder : L → Option ι} {s : σ}
    {h : Option V} {m : M} (hp : ∀ j, Owes ld (fun h _ rest => h = none ∧ rest = 0) (held j) (c.prog j) (debt j))
    (hpi : Owes ld (fun h _ rest => h = none ∧ rest = 0) h p m)
    (hholder : ∀ j, j ≠ i → ((held j).isSome = true ↔ holder ld.lock = some j))
    (hholderi : h.isSome = true ↔ holder ld.lock = some i) (hview : ∀ j, j ≠ i → ∀ v, held j = some v → ld.view s = v)
    (hviewi : ∀ v, h = some v → ld.view s = v) (hok : ld.ok s) (hm : ld.amount s + m = ld.amount c.state + debt i)
    (hsum : ld.amount c.state + ∑ j, debt j = total) : Solvent ld total ⟨update c.prog i p, holder, s⟩ := by
  refine ⟨update held i h, update debt i m, fun j => ?_, fun j => ?_, fun j v hv => ?_, hok, ?_⟩
  · by_cases hj : j = i
    · subst hj; simpa using hpi
    · simpa [hj] using hp j
  · by_cases hj : j = i
    · subst hj; simpa using hholderi
    · simpa [hj] using hholder j hj
  · by_cases hj : j = i
    · subst hj; exact hviewi v (by simpa using hv)
    · exact hview j hj v (by simpa [hj] using hv)
  · exact (add_sum_update hm).trans hsum

/-- One step of any thread keeps the sum. -/
theorem Solvent.step (h : Solvent ld total c) {i : ι} (hstep : c.step i = some c') : Solvent ld total c' := by
  obtain ⟨held, debt, hp, hholder, hview, hok, hsum⟩ := h
  have hi := hp i
  rcases Pool.step_cases hstep with ⟨u, k, hprog, rfl⟩ | ⟨l, k, hprog, hfree, rfl⟩ | ⟨l, k, hprog, rfl⟩
  · rw [hprog] at hi
    obtain ⟨hok', hkeep, m', hm, hk⟩ := hi c.state hok (hview i)
    refine Solvent.goOn hp hk (fun j _ => hholder j) ?_ (fun j hj v hv => ?_) (fun v hv => ?_) hok' hm hsum
    · rw [Option.isSome_map]
      exact hholder i
    · -- another thread holds the lock, so this one leaves the protected part alone
      have hnone : held i = none := by
        rw [← Option.not_isSome_iff_eq_none, hholder i, (hholder j).mp (by rw [hv]; rfl)]
        exact fun e => hj (Option.some.inj e)
      exact (hkeep hnone).trans (hview j v hv)
    · obtain ⟨-, -, rfl⟩ := Option.map_eq_some_iff.mp hv
      rfl
  · rw [hprog] at hi
    change (if l = ld.lock then _ else _) at hi
    by_cases hl : l = ld.lock
    · subst hl
      rw [if_pos rfl] at hi
      have hnone : ∀ j, held j = none := by
        intro j
        rw [← Option.not_isSome_iff_eq_none, hholder j, hfree]
        exact fun e => by cases e
      refine Solvent.goOn hp (hi.2 (ld.view c.state)) (fun j hj => ?_) ?_ (fun j _ => hview j) (fun v hv => ?_) hok rfl
        hsum
      · simpa [hnone j] using Ne.symm hj
      · simp
      · exact Option.some.inj hv
    · rw [if_neg hl] at hi
      have hother : update c.holder l (some i) ld.lock = c.holder ld.lock := update_of_ne (Ne.symm hl) _ _
      refine Solvent.goOn hp hi (fun j _ => ?_) ?_ (fun j _ => hview j) (hview i) hok rfl hsum
      · rw [hother]; exact hholder j
      · rw [hother]; exact hholder i
  · rw [hprog] at hi
    change (if l = ld.lock then _ else _) at hi
    by_cases hl : l = ld.lock
    · subst hl
      rw [if_pos rfl] at hi
      have hmine : c.holder ld.lock = some i := (hholder i).mp hi.1
      refine Solvent.goOn hp hi.2 (fun j hj => ?_) ?_ (fun j _ => hview j) (fun v hv => ?_) hok rfl hsum
      · rw [hholder j, hmine, update_self]
        exact ⟨fun e => absurd (Option.some.inj e).symm hj, fun e => by cases e⟩
      · simp
      · cases hv
    · rw [if_neg hl] at hi
      have hother : update c.holder l none ld.lock = c.holder ld.lock := update_of_ne (Ne.symm hl) _ _
      refine Solvent.goOn hp hi (fun j _ => ?_) ?_ (fun j _ => hview j) (hview i) hok rfl hsum
      · rw [hother]; exact hholder j
      · rw [hother]; exact hholder i

/-- **No payment is lost**: every schedule keeps the sum. -/
theorem Solvent.runs {sched : List ι} (hs : Solvent ld total c) (hrun : Pool.runs sched c = some c') :
    Solvent ld total c' := Pool.runs_inv (fun hs h => hs.step h) sched hs hrun

/-- Threads that run to their end under any schedule have paid exactly what they owe. -/
theorem amount_of_done {prog : ι → Prog σ L Unit} {s : σ} {debt : ι → M} (h : ∀ i, OwesAll ld (prog i) (debt i))
    (hs : ld.ok s) {sched : List ι} (hrun : Pool.runs sched (Pool.start prog s) = some c)
    (hdone : ∀ i, c.prog i = .ret ()) : ld.amount c.state = ld.amount s + ∑ i, debt i :=
  ((solvent_start h hs).runs hrun).amount_of_done hdone

end Pools

end LockProg
