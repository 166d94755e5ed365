import Mathlib.Logic.Function.Basic
import Mathlib.Data.Set.Basic
import TsfSync.Lib.Prog
import TsfSync.Lib.Runs

/-!
# Threads over shared locks, and circular waits

A pool is one program for each thread, a shared state and a holder for each lock (`Pool`); a schedule is the list of
threads that take the next step (`Pool.runs`). A request for a lock that has a holder does not step: the thread waits.

`Keeps ok H p R` is a discipline of one program: begun with the stack `H` of locks it asks only for locks that `ok`
allows on top of what it then holds, drops them last in first out, and ends with the stack `R`. Programs that keep it
compose (`keeps_bind`, `keeps_forM`), a pool of them stays disciplined under every schedule (`Disciplined.runs`), and
then a thread that asks for a lock was allowed to (`Disciplined.asks`).

When `ok` makes every request go up in a bounded rank, except above *outer* locks, a circular wait needs a thread that
holds a lock and waits for an outer lock whose holder waits too. No run comes to one in which a thread that holds a lock
waits for an outer lock only while its holder is going to give it back before it asks for another (`Pool.InOrder`,
`not_circularWait`).
-/

namespace LockProg

open Function

variable {ι σ L α β : Type}

/-- Threads `ι` over a shared state and locks with at most one holder each. -/
structure Pool (ι σ L : Type) where
  prog : ι → Prog σ L Unit
  holder : L → Option ι
  state : σ

namespace Pool

/-- A pool where nobody holds a lock. -/
def start (prog : ι → Prog σ L Unit) (s : σ) : Pool ι σ L := ⟨prog, fun _ => none, s⟩

/-- Thread `i` has reached a request for `l`. -/
def Asks (c : Pool ι σ L) (i : ι) (l : L) : Prop := ∃ k, c.prog i = .lock l k

/-- Thread `i` waits for `l`, which `j` holds. -/
def WaitsFor (c : Pool ι σ L) (i : ι) (l : L) (j : ι) : Prop := c.Asks i l ∧ c.holder l = some j

/-- **A circular wait**: each thread of a set holds a lock and waits for one held by another thread of the set. -/
def CircularWait (c : Pool ι σ L) : Prop :=
  ∃ S : Set ι, S.Nonempty ∧ ∀ i ∈ S, (∃ l, c.holder l = some i) ∧ ∃ l, ∃ j ∈ S, j ≠ i ∧ c.WaitsFor i l j

variable [DecidableEq ι] [DecidableEq L]

/-- One step of thread `i`; none if it has ended or waits. -/
def step (c : Pool ι σ L) (i : ι) : Option (Pool ι σ L) :=
  match c.prog i with
  | .ret _ => none
  | .act upd k => some { c with prog := update c.prog i (k c.state), state := upd c.state }
  | .lock l k =>
    if c.holder l = none then some { c with prog := update c.prog i k, holder := update c.holder l (some i) } else none
  | .unlock l k => some { c with prog := update c.prog i k, holder := update c.holder l none }

/-- What a step can be: an action, a request for a lock that nobody holds, or a release. -/
theorem step_cases {c c' : Pool ι σ L} {i : ι} (h : c.step i = some c') :
    (∃ upd k, c.prog i = .act upd k ∧
      c' = { c with prog := update c.prog i (k c.state), state := upd c.state }) ∨
    (∃ l k, c.prog i = .lock l k ∧ c.holder l = none ∧
      c' = { c with prog := update c.prog i k, holder := update c.holder l (some i) }) ∨
    ∃ l k, c.prog i = .unlock l k ∧ c' = { c with prog := update c.prog i k, holder := update c.holder l none } := by
  unfold step at h
  cases hprog : c.prog i with
  | ret a => rw [hprog] at h; cases h
  | act upd k => rw [hprog] at h; cases h; exact .inl ⟨upd, k, rfl, rfl⟩
  | lock l k =>
    rw [hprog] at h
    dsimp only at h
    split at h
    · rename_i hfree; cases h; exact .inr (.inl ⟨l, k, rfl, hfree, rfl⟩)
    · cases h
  | unlock l k => rw [hprog] at h; cases h; exact .inr (.inr ⟨l, k, rfl, rfl⟩)

/-- The pool after a schedule; none if a scheduled thread cannot step. -/
def runs : List ι → Pool ι σ L → Option (Pool ι σ L)
  | [], c => some c
  | i :: sched, c => (c.step i).bind (runs sched)

/-- A step changes the program of one thread. -/
theorem step_prog_ne {c c' : Pool ι σ L} {i j : ι} (h : c.step i = some c') (hj : j ≠ i) : c'.prog j = c.prog j := by
  rcases step_cases h with ⟨upd, k, -, rfl⟩ | ⟨l, k, -, -, rfl⟩ | ⟨l, k, -, rfl⟩
  all_goals exact update_of_ne hj _ _

/-- Who holds a lock after a step held it before, or has taken it. -/
theorem holder_step {c c' : Pool ι σ L} {i j : ι} {l : L} (h : c.step i = some c') (hl : c'.holder l = some j) :
    c.holder l = some j ∨ j = i ∧ ∃ k, c.prog i = .lock l k ∧ c'.prog i = k := by
  rcases step_cases h with ⟨upd, k, -, rfl⟩ | ⟨m, k, hp, -, rfl⟩ | ⟨m, k, -, rfl⟩
  · exact .inl hl
  · change update c.holder m (some i) l = some j at hl
    by_cases hm : l = m
    · subst hm
      rw [update_self] at hl
      cases hl
      exact .inr ⟨rfl, k, hp, update_self _ _ _⟩
    · rw [update_of_ne hm] at hl
      exact .inl hl
  · change update c.holder m none l = some j at hl
    by_cases hm : l = m
    · subst hm
      rw [update_self] at hl
      cases hl
    · rw [update_of_ne hm] at hl
      exact .inl hl

/-- What every step keeps, every schedule keeps. -/
theorem runs_inv {P : Pool ι σ L → Prop} (hstep : ∀ {c c' : Pool ι σ L} {i : ι}, P c → c.step i = some c' → P c')
    (sched : List ι) : ∀ {c c' : Pool ι σ L}, P c → runs sched c = some c' → P c' := by
  induction sched with
  | nil => intro c c' hc h; cases h; exact hc
  | cons i sched ih =>
    intro c c' hc h
    obtain ⟨c₁, h₁, h₂⟩ := Option.bind_eq_some_iff.mp h
    exact ih (hstep hc h₁) h₂

end Pool

/-! ## The discipline of one program -/

/-- From the stack `H` of held locks, `p` asks only for locks that `ok` allows, drops them last in first out and ends
with the stack `R`, whatever the other threads do to the state. -/
def Keeps (ok : List L → L → Prop) : List L → Prog σ L α → List L → Prop
  | H, .ret _, R => H = R
  | H, .act _ k, R => ∀ s, Keeps ok H (k s) R
  | H, .lock l k, R => (l ∉ H ∧ ok H l) ∧ Keeps ok (l :: H) k R
  | H, .unlock l k, R => ∃ H', H = l :: H' ∧ Keeps ok H' k R

section Keeps

variable {ok : List L → L → Prop} {H R : List L}

@[simp] theorem keeps_pure (a : α) : Keeps ok H (pure a : Prog σ L α) R ↔ H = R := Iff.rfl

@[simp] theorem keeps_read (f : σ → α) : Keeps ok H (Prog.read f) R ↔ σ → H = R := Iff.rfl

@[simp] theorem keeps_modify (f : σ → σ) : Keeps (L := L) ok H (Prog.modify f) R ↔ σ → H = R := Iff.rfl

theorem keeps_bind' {p : Prog σ L α} {f : α → Prog σ L β} {M : List L} (hp : Keeps ok H p M)
    (hf : ∀ a, Keeps ok M (f a) R) : Keeps ok H (p.bind f) R := by
  induction p generalizing H with
  | ret a => cases hp; exact hf a
  | act u k ih => exact fun s => ih s (hp s)
  | lock l k ih => exact ⟨hp.1, ih hp.2⟩
  | unlock l k ih =>
    obtain ⟨H', rfl, hk⟩ := hp
    exact ⟨H', rfl, ih hk⟩

/-- Disciplined programs compose. -/
theorem keeps_bind {p : Prog σ L α} {f : α → Prog σ L β} (M : List L) (hp : Keeps ok H p M)
    (hf : ∀ a, Keeps ok M (f a) R) : Keeps ok H (p >>= f) R := keeps_bind' hp hf

/-- A look at the state keeps the stack. -/
theorem keeps_read_bind {g : σ → α} {f : α → Prog σ L β} (hf : ∀ a, Keeps ok H (f a) R) :
    Keeps ok H (Prog.read g >>= f) R := fun s => hf (g s)

/-- A change of the state keeps the stack. -/
theorem keeps_modify_bind {g : σ → σ} {f : Unit → Prog σ L β} (hf : Keeps ok H (f ()) R) :
    Keeps ok H (Prog.modify g >>= f) R := fun _ => hf

/-- An allowed request pushes its lock. -/
theorem keeps_acquire_bind {l : L} {f : Unit → Prog σ L β} (hl : l ∉ H) (hok : ok H l)
    (hf : Keeps ok (l :: H) (f ()) R) : Keeps ok H (Prog.acquire l >>= f) R := ⟨⟨hl, hok⟩, hf⟩

/-- A release pops the lock taken last. -/
theorem keeps_release_bind {l : L} {f : Unit → Prog σ L β} (hf : Keeps ok H (f ()) R) :
    Keeps ok (l :: H) (Prog.release l >>= f) R := ⟨H, rfl, hf⟩

/-- The last release of a program. -/
theorem keeps_release (l : L) : Keeps (σ := σ) ok (l :: H) (Prog.release l) H := ⟨H, rfl, rfl⟩

/-- A loop keeps the stack its rounds keep. -/
theorem keeps_forM {f : α → Prog σ L PUnit} {xs : List α} (h : ∀ x ∈ xs, Keeps ok H (f x) H) :
    Keeps ok H (forM xs f) H := by
  induction xs with
  | nil => exact rfl
  | cons x xs ih =>
    rw [List.forM_cons]
    exact keeps_bind H (h x List.mem_cons_self) fun _ => ih fun y hy => h y (List.mem_cons_of_mem _ hy)

end Keeps

/-! ## Who holds which lock -/

section Owned

variable [DecidableEq ι] [DecidableEq L]

/-- A thread takes a free lock. -/
theorem owned_take {holder : L → Option ι} {stack : ι → List L} {i : ι} {l : L}
    (hown : ∀ j m, holder m = some j ↔ m ∈ stack j) (hfree : holder l = none) (j : ι) (m : L) :
    update holder l (some i) m = some j ↔ m ∈ update stack i (l :: stack i) j := by
  have hj := hown j m
  by_cases hm : m = l
  · subst hm
    rw [update_self]
    by_cases hji : j = i
    · subst hji
      simp
    · have hnot : m ∉ stack j := by
        rw [← hj, hfree]
        rintro ⟨⟩
      rw [update_of_ne hji]
      simpa [hnot] using Ne.symm hji
  · rw [update_of_ne hm, hj]
    by_cases hji : j = i
    · subst hji
      simp [hm]
    · rw [update_of_ne hji]

/-- A thread gives back the lock it took last. -/
theorem owned_give {holder : L → Option ι} {stack : ι → List L} {i : ι} {l : L} {H : List L}
    (hown : ∀ j m, holder m = some j ↔ m ∈ stack j) (hH : stack i = l :: H) (hn : (stack i).Nodup) (j : ι) (m : L) :
    update holder l none m = some j ↔ m ∈ update stack i H j := by
  have hj := hown j m
  have hl : holder l = some i := (hown i l).mpr (by rw [hH]; exact List.mem_cons_self)
  rw [hH] at hn
  by_cases hm : m = l
  · subst hm
    rw [update_self]
    by_cases hji : j = i
    · subst hji
      simpa using (List.nodup_cons.mp hn).1
    · have hnot : m ∉ stack j := by
        rw [← hj, hl]
        exact fun e => hji (Option.some.inj e).symm
      rw [update_of_ne hji]
      simpa using hnot
  · rw [update_of_ne hm, hj]
    by_cases hji : j = i
    · subst hji
      simp [hH, hm]
    · rw [update_of_ne hji]

end Owned

/-! ## The discipline of a pool -/

/-- Every thread keeps the discipline with the locks it holds. -/
def Disciplined (ok : List L → L → Prop) (c : Pool ι σ L) : Prop :=
  ∃ stack : ι → List L, ∀ i, Keeps ok (stack i) (c.prog i) [] ∧ (stack i).Nodup ∧
    ∀ l, c.holder l = some i ↔ l ∈ stack i

section Disciplined

variable {ok : List L → L → Prop} {c c' : Pool ι σ L}

theorem disciplined_start {prog : ι → Prog σ L Unit} (h : ∀ i, Keeps ok [] (prog i) []) (s : σ) :
    Disciplined ok (Pool.start prog s) :=
  ⟨fun _ => [], fun i => ⟨h i, List.nodup_nil, fun l => by simp [Pool.start]⟩⟩

/-- A thread that asks for a lock was allowed to, on top of exactly the locks it holds. -/
theorem Disciplined.asks (hd : Disciplined ok c) {i : ι} {l : L} (h : c.Asks i l) :
    ∃ H, (∀ m, c.holder m = some i ↔ m ∈ H) ∧ l ∉ H ∧ ok H l := by
  obtain ⟨stack, hs⟩ := hd
  obtain ⟨k, hk⟩ := h
  have hkeep := (hs i).1
  rw [hk] at hkeep
  exact ⟨stack i, (hs i).2.2, hkeep.1⟩

variable [DecidableEq ι] [DecidableEq L]

omit [DecidableEq L] in
/-- The thread that steps moves on with the locks it has then; the others stay where they are. -/
theorem Disciplined.goOn {stack : ι → List L} (hs : ∀ j, Keeps ok (stack j) (c.prog j) [] ∧ (stack j).Nodup) {i : ι}
    {p : Prog σ L Unit} {H : List L} {holder : L → Option ι} {s : σ} (hk : Keeps ok H p []) (hn : H.Nodup)
    (hown : ∀ j m, holder m = some j ↔ m ∈ update stack i H j) :
    Disciplined ok (⟨update c.prog i p, holder, s⟩ : Pool ι σ L) := by
  refine ⟨update stack i H, fun j => ?_⟩
  have hownj := hown j
  by_cases hj : j = i
  · subst hj
    simpa using ⟨hk, hn, by simpa using hownj⟩
  · simpa [hj] using ⟨(hs j).1, (hs j).2, by simpa [hj] using hownj⟩

/-- One step of any thread keeps the pool disciplined. -/
theorem Disciplined.step (hd : Disciplined ok c) {i : ι} (h : c.step i = some c') : Disciplined ok c' := by
  obtain ⟨stack, hall⟩ := hd
  have hs : ∀ j, Keeps ok (stack j) (c.prog j) [] ∧ (stack j).Nodup := fun j => ⟨(hall j).1, (hall j).2.1⟩
  have hown : ∀ j m, c.holder m = some j ↔ m ∈ stack j := fun j => (hall j).2.2
  obtain ⟨hkeep, hn⟩ := hs i
  rcases Pool.step_cases h with ⟨u, k, hp, rfl⟩ | ⟨l, k, hp, hfree, rfl⟩ | ⟨l, k, hp, rfl⟩
  · rw [hp] at hkeep
    refine Disciplined.goOn hs (hkeep c.state) hn fun j m => ?_
    rw [update_eq_self]
    exact hown j m
  · rw [hp] at hkeep
    exact Disciplined.goOn hs hkeep.2 (List.nodup_cons.mpr ⟨hkeep.1.1, hn⟩) (owned_take hown hfree)
  · rw [hp] at hkeep
    obtain ⟨H', hH, hk⟩ := hkeep
    have hn' : (l :: H').Nodup := by rwa [hH] at hn
    exact Disciplined.goOn hs hk (List.nodup_cons.mp hn').2 (owned_give hown hH hn)

/-- A disciplined pool stays disciplined under every schedule. -/
theorem Disciplined.runs {sched : List ι} {c : Pool ι σ L} (hd : Disciplined ok c)
    (hrun : Pool.runs sched c = some c') : Disciplined ok c' :=
  Pool.runs_inv (fun hd h => hd.step h) sched hd hrun

end Disciplined

/-! ## No circular wait -/

/-- The program gives `o` back before it asks for another lock. -/
def LetsGo (o : L) : Prog σ L α → Prop
  | .ret _ => False
  | .act _ k => ∀ s, LetsGo o (k s)
  | .lock _ _ => False
  | .unlock l k => l = o ∨ LetsGo o k

namespace Pool

/-- Thread `i` holds a lock. -/
def HoldsSome (c : Pool ι σ L) (i : ι) : Prop := ∃ l, c.holder l = some i

/-- While a thread that holds a lock asks for an outer lock, whoever holds that is going to give it back before asking for
another. -/
def Apart (outer : L → Prop) (c : Pool ι σ L) : Prop :=
  ∀ i j o, outer o → j ≠ i → c.HoldsSome i → c.Asks i o → c.holder o = some j → LetsGo o (c.prog j)

variable [DecidableEq ι] [DecidableEq L]

/-- A step of thread `i` that keeps requests for outer locks apart from those who hold such a lock and may ask for another:
where it brings the thread, holding a lock, to its request for an outer lock, and where it takes one. -/
structure InOrder (outer : L → Prop) (i : ι) (c : Pool ι σ L) : Prop where
  comes : ∀ c' o, outer o → c.step i = some c' → c'.HoldsSome i → c'.Asks i o →
    ∀ j, j ≠ i → c.holder o = some j → LetsGo o (c.prog j)
  takes : ∀ o k, outer o → c.prog i = .lock o k → LetsGo o k ∨ ∀ j, j ≠ i → c.HoldsSome j → ¬c.Asks j o

/-- A step of another thread takes no lock for this one. -/
theorem HoldsSome.of_step {c c' : Pool ι σ L} {i t : ι} (h : c'.HoldsSome i) (hs : c.step t = some c') (hi : i ≠ t) :
    c.HoldsSome i := by
  obtain ⟨l, hl⟩ := h
  rcases holder_step hs hl with hbefore | ⟨rfl, -⟩
  · exact ⟨l, hbefore⟩
  · exact absurd rfl hi

/-- A step that is taken while the others hold nothing is in order. -/
theorem inOrder_alone {outer : L → Prop} {c : Pool ι σ L} {i : ι} (h : ∀ j, j ≠ i → ¬c.HoldsSome j) :
    c.InOrder outer i where
  comes := fun _ o _ _ _ _ j hj hl => absurd ⟨o, hl⟩ (h j hj)
  takes := fun _ _ _ _ => .inr fun j hj hheld => absurd hheld (h j hj)

/-- A thread that holds a lock and is going to give it back is so after its step too. -/
theorem letsGo_step {c c' : Pool ι σ L} {i : ι} {o : L} (h : c.step i = some c') (ho : c'.holder o = some i)
    (hgo : LetsGo o (c.prog i)) : LetsGo o (c'.prog i) := by
  rcases step_cases h with ⟨upd, k, hp, rfl⟩ | ⟨l, k, hp, -, rfl⟩ | ⟨l, k, hp, rfl⟩
  all_goals rw [hp] at hgo
  · simpa using hgo c.state
  · cases hgo
  · rcases hgo with rfl | hgo
    · change update c.holder l none l = some i at ho
      rw [update_self] at ho
      cases ho
    · simpa using hgo

/-- A step in order keeps them apart. -/
theorem Apart.step {outer : L → Prop} {c c' : Pool ι σ L} {t : ι} (hc : c.Apart outer) (ht : c.InOrder outer t)
    (h : c.step t = some c') : c'.Apart outer := by
  intro i j o ho hji hheld hasks hj
  by_cases hit : i = t
  · subst hit
    rcases holder_step h hj with hbefore | ⟨rfl, -⟩
    · rw [step_prog_ne h hji]
      exact ht.comes c' o ho h hheld hasks j hji hbefore
    · exact absurd rfl hji
  · -- the one that asks did so before the step
    have hheld₀ : c.HoldsSome i := hheld.of_step h hit
    have hasks₀ : c.Asks i o := by rwa [Asks, step_prog_ne h hit] at hasks
    rcases holder_step h hj with hbefore | ⟨rfl, k, hp, hk⟩
    · have hgo := hc i j o ho hji hheld₀ hasks₀ hbefore
      by_cases hjt : j = t
      · subst hjt
        exact letsGo_step h hj hgo
      · rwa [step_prog_ne h hjt]
    · rcases ht.takes o k ho hp with hgo | hnone
      · rwa [hk]
      · exact absurd hasks₀ (hnone i (Ne.symm hji) hheld₀)

/-- A run in order keeps them apart. -/
theorem Apart.runs {outer : L → Prop} : ∀ {sched : List ι} {c c' : Pool ι σ L}, c.Apart outer →
    StepSystem.EveryStep (fun i c => c.step i) (InOrder outer) sched c → Pool.runs sched c = some c' → c'.Apart outer
  | [], _, _, hc, _, h => by cases h; exact hc
  | i :: sched, c, c', hc, hall, h => by
    obtain ⟨c₁, h₁, h₂⟩ := Option.bind_eq_some_iff.mp h
    obtain ⟨hi, hrest⟩ := hall c₁ h₁
    exact Apart.runs (hc.step hi h₁) hrest h₂

/-- Steps of one thread while the others hold nothing, and then others. -/
theorem everyStep_alone {outer : L → Prop} {i : ι} {rest : List ι} : ∀ (n : Nat) {c : Pool ι σ L},
    (∀ j, j ≠ i → ¬c.HoldsSome j) → (∀ c', Pool.runs (List.replicate n i) c = some c' →
      StepSystem.EveryStep (fun i c => c.step i) (InOrder outer) rest c') →
    StepSystem.EveryStep (fun i c => c.step i) (InOrder outer) (List.replicate n i ++ rest) c
  | 0, c, _, hrest => hrest c rfl
  | n + 1, c, h, hrest => by
    intro c' hstep
    have h' : ∀ j, j ≠ i → ¬c'.HoldsSome j := fun j hj hheld => h j hj (hheld.of_step hstep hj)
    refine ⟨inOrder_alone h, everyStep_alone n h' fun c'' hruns => hrest c'' ?_⟩
    exact Option.bind_eq_some_iff.mpr ⟨c', hstep, hruns⟩

omit [DecidableEq ι] [DecidableEq L] in
theorem apart_start (outer : L → Prop) (prog : ι → Prog σ L Unit) (s : σ) : (Pool.start prog s).Apart outer := by
  rintro i j o - - ⟨l, ⟨⟩⟩

end Pool

/-- When requests go up in rank, except above outer locks, and those who ask for an outer lock are apart from those who
hold one, there is no circular wait. -/
theorem not_circularWait {ok : List L → L → Prop} {c : Pool ι σ L} (rank : L → Nat) (bound : Nat) (outer : L → Prop)
    (hrank : ∀ l, rank l < bound) (hup : ∀ H l, ok H l → ∀ h ∈ H, outer h ∨ rank h < rank l)
    (hd : Disciplined ok c) (hc : c.Apart outer) : ¬c.CircularWait := by
  rintro ⟨S, ⟨i₀, hi₀⟩, hS⟩
  -- from every wait in the set there is one for a lock of higher rank, against the bound
  have climb : ∀ n, ∃ i ∈ S, ∃ l, ∃ j ∈ S, j ≠ i ∧ c.WaitsFor i l j ∧ n ≤ rank l := by
    intro n
    induction n with
    | zero =>
      obtain ⟨-, l, j, hj, hne, hw⟩ := hS i₀ hi₀
      exact ⟨i₀, hi₀, l, j, hj, hne, hw, Nat.zero_le _⟩
    | succ n ih =>
      obtain ⟨i, hi, l, j, hj, hne, hw, hn⟩ := ih
      obtain ⟨-, l', k, hk, hne', hw'⟩ := hS j hj
      obtain ⟨H, hH, -, hok⟩ := hd.asks hw'.1
      rcases hup H l' hok l ((hH l).mp hw.2) with ho | hlt
      · -- `j` holds an outer lock that `i` asks for, and asks for another
        have hgo := hc i j l ho hne (hS i hi).1 hw.1 hw.2
        obtain ⟨p, hp⟩ := hw'.1
        rw [hp] at hgo
        cases hgo
      · exact ⟨j, hj, l', k, hk, hne', hw', by omega⟩
  obtain ⟨i, -, l, -, -, -, -, hn⟩ := climb bound
  exact absurd hn (Nat.not_le.mpr (hrank l))

end LockProg
