import TsfSync.Lib.Threads

/-!
# Proof outlines of threads

The threads of a pool make promises (`Promise`): what a step of a thread that holds some locks may do to the state
(`guar`), which states no step may tell apart (`same`), and what a step does in each of those (`frame`). An outline of a
program (`Outline`) says before each of its steps what the thread knows of the state; what it knows must be stable, that
is, no step that another thread may take without the locks this one holds makes it false (`Stable`). From there each
action must keep the promises.

Outlines compose (`outline_bind`, `outline_seq`, `outline_forM`). A pool of threads that start with outlines has them
after every schedule (`Outlined.runs`): every action keeps the promises with exactly the locks that the thread holds
(`Outlined.act`), and a thread that has ended knows what its outline ends with (`Outlined.ret`).
-/

namespace LockProg

open Function

variable {ι σ L α β : Type}

/-- What the threads of a pool promise: what a step of a thread with some locks may do, which states no step may tell
apart, and what a step does in each of those. -/
structure Promise (ι σ L : Type) where
  guar : ι → List L → σ → σ → Prop
  same : σ → σ → Prop
  frame : σ → σ → Prop

namespace Promise

variable (pr : Promise ι σ L) (i : ι)

/-- No step of another thread, which holds none of the locks `H`, makes `P` false. -/
def Stable (H : List L) (P : σ → Prop) : Prop :=
  ∀ j, j ≠ i → ∀ H', (∀ l ∈ H, l ∉ H') → ∀ s s', pr.guar j H' s s' → P s → P s'

/-- An action keeps the promises: what it does is allowed, and states that may not be told apart are not. -/
def Keeps (H : List L) (upd : σ → σ) (k : σ → Prog σ L α) (s : σ) : Prop :=
  pr.guar i H s (upd s) ∧ ∀ t, pr.same s t → k t = k s ∧ pr.same (upd s) (upd t) ∧ pr.frame t (upd t)

/-- From a point where the thread holds the locks `H` and knows `P`, the program keeps the promises and ends with `Q`. -/
def Outline (Q : List L → (σ → Prop) → α → Prop) : List L → (σ → Prop) → Prog σ L α → Prop
  | H, P, .ret a => Q H P a
  | H, P, .act upd k => ∀ s, P s → pr.Keeps i H upd k s ∧ ∃ P', P' (upd s) ∧ pr.Stable i H P' ∧ Outline Q H P' (k s)
  | H, P, .lock l k => l ∉ H ∧ Outline Q (l :: H) P k
  | H, P, .unlock l k => ∃ H', H = l :: H' ∧ ∃ P', (∀ s, P s → P' s) ∧ pr.Stable i H' P' ∧ Outline Q H' P' k

end Promise

/-- The thread ends with the locks `H` and knows `R`. -/
def Ends (H : List L) (R : σ → Prop) : List L → (σ → Prop) → α → Prop := fun H' P _ => H' = H ∧ ∀ s, P s → R s

open Promise

variable {pr : Promise ι σ L} {i : ι} {H M : List L} {P P' R : σ → Prop}
  {Q Q' : List L → (σ → Prop) → α → Prop}

/-! ## Stable knowledge -/

theorem Promise.Stable.cons (h : pr.Stable i H P) (l : L) : pr.Stable i (l :: H) P :=
  fun j hj H' hH' => h j hj H' fun m hm => hH' m (List.mem_cons_of_mem _ hm)

theorem Promise.Stable.and (h : pr.Stable i H P) (h' : pr.Stable i H P') : pr.Stable i H fun s => P s ∧ P' s :=
  fun j hj H' hH' s s' hg hs => ⟨h j hj H' hH' s s' hg hs.1, h' j hj H' hH' s s' hg hs.2⟩

/-! ## Rules -/

/-- What `Q` says of some knowledge it says of better knowledge. -/
def Closed (Q : List L → (σ → Prop) → α → Prop) : Prop := ∀ H P P' a, (∀ s, P' s → P s) → Q H P a → Q H P' a

theorem closed_ends (H : List L) (R : σ → Prop) : Closed (Ends H R : List L → (σ → Prop) → α → Prop) :=
  fun _ _ _ _ hP h => ⟨h.1, fun s hs => h.2 s (hP s hs)⟩

/-- A thread that knows more keeps its outline. -/
theorem Promise.Outline.strengthen (hQ : Closed Q) (hP : ∀ s, P' s → P s) {p : Prog σ L α}
    (h : pr.Outline i Q H P p) : pr.Outline i Q H P' p := by
  induction p generalizing H P P' with
  | ret a => exact hQ H P P' a hP h
  | act u k _ => exact fun s hs => h s (hP s hs)
  | lock l k ih => exact ⟨h.1, ih hP h.2⟩
  | unlock l k _ =>
    obtain ⟨H', hH, P₁, himp, hst, hk⟩ := h
    exact ⟨H', hH, P₁, fun s hs => himp s (hP s hs), hst, hk⟩

/-- What follows from the end of an outline is an end of it. -/
theorem Promise.Outline.mono (hQ : ∀ H P a, Q H P a → Q' H P a) {p : Prog σ L α} (h : pr.Outline i Q H P p) :
    pr.Outline i Q' H P p := by
  induction p generalizing H P with
  | ret a => exact hQ H P a h
  | act u k ih =>
    intro s hs
    obtain ⟨hkeep, P₁, hP₁, hst, hk⟩ := h s hs
    exact ⟨hkeep, P₁, hP₁, hst, ih s hk⟩
  | lock l k ih => exact ⟨h.1, ih h.2⟩
  | unlock l k ih =>
    obtain ⟨H', hH, P₁, himp, hst, hk⟩ := h
    exact ⟨H', hH, P₁, himp, hst, ih hk⟩

/-- The same actions, with the program that follows. -/
theorem Promise.Keeps.bind {upd : σ → σ} {k : σ → Prog σ L β} {s : σ} (f : β → Prog σ L α)
    (h : pr.Keeps i H upd k s) : pr.Keeps i H upd (fun s => (k s).bind f) s :=
  ⟨h.1, fun t ht => ⟨congrArg (Prog.bind · f) (h.2 t ht).1, (h.2 t ht).2⟩⟩

theorem outline_bind' {p : Prog σ L β} {f : β → Prog σ L α}
    (hp : pr.Outline i (fun H' P' b => pr.Outline i Q H' P' (f b)) H P p) : pr.Outline i Q H P (p.bind f) := by
  induction p generalizing H P with
  | ret b => exact hp
  | act u k ih =>
    intro s hs
    obtain ⟨hkeep, P₁, hP₁, hst, hk⟩ := hp s hs
    exact ⟨hkeep.bind f, P₁, hP₁, hst, ih s hk⟩
  | lock l k ih => exact ⟨hp.1, ih hp.2⟩
  | unlock l k ih =>
    obtain ⟨H', hH, P₁, himp, hst, hk⟩ := hp
    exact ⟨H', hH, P₁, himp, hst, ih hk⟩

/-- Outlines compose. -/
theorem outline_bind {p : Prog σ L β} {f : β → Prog σ L α}
    (hp : pr.Outline i (fun H' P' b => pr.Outline i Q H' P' (f b)) H P p) : pr.Outline i Q H P (p >>= f) :=
  outline_bind' hp

/-- A part that ends with known locks and knowledge, and then the rest. -/
theorem outline_seq (hQ : Closed Q) {p : Prog σ L β} {f : β → Prog σ L α} (hp : pr.Outline i (Ends M R) H P p)
    (hf : ∀ b, pr.Outline i Q M R (f b)) : pr.Outline i Q H P (p >>= f) := by
  refine outline_bind (hp.mono ?_)
  rintro H' P' b ⟨rfl, hR⟩
  exact (hf b).strengthen hQ hR

/-- An action. -/
theorem outline_act {upd : σ → σ} {k : σ → Prog σ L α} (h : ∀ s, P s → pr.Keeps i H upd k s ∧
    ∃ P', P' (upd s) ∧ pr.Stable i H P' ∧ pr.Outline i Q H P' (k s)) : pr.Outline i Q H P (.act upd k) := h

/-- A request for a lock. -/
theorem outline_acquire {l : L} {f : Unit → Prog σ L α} (hl : l ∉ H) (hf : pr.Outline i Q (l :: H) P (f ())) :
    pr.Outline i Q H P (Prog.acquire l >>= f) := ⟨hl, hf⟩

/-- A release; the thread keeps what is stable without the lock. -/
theorem outline_release {l : L} {f : Unit → Prog σ L α} (hP : ∀ s, P s → P' s) (hst : pr.Stable i H P')
    (hf : pr.Outline i Q H P' (f ())) : pr.Outline i Q (l :: H) P (Prog.release l >>= f) := ⟨H, rfl, P', hP, hst, hf⟩

/-- A loop keeps what its rounds keep. -/
theorem outline_forM {f : β → Prog σ L PUnit} {xs : List β}
    (h : ∀ x ∈ xs, pr.Outline i (Ends H R) H R (f x)) : pr.Outline i (Ends H R) H R (forM xs f) := by
  induction xs with
  | nil => exact ⟨rfl, fun s hs => hs⟩
  | cons x xs ih =>
    rw [List.forM_cons]
    exact outline_seq (closed_ends H R) (h x List.mem_cons_self) fun _ =>
      ih fun y hy => h y (List.mem_cons_of_mem _ hy)

/-! ## Pools -/

/-- Every thread has an outline from where it stands, with the locks it holds and something it knows. -/
def Outlined (pr : Promise ι σ L) (Q : ι → List L → (σ → Prop) → Unit → Prop) (c : Pool ι σ L) : Prop :=
  ∃ (stack : ι → List L) (knows : ι → σ → Prop), ∀ i,
    pr.Outline i (Q i) (stack i) (knows i) (c.prog i) ∧ knows i c.state ∧ pr.Stable i (stack i) (knows i) ∧
      (stack i).Nodup ∧ ∀ l, c.holder l = some i ↔ l ∈ stack i

section Outlined

variable {Q : ι → List L → (σ → Prop) → Unit → Prop} {c c' : Pool ι σ L}

theorem outlined_start {prog : ι → Prog σ L Unit} {s : σ} {knows : ι → σ → Prop}
    (h : ∀ i, pr.Outline i (Q i) [] (knows i) (prog i)) (hs : ∀ i, knows i s)
    (hst : ∀ i, pr.Stable i [] (knows i)) : Outlined pr Q (Pool.start prog s) :=
  ⟨fun _ => [], knows, fun i => ⟨h i, hs i, hst i, List.nodup_nil, fun l => by simp [Pool.start]⟩⟩

/-- **An action keeps the promises**, with exactly the locks that the thread holds. -/
theorem Outlined.act (ho : Outlined pr Q c) {i : ι} {upd : σ → σ} {k : σ → Prog σ L Unit}
    (h : c.prog i = .act upd k) : ∃ H, (∀ l, c.holder l = some i ↔ l ∈ H) ∧ pr.Keeps i H upd k c.state := by
  obtain ⟨stack, knows, hall⟩ := ho
  obtain ⟨hout, hknow, -, -, hown⟩ := hall i
  rw [h] at hout
  exact ⟨stack i, hown, (hout c.state hknow).1⟩

/-- A thread that has ended knows what its outline ends with. -/
theorem Outlined.ret (ho : Outlined pr Q c) {i : ι} (h : c.prog i = .ret ()) :
    ∃ H P, Q i H P () ∧ P c.state := by
  obtain ⟨stack, knows, hall⟩ := ho
  obtain ⟨hout, hknow, -⟩ := hall i
  rw [h] at hout
  exact ⟨stack i, knows i, hout, hknow⟩

variable [DecidableEq ι] [DecidableEq L]

omit [DecidableEq L] in
/-- The thread that steps moves on in its outline; the others stay where they are and still know what they knew. -/
theorem Outlined.goOn {stack : ι → List L} {knows : ι → σ → Prop}
    (hs : ∀ j, pr.Outline j (Q j) (stack j) (knows j) (c.prog j) ∧ pr.Stable j (stack j) (knows j) ∧ (stack j).Nodup)
    {i : ι} {p : Prog σ L Unit} {H : List L} {P : σ → Prop} {holder : L → Option ι} {s : σ}
    (hp : pr.Outline i (Q i) H P p) (hst : pr.Stable i H P) (hn : H.Nodup) (hP : P s) (hknow : ∀ j, j ≠ i → knows j s)
    (hown : ∀ j m, holder m = some j ↔ m ∈ update stack i H j) :
    Outlined pr Q (⟨update c.prog i p, holder, s⟩ : Pool ι σ L) := by
  refine ⟨update stack i H, update knows i P, fun j => ?_⟩
  have hownj := hown j
  by_cases hj : j = i
  · subst hj
    simpa using ⟨hp, hP, hst, hn, by simpa using hownj⟩
  · obtain ⟨hpj, hstj, hnj⟩ := hs j
    simpa [hj] using ⟨hpj, hknow j hj, hstj, hnj, by simpa [hj] using hownj⟩

/-- One step of any thread keeps the outlines. -/
theorem Outlined.step (ho : Outlined pr Q c) {i : ι} (h : c.step i = some c') : Outlined pr Q c' := by
  obtain ⟨stack, knows, hall⟩ := ho
  have hs : ∀ j, pr.Outline j (Q j) (stack j) (knows j) (c.prog j) ∧ pr.Stable j (stack j) (knows j) ∧
      (stack j).Nodup := fun j => ⟨(hall j).1, (hall j).2.2.1, (hall j).2.2.2.1⟩
  have hown : ∀ j m, c.holder m = some j ↔ m ∈ stack j := fun j => (hall j).2.2.2.2
  have hknow : ∀ j, knows j c.state := fun j => (hall j).2.1
  obtain ⟨hout, hst, hn⟩ := hs i
  rcases Pool.step_cases h with ⟨u, k, hp, rfl⟩ | ⟨l, k, hp, hfree, rfl⟩ | ⟨l, k, hp, rfl⟩
  · rw [hp] at hout
    obtain ⟨hkeep, P', hP', hst', hk⟩ := hout c.state (hknow i)
    refine Outlined.goOn hs hk hst' hn hP' (fun j hj => ?_) fun j m => ?_
    · -- no lock has two holders
      have hapart : ∀ l ∈ stack j, l ∉ stack i := by
        intro l hlj hli
        have hboth := ((hown j l).mpr hlj).symm.trans ((hown i l).mpr hli)
        exact hj (Option.some.inj hboth)
      exact (hs j).2.1 i (Ne.symm hj) (stack i) hapart _ _ hkeep.1 (hknow j)
    · rw [update_eq_self]
      exact hown j m
  · rw [hp] at hout
    obtain ⟨hl, hk⟩ := hout
    exact Outlined.goOn hs hk (hst.cons l) (List.nodup_cons.mpr ⟨hl, hn⟩) (hknow i) (fun j _ => hknow j)
      (owned_take hown hfree)
  · rw [hp] at hout
    obtain ⟨H', hH, P', hP', hst', hk⟩ := hout
    have hn' : (l :: H').Nodup := by rwa [hH] at hn
    exact Outlined.goOn hs hk hst' (List.nodup_cons.mp hn').2 (hP' _ (hknow i)) (fun j _ => hknow j)
      (owned_give hown hH hn)

/-- **Every schedule keeps the outlines.** -/
theorem Outlined.runs {sched : List ι} {c : Pool ι σ L} (ho : Outlined pr Q c)
    (hrun : Pool.runs sched c = some c') : Outlined pr Q c' :=
  Pool.runs_inv (fun ho h => ho.step h) sched ho hrun

/-- **What the promised steps keep, every schedule keeps.** -/
theorem Outlined.runs_inv {I : σ → Prop} (hI : ∀ i H s s', pr.guar i H s s' → I s → I s') (sched : List ι) :
    ∀ {c : Pool ι σ L}, Outlined pr Q c → I c.state → Pool.runs sched c = some c' → I c'.state := by
  induction sched with
  | nil => intro c _ hc h; cases h; exact hc
  | cons i sched ih =>
    intro c ho hc h
    obtain ⟨c₁, h₁, h₂⟩ := Option.bind_eq_some_iff.mp h
    refine ih (ho.step h₁) ?_ h₂
    rcases Pool.step_cases h₁ with ⟨upd, k, hp, rfl⟩ | ⟨l, k, -, -, rfl⟩ | ⟨l, k, -, rfl⟩
    · obtain ⟨H, -, hkeep⟩ := ho.act hp
      exact hI i H _ _ hkeep.1 hc
    · exact hc
    · exact hc

omit [DecidableEq ι] [DecidableEq L] in
/-- A thread alone ends as its outline says. -/
theorem Promise.Outline.run {Q : List L → (σ → Prop) → α → Prop} {p : Prog σ L α} (h : pr.Outline i Q H P p) {s : σ}
    (hs : P s) : ∃ H' P', Q H' P' (p.run s).1 ∧ P' (p.run s).2 := by
  induction p generalizing H P s with
  | ret a => exact ⟨H, P, h, hs⟩
  | act upd k ih =>
    obtain ⟨-, P', hP', -, hk⟩ := h s hs
    exact ih s hk hP'
  | lock l k ih => exact ih h.2 hs
  | unlock l k ih =>
    obtain ⟨H', -, P', himp, -, hk⟩ := h
    exact ih hk (himp s hs)

end Outlined

end LockProg
