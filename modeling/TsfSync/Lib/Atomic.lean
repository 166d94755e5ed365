import TsfSync.Lib.Threads

/-!
# Critical sections that are atomic

A `Layout` divides a state into parts, each with a lock of its own. `Atomically ly p none P`: outside critical sections
the program `p` leaves the parts alone, and each of its critical sections looks at the part of its lock only and does to
it, and sees of it, what one action of the program `P` over the parts does. The programs are related part by part
(`atomically_bind`, `atomically_forM`).

Then a pool of programs that run under any schedule does what the pool of the programs over the parts does, where a
critical section is one action, made when its lock is taken (`Pool.atomic`).
-/

namespace LockProg

open Function

variable {ι σ κ τ L α β : Type}

/-- The parts of a state, the part that a lock protects, and what all threads keep true of the state. -/
structure Layout (σ κ τ L : Type) where
  part : κ → σ → τ
  of : L → Option κ
  ok : σ → Prop
  unique : ∀ {l l' : L} {c : κ}, of l = some c → of l' = some c → l = l'

/-- The parts of a state. -/
def Layout.parts (ly : Layout σ κ τ L) (s : σ) : κ → τ := fun c => ly.part c s

variable [DecidableEq κ] {ly : Layout σ κ τ L}

/-- What is left of a program does what is left of a program over the parts: outside critical sections (`none`), or in a
section for a part that stands at a value and that the other program has brought to another value already. -/
def Atomically (ly : Layout σ κ τ L) : Option (κ × τ × τ) → Prog σ L α → Prog (κ → τ) Empty α → Prop
  | h, .ret a, P => h = none ∧ P = .ret a
  | none, .act upd k, P => ∀ s, ly.ok s →
    ly.ok (upd s) ∧ (∀ c, ly.part c (upd s) = ly.part c s) ∧ Atomically ly none (k s) P
  | some (c, x, y), .act upd k, P => ∀ s, ly.ok s → ly.part c s = x →
    ly.ok (upd s) ∧ (∀ d, d ≠ c → ly.part d (upd s) = ly.part d s) ∧
      Atomically ly (some (c, ly.part c (upd s), y)) (k s) P
  | none, .lock l k, P =>
    match ly.of l with
    | none => Atomically ly none k P
    | some c => ∃ U K, P = .act U K ∧
      ∀ t, (∀ d, d ≠ c → U t d = t d) ∧ Atomically ly (some (c, t c, U t c)) k (K t)
  | some h, .lock l k, P => ly.of l = none ∧ Atomically ly (some h) k P
  | none, .unlock l k, P => ly.of l = none ∧ Atomically ly none k P
  | some (c, x, y), .unlock l k, P =>
    if ly.of l = some c then x = y ∧ Atomically ly none k P else ly.of l = none ∧ Atomically ly (some (c, x, y)) k P

/-! ## Rules -/

section Rules

variable {h : Option (κ × τ × τ)} {P : Prog (κ → τ) Empty α} {c : κ} {x y : τ}

theorem atomically_pure (a : α) : Atomically ly none (pure a : Prog σ L α) (pure a) := ⟨rfl, rfl⟩

theorem atomically_bind' {p : Prog σ L β} {R : Prog (κ → τ) Empty β} {f : β → Prog σ L α}
    {F : β → Prog (κ → τ) Empty α} (hp : Atomically ly h p R) (hf : ∀ b, Atomically ly none (f b) (F b)) :
    Atomically ly h (p.bind f) (R.bind F) := by
  induction p generalizing h R with
  | ret b =>
    obtain ⟨rfl, rfl⟩ := hp
    exact hf b
  | act upd k ih =>
    cases h with
    | none =>
      intro s hs
      obtain ⟨hok, hpart, hk⟩ := hp s hs
      exact ⟨hok, hpart, ih s hk⟩
    | some h =>
      obtain ⟨c, x, y⟩ := h
      intro s hs hx
      obtain ⟨hok, hpart, hk⟩ := hp s hs hx
      exact ⟨hok, hpart, ih s hk⟩
  | lock l k ih =>
    cases h with
    | none =>
      simp only [Prog.bind, Atomically] at hp ⊢
      cases hl : ly.of l with
      | none =>
        rw [hl] at hp
        exact ih hp
      | some c =>
        rw [hl] at hp
        obtain ⟨U, K, rfl, hsec⟩ := hp
        exact ⟨U, fun t => (K t).bind F, rfl, fun t => ⟨(hsec t).1, ih (hsec t).2⟩⟩
    | some h => exact ⟨hp.1, ih hp.2⟩
  | unlock l k ih =>
    cases h with
    | none => exact ⟨hp.1, ih hp.2⟩
    | some h =>
      obtain ⟨c, x, y⟩ := h
      simp only [Prog.bind, Atomically] at hp ⊢
      split at hp
      · rename_i hl
        rw [if_pos hl]
        exact ⟨hp.1, ih hp.2⟩
      · rename_i hl
        rw [if_neg hl]
        exact ⟨hp.1, ih hp.2⟩

/-- A sequence, part by part. -/
theorem atomically_bind {p : Prog σ L β} {R : Prog (κ → τ) Empty β} {f : β → Prog σ L α}
    {F : β → Prog (κ → τ) Empty α} (hp : Atomically ly h p R) (hf : ∀ b, Atomically ly none (f b) (F b)) :
    Atomically ly h (p >>= f) (R >>= F) := atomically_bind' hp hf

/-- A loop, round by round. -/
theorem atomically_forM {f : β → Prog σ L PUnit} {F : β → Prog (κ → τ) Empty PUnit} {xs : List β}
    (hf : ∀ x ∈ xs, Atomically ly none (f x) (F x)) : Atomically ly none (forM xs f) (forM xs F) := by
  induction xs with
  | nil => exact ⟨rfl, rfl⟩
  | cons x xs ih =>
    rw [List.forM_cons, List.forM_cons]
    exact atomically_bind (hf x List.mem_cons_self) fun _ => ih fun y hy => hf y (List.mem_cons_of_mem _ hy)

/-- A look at the state outside critical sections. -/
theorem atomically_read_bind {g : σ → β} {f : β → Prog σ L α} (hf : ∀ s, ly.ok s → Atomically ly none (f (g s)) P) :
    Atomically ly none (Prog.read g >>= f) P := fun s hs => ⟨hs, fun _ => rfl, hf s hs⟩

/-- A change of the state that leaves the parts alone. -/
theorem atomically_modify_bind {g : σ → σ} {f : Unit → Prog σ L α}
    (hg : ∀ s, ly.ok s → ly.ok (g s) ∧ ∀ c, ly.part c (g s) = ly.part c s) (hf : Atomically ly h (f ()) P) :
    Atomically ly h (Prog.modify g >>= f) P := by
  cases h with
  | none => exact fun s hs => ⟨(hg s hs).1, (hg s hs).2, hf⟩
  | some h =>
    obtain ⟨c, x, y⟩ := h
    intro s hs hx
    obtain ⟨hok, hpart⟩ := hg s hs
    refine ⟨hok, fun d _ => hpart d, ?_⟩
    rw [hpart, hx]
    exact hf

/-- A request for a lock that protects no part. -/
theorem atomically_acquire_bind {l : L} {f : Unit → Prog σ L α} (hl : ly.of l = none)
    (hf : Atomically ly h (f ()) P) : Atomically ly h (Prog.acquire l >>= f) P := by
  change Atomically ly h (.lock l (f ())) P
  cases h with
  | none => simpa only [Atomically, hl] using hf
  | some h => exact ⟨hl, hf⟩

/-- A release of a lock that protects no part. -/
theorem atomically_release_bind {l : L} {f : Unit → Prog σ L α} (hl : ly.of l = none)
    (hf : Atomically ly h (f ()) P) : Atomically ly h (Prog.release l >>= f) P := by
  change Atomically ly h (.unlock l (f ())) P
  cases h with
  | none => exact ⟨hl, hf⟩
  | some h =>
    obtain ⟨c, x, y⟩ := h
    have hne : ly.of l ≠ some c := fun e => by rw [hl] at e; cases e
    simp only [Atomically, if_neg hne]
    exact ⟨hl, hf⟩

/-- **A critical section** does to its part what one access does. -/
theorem atomically_section {l : L} {f : Unit → Prog σ L α} {g : τ → τ} {k : τ → Prog (κ → τ) Empty α}
    (hl : ly.of l = some c) (hf : ∀ x, Atomically ly (some (c, x, g x)) (f ()) (k x)) :
    Atomically ly none (Prog.acquire l >>= f) (.act (fun t => update t c (g (t c))) fun t => k (t c)) := by
  change Atomically ly none (.lock l (f ())) _
  simp only [Atomically, hl]
  refine ⟨_, _, rfl, fun t => ⟨fun d hd => update_of_ne hd _ _, ?_⟩⟩
  rw [update_self]
  exact hf (t c)

/-- A look at the state in a critical section. -/
theorem atomically_look_bind {g : σ → β} {f : β → Prog σ L α}
    (hf : ∀ s, ly.ok s → ly.part c s = x → Atomically ly (some (c, x, y)) (f (g s)) P) :
    Atomically ly (some (c, x, y)) (Prog.read g >>= f) P := by
  intro s hs hx
  refine ⟨hs, fun _ _ => rfl, ?_⟩
  show Atomically ly (some (c, ly.part c s, y)) (f (g s)) P
  rw [hx]
  exact hf s hs hx

/-- A change in a critical section brings its part to a new value. -/
theorem atomically_change_bind {g : σ → σ} {f : Unit → Prog σ L α} {x' : τ}
    (hg : ∀ s, ly.ok s → ly.part c s = x →
      ly.ok (g s) ∧ (∀ d, d ≠ c → ly.part d (g s) = ly.part d s) ∧ ly.part c (g s) = x')
    (hf : Atomically ly (some (c, x', y)) (f ()) P) : Atomically ly (some (c, x, y)) (Prog.modify g >>= f) P := by
  intro s hs hx
  obtain ⟨hok, hother, hpart⟩ := hg s hs hx
  refine ⟨hok, hother, ?_⟩
  rw [hpart]
  exact hf

/-- The end of a critical section, with the part where the access has brought it. -/
theorem atomically_end_bind {l : L} {f : Unit → Prog σ L α} (hl : ly.of l = some c) (hf : Atomically ly none (f ()) P) :
    Atomically ly (some (c, x, x)) (Prog.release l >>= f) P := by
  change Atomically ly (some (c, x, x)) (.unlock l (f ())) P
  simp only [Atomically, if_pos hl]
  exact ⟨trivial, hf⟩

end Rules

/-! ## Inside a critical section -/

/-- Inside a critical section for the part `c` the program, from where the part stands at `x`, answers `b` and brings the
part to `x'`; it sees nothing else and leaves the other parts alone. -/
def Within (ly : Layout σ κ τ L) (c : κ) : Prog σ L β → τ → β → τ → Prop
  | .ret b', x, b, x' => b' = b ∧ x = x'
  | .act upd k, x, b, x' => ∀ s, ly.ok s → ly.part c s = x →
    ly.ok (upd s) ∧ (∀ d, d ≠ c → ly.part d (upd s) = ly.part d s) ∧ Within ly c (k s) (ly.part c (upd s)) b x'
  | .lock l k, x, b, x' => ly.of l = none ∧ Within ly c k x b x'
  | .unlock l k, x, b, x' => ly.of l = none ∧ Within ly c k x b x'

section Within

variable {γ : Type} {P : Prog (κ → τ) Empty α} {c : κ} {x x' x'' y : τ} {b : β} {a : γ}

omit [DecidableEq κ] in
theorem within_pure (b : β) : Within ly c (pure b : Prog σ L β) x b x := ⟨rfl, rfl⟩

omit [DecidableEq κ] in
theorem within_bind' {p : Prog σ L β} {f : β → Prog σ L γ} (hp : Within ly c p x b x')
    (hf : Within ly c (f b) x' a x'') : Within ly c (p.bind f) x a x'' := by
  induction p generalizing x with
  | ret b' =>
    obtain ⟨rfl, rfl⟩ := hp
    exact hf
  | act upd k ih =>
    intro s hs hx
    obtain ⟨hok, hother, hk⟩ := hp s hs hx
    exact ⟨hok, hother, ih s hk⟩
  | lock l k ih => exact ⟨hp.1, ih hp.2⟩
  | unlock l k ih => exact ⟨hp.1, ih hp.2⟩

omit [DecidableEq κ] in
/-- A sequence inside a critical section. -/
theorem within_bind {p : Prog σ L β} {f : β → Prog σ L γ} (hp : Within ly c p x b x')
    (hf : Within ly c (f b) x' a x'') : Within ly c (p >>= f) x a x'' := within_bind' hp hf

omit [DecidableEq κ] in
/-- A look at the state. -/
theorem within_read {g : σ → β} (hg : ∀ s, ly.ok s → ly.part c s = x → g s = b) :
    Within ly c (Prog.read g : Prog σ L β) x b x := by
  intro s hs hx
  exact ⟨hs, fun _ _ => rfl, hg s hs hx, hx⟩

omit [DecidableEq κ] in
/-- A change of the part. -/
theorem within_modify {g : σ → σ} (hg : ∀ s, ly.ok s → ly.part c s = x →
    ly.ok (g s) ∧ (∀ d, d ≠ c → ly.part d (g s) = ly.part d s) ∧ ly.part c (g s) = x') :
    Within ly c (Prog.modify g : Prog σ L Unit) x () x' := by
  intro s hs hx
  obtain ⟨hok, hother, hpart⟩ := hg s hs hx
  exact ⟨hok, hother, rfl, hpart⟩

/-- What is done inside goes between the start and the end of a critical section. -/
theorem atomically_within_bind {p : Prog σ L β} {f : β → Prog σ L α} (hp : Within ly c p x b x')
    (hf : Atomically ly (some (c, x', y)) (f b) P) : Atomically ly (some (c, x, y)) (p >>= f) P := by
  induction p generalizing x with
  | ret b' =>
    obtain ⟨rfl, rfl⟩ := hp
    exact hf
  | act upd k ih =>
    intro s hs hx
    obtain ⟨hok, hother, hk⟩ := hp s hs hx
    exact ⟨hok, hother, ih s hk⟩
  | lock l k ih => exact ⟨hp.1, ih hp.2⟩
  | unlock l k ih =>
    have hne : ly.of l ≠ some c := fun e => by rw [hp.1] at e; cases e
    change Atomically ly (some (c, x, y)) (.unlock l (k.bind f)) P
    simp only [Atomically, if_neg hne]
    exact ⟨hp.1, ih hp.2⟩

end Within

/-! ## Threads that call -/

/-- A thread that makes calls and goes on from what they answer. -/
inductive Client (Call : Type) (Answer : Call → Type)
  | done
  | ask (call : Call) (next : Answer call → Client Call Answer)

section Clients

variable {Call : Type} {Answer : Call → Type}

/-- What the thread executes, if a call executes `code`. -/
def Client.prog (code : ∀ call, Prog σ L (Answer call)) : Client Call Answer → Prog σ L Unit
  | done => return
  | ask call next => code call >>= fun a => (next a).prog code

/-- A thread does part by part what it does if each call does. -/
theorem atomically_client {code : ∀ call, Prog σ L (Answer call)} {spec : ∀ call, Prog (κ → τ) Empty (Answer call)}
    (h : ∀ call, Atomically ly none (code call) (spec call)) (client : Client Call Answer) :
    Atomically ly none (client.prog code) (client.prog spec) := by
  induction client with
  | done => exact atomically_pure _
  | ask call next ih => exact atomically_bind (h call) ih

end Clients

/-! ## Pools -/

namespace Pool

/-- The pool `C` over the parts has done what the pool `c` has done or, in a critical section, is about to do. -/
structure Ahead (ly : Layout σ κ τ L) (c : Pool ι σ L) (C : Pool ι (κ → τ) Empty) : Prop where
  ok : ly.ok c.state
  free : ∀ d, (∀ l, ly.of l = some d → c.holder l = none) → C.state d = ly.part d c.state
  thread : ∀ i, ∃ h, Atomically ly h (c.prog i) (C.prog i) ∧
    (∀ d x y, h = some (d, x, y) → (∃ l, ly.of l = some d ∧ c.holder l = some i) ∧
      ly.part d c.state = x ∧ C.state d = y) ∧
    ∀ l d, ly.of l = some d → c.holder l = some i → ∃ x y, h = some (d, x, y)

theorem ahead_start {prog : ι → Prog σ L Unit} {P : ι → Prog (κ → τ) Empty Unit} {s : σ}
    (h : ∀ i, Atomically ly none (prog i) (P i)) (hs : ly.ok s) :
    Ahead ly (.start prog s) (.start P (ly.parts s)) where
  ok := hs
  free := fun _ _ => rfl
  thread := fun i => ⟨none, h i, by rintro _ _ _ ⟨⟩, by rintro _ _ _ ⟨⟩⟩

variable {c c' : Pool ι σ L} {C : Pool ι (κ → τ) Empty}

/-- A thread that has ended is in no critical section. -/
theorem Ahead.ended (h : Ahead ly c C) {i : ι} (hi : c.prog i = .ret ()) :
    C.prog i = .ret () ∧ ∀ l d, ly.of l = some d → c.holder l ≠ some i := by
  obtain ⟨mode, hat, -, hholds⟩ := h.thread i
  rw [hi] at hat
  obtain ⟨rfl, hret⟩ := hat
  refine ⟨hret, fun l d hl hheld => ?_⟩
  obtain ⟨x, y, e⟩ := hholds l d hl hheld
  cases e

variable [DecidableEq ι]

theorem update_prog_self (c : Pool ι σ L) (i : ι) : (⟨update c.prog i (c.prog i), c.holder, c.state⟩ : Pool ι σ L) = c := by
  rw [update_eq_self]

/-- One thread goes on, in both pools; for the others nothing changes. -/
theorem Ahead.goOn (h : Ahead ly c C) {i : ι} {p : Prog σ L Unit} {P : Prog (κ → τ) Empty Unit}
    {holder : L → Option ι} {s : σ} {t : κ → τ} {mode : Option (κ × τ × τ)} (hok : ly.ok s)
    (hfree : ∀ d, (∀ l, ly.of l = some d → holder l = none) → t d = ly.part d s) (hp : Atomically ly mode p P)
    (hin : ∀ d x y, mode = some (d, x, y) →
      (∃ l, ly.of l = some d ∧ holder l = some i) ∧ ly.part d s = x ∧ t d = y)
    (hholds : ∀ l d, ly.of l = some d → holder l = some i → ∃ x y, mode = some (d, x, y))
    (hsame : ∀ j, j ≠ i → ∀ l d, ly.of l = some d → (holder l = some j ↔ c.holder l = some j))
    (hapart : ∀ j, j ≠ i → ∀ l d, ly.of l = some d → c.holder l = some j →
      ly.part d s = ly.part d c.state ∧ t d = C.state d) :
    Ahead ly ⟨update c.prog i p, holder, s⟩ ⟨update C.prog i P, C.holder, t⟩ where
  ok := hok
  free := hfree
  thread := by
    intro j
    by_cases hj : j = i
    · subst hj
      exact ⟨mode, by simpa using hp, hin, hholds⟩
    · obtain ⟨modej, hatj, hinj, hholdsj⟩ := h.thread j
      refine ⟨modej, by simpa [hj] using hatj, fun d x y e => ?_, fun l d hl hheld => ?_⟩
      · obtain ⟨⟨l, hl, hheld⟩, hx, hy⟩ := hinj d x y e
        obtain ⟨hpart, ht⟩ := hapart j hj l d hl hheld
        exact ⟨⟨l, hl, (hsame j hj l d hl).mpr hheld⟩, hpart.trans hx, ht.trans hy⟩
      · exact hholdsj l d hl ((hsame j hj l d hl).mp hheld)

/-- An action outside critical sections. -/
theorem Ahead.outside (h : Ahead ly c C) {i : ι} {upd : σ → σ} {k : σ → Prog σ L Unit} (hp : c.prog i = .act upd k)
    (hat : Atomically ly none (c.prog i) (C.prog i)) (hholds : ∀ l d, ly.of l = some d → c.holder l ≠ some i) :
    Ahead ly ⟨update c.prog i (k c.state), c.holder, upd c.state⟩ C := by
  rw [hp] at hat
  obtain ⟨hok, hpart, hk⟩ := hat c.state h.ok
  rw [← C.update_prog_self i]
  refine h.goOn hok (fun d hd => (h.free d hd).trans (hpart d).symm) hk (by rintro _ _ _ ⟨⟩) ?_
    (fun _ _ _ _ _ => Iff.rfl) fun _ _ _ d _ _ => ⟨hpart d, rfl⟩
  intro l d hl hheld
  exact absurd hheld (hholds l d hl)

/-- An action in a critical section. -/
theorem Ahead.inside (h : Ahead ly c C) {i : ι} {upd : σ → σ} {k : σ → Prog σ L Unit} {l : L} {d : κ} {x : τ}
    (hp : c.prog i = .act upd k) (hat : Atomically ly (some (d, x, C.state d)) (c.prog i) (C.prog i))
    (hl : ly.of l = some d) (hheld : c.holder l = some i) (hx : ly.part d c.state = x)
    (hholds : ∀ l d', ly.of l = some d' → c.holder l = some i → d' = d) :
    Ahead ly ⟨update c.prog i (k c.state), c.holder, upd c.state⟩ C := by
  rw [hp] at hat
  obtain ⟨hok, hpart, hk⟩ := hat c.state h.ok hx
  rw [← C.update_prog_self i]
  refine h.goOn hok (fun e he => ?_) hk ?_ (fun l' e hl' hheld' => ?_) (fun _ _ _ _ _ => Iff.rfl)
    fun j hj l' e hl' hheld' => ?_
  · have hne : e ≠ d := by
      rintro rfl
      rw [he l hl] at hheld
      cases hheld
    exact (h.free e he).trans (hpart e hne).symm
  · rintro _ _ _ ⟨⟩
    exact ⟨⟨l, hl, hheld⟩, rfl, rfl⟩
  · obtain rfl := hholds l' e hl' hheld'
    exact ⟨_, _, rfl⟩
  · -- another thread is in the critical section of another part
    have hne : e ≠ d := by
      rintro rfl
      rw [ly.unique hl' hl, hheld] at hheld'
      exact hj (Option.some.inj hheld').symm
    exact ⟨hpart e hne, rfl⟩

variable [DecidableEq L]

omit [DecidableEq κ] [DecidableEq ι] in
/-- A lock that protects another part, or none, is held as before. -/
theorem holder_update_of_ne {holder : L → Option ι} {l l' : L} {owner : Option ι} {e : κ} (hl' : ly.of l' = some e)
    (hne : ly.of l ≠ some e) : update holder l owner l' = holder l' := by
  refine update_of_ne ?_ _ _
  rintro rfl
  exact hne hl'

/-- A thread takes or drops a lock that protects no part. -/
theorem Ahead.otherLock (h : Ahead ly c C) {i : ι} {p : Prog σ L Unit} {l : L} {owner : Option ι} (hl : ly.of l = none)
    (hp : ∀ mode, Atomically ly mode (c.prog i) (C.prog i) → Atomically ly mode p (C.prog i)) :
    Ahead ly ⟨update c.prog i p, update c.holder l owner, c.state⟩ C := by
  obtain ⟨mode, hat, hin, hholds⟩ := h.thread i
  have hsame : ∀ l' d, ly.of l' = some d → update c.holder l owner l' = c.holder l' := fun l' d hl' =>
    holder_update_of_ne hl' (by rw [hl]; rintro ⟨⟩)
  rw [← C.update_prog_self i]
  refine h.goOn h.ok (fun d hd => ?_) (hp mode hat) (fun d x y e => ?_) (fun l' d hl' hheld => ?_)
    (fun j _ l' d hl' => by rw [hsame l' d hl']) fun _ _ _ _ _ _ => ⟨rfl, rfl⟩
  · exact h.free d fun l' hl' => (hsame l' d hl') ▸ hd l' hl'
  · obtain ⟨⟨l', hl', hheld⟩, hxy⟩ := hin d x y e
    exact ⟨⟨l', hl', (hsame l' d hl').trans hheld⟩, hxy⟩
  · exact hholds l' d hl' ((hsame l' d hl') ▸ hheld)

/-- A critical section begins: the pool over the parts makes it. -/
theorem Ahead.enter (h : Ahead ly c C) {i : ι} {k : Prog σ L Unit} {l : L} {d : κ} (hl : ly.of l = some d)
    (hp : c.prog i = .lock l k) (hfree : c.holder l = none) (hat : Atomically ly none (c.prog i) (C.prog i))
    (hholds : ∀ l d, ly.of l = some d → c.holder l ≠ some i) :
    ∃ C', C.step i = some C' ∧ Ahead ly ⟨update c.prog i k, update c.holder l (some i), c.state⟩ C' := by
  rw [hp] at hat
  simp only [Atomically, hl] at hat
  obtain ⟨U, K, hP, hsec⟩ := hat
  obtain ⟨hother, hk⟩ := hsec C.state
  have hnone : ∀ l', ly.of l' = some d → c.holder l' = none := fun l' hl' => ly.unique hl' hl ▸ hfree
  have hne : ∀ e, e ≠ d → ly.of l ≠ some e := fun e he hle => he (Option.some.inj (hle.symm.trans hl))
  refine ⟨⟨update C.prog i (K C.state), C.holder, U C.state⟩, by simp only [step, hP], ?_⟩
  rw [h.free d hnone] at hk
  refine h.goOn h.ok (fun e he => ?_) hk ?_ (fun l' e hl' hheld => ?_) (fun j hj l' e hl' => ?_)
    fun j hj l' e hl' hheld => ⟨rfl, hother e ?_⟩
  · have hed : e ≠ d := by
      rintro rfl
      have hheld := he l hl
      rw [update_self] at hheld
      cases hheld
    rw [hother e hed]
    refine h.free e fun l' hl' => ?_
    have hfree' := he l' hl'
    rwa [holder_update_of_ne hl' (hne e hed)] at hfree'
  · rintro _ _ _ ⟨⟩
    exact ⟨⟨l, hl, update_self _ _ _⟩, rfl, rfl⟩
  · by_cases hed : e = d
    · subst hed
      exact ⟨_, _, rfl⟩
    · rw [holder_update_of_ne hl' (hne e hed)] at hheld
      exact absurd hheld (hholds l' e hl')
  · by_cases hed : e = d
    · subst hed
      rw [ly.unique hl' hl, update_self, hfree]
      simp [Ne.symm hj]
    · rw [holder_update_of_ne hl' (hne e hed)]
  · rintro rfl
    rw [hnone l' hl'] at hheld
    cases hheld

/-- A critical section ends, with its part where the pool over the parts has brought it. -/
theorem Ahead.leave (h : Ahead ly c C) {i : ι} {k : Prog σ L Unit} {l : L} {d : κ} (hl : ly.of l = some d)
    (hk : Atomically ly none k (C.prog i)) (hx : ly.part d c.state = C.state d) (hheld : c.holder l = some i)
    (hholds : ∀ l d', ly.of l = some d' → c.holder l = some i → d' = d) :
    Ahead ly ⟨update c.prog i k, update c.holder l none, c.state⟩ C := by
  have hne : ∀ e, e ≠ d → ly.of l ≠ some e := fun e he hle => he (Option.some.inj (hle.symm.trans hl))
  rw [← C.update_prog_self i]
  refine h.goOn h.ok (fun e he => ?_) hk (by rintro _ _ _ ⟨⟩) (fun l' e hl' hheld' => ?_) (fun j hj l' e hl' => ?_)
    fun _ _ _ _ _ _ => ⟨rfl, rfl⟩
  · by_cases hed : e = d
    · subst hed
      exact hx.symm
    · refine h.free e fun l' hl' => ?_
      have hfree := he l' hl'
      rwa [holder_update_of_ne hl' (hne e hed)] at hfree
  · by_cases hed : e = d
    · subst hed
      rw [ly.unique hl' hl, update_self] at hheld'
      cases hheld'
    · rw [holder_update_of_ne hl' (hne e hed)] at hheld'
      exact absurd (hholds l' e hl' hheld') hed
  · by_cases hed : e = d
    · subst hed
      rw [ly.unique hl' hl, update_self, hheld]
      simp [Ne.symm hj]
    · rw [holder_update_of_ne hl' (hne e hed)]

/-- One step of any thread: the pool over the parts makes the critical section that begins, and nothing at other steps. -/
theorem Ahead.step (h : Ahead ly c C) {i : ι} (hstep : c.step i = some c') :
    ∃ sched C', List.Sublist sched [i] ∧ runs sched C = some C' ∧ Ahead ly c' C' := by
  obtain ⟨mode, hat, hin, hholds⟩ := h.thread i
  have stay : Ahead ly c' C → ∃ sched C', List.Sublist sched [i] ∧ runs sched C = some C' ∧ Ahead ly c' C' :=
    fun h' => ⟨[], C, List.nil_sublist _, rfl, h'⟩
  have hout : mode = none → ∀ l d, ly.of l = some d → c.holder l ≠ some i := by
    rintro rfl l d hl hheld
    obtain ⟨_, _, e⟩ := hholds l d hl hheld
    cases e
  have hone : ∀ d x y, mode = some (d, x, y) → ∀ l d', ly.of l = some d' → c.holder l = some i → d' = d := by
    rintro d x y rfl l d' hl hheld
    obtain ⟨_, _, e⟩ := hholds l d' hl hheld
    cases e
    rfl
  rcases step_cases hstep with ⟨upd, k, hp, rfl⟩ | ⟨l, k, hp, hfree, rfl⟩ | ⟨l, k, hp, rfl⟩
  · cases mode with
    | none => exact stay (h.outside hp hat (hout rfl))
    | some m =>
      obtain ⟨d, x, y⟩ := m
      obtain ⟨⟨l, hl, hheld⟩, hx, rfl⟩ := hin d x y rfl
      exact stay (h.inside hp hat hl hheld hx (hone d x _ rfl))
  · cases hl : ly.of l with
    | none =>
      refine stay (h.otherLock hl fun m hm => ?_)
      rw [hp] at hm
      cases m with
      | none => simpa only [Atomically, hl] using hm
      | some m => exact hm.2
    | some d =>
      cases mode with
      | none =>
        obtain ⟨C', hstep', h'⟩ := h.enter hl hp hfree hat (hout rfl)
        exact ⟨[i], C', List.Sublist.refl _, by rw [runs, hstep']; rfl, h'⟩
      | some m =>
        rw [hp] at hat
        rw [hat.1] at hl
        cases hl
  · cases hl : ly.of l with
    | none =>
      refine stay (h.otherLock hl fun m hm => ?_)
      rw [hp] at hm
      cases m with
      | none => exact hm.2
      | some m =>
        have hne : ly.of l ≠ some m.1 := by rw [hl]; rintro ⟨⟩
        simp only [Atomically, if_neg hne] at hm
        exact hm.2
    | some d =>
      rw [hp] at hat
      cases mode with
      | none =>
        rw [hat.1] at hl
        cases hl
      | some m =>
        obtain ⟨e, x, y⟩ := m
        obtain ⟨⟨l', hl', hheld⟩, hx, rfl⟩ := hin e x y rfl
        by_cases hle : ly.of l = some e
        · simp only [Atomically, if_pos hle] at hat
          rw [ly.unique hl' hle] at hheld
          exact stay (h.leave hle hat.2 (hx.trans hat.1) hheld (hone e x _ rfl))
        · simp only [Atomically, if_neg hle] at hat
          rw [hat.1] at hl
          cases hl

omit [DecidableEq κ] in
/-- One schedule after another. -/
theorem runs_seq (as : List ι) {bs : List ι} : ∀ {c c₁ c₂ : Pool ι σ L}, Pool.runs as c = some c₁ →
    Pool.runs bs c₁ = some c₂ → Pool.runs (as ++ bs) c = some c₂ := by
  induction as with
  | nil =>
    rintro c c₁ c₂ ⟨⟩ h
    exact h
  | cons i as ih =>
    intro c c₁ c₂ h h'
    obtain ⟨c', hstep, hrest⟩ := Option.bind_eq_some_iff.mp h
    show (c.step i).bind (Pool.runs (as ++ bs)) = some c₂
    rw [hstep]
    exact ih hrest h'

/-- Every schedule: the pool over the parts takes some of its steps, in their order. -/
theorem Ahead.runs {sched : List ι} : ∀ {c : Pool ι σ L} {C : Pool ι (κ → τ) Empty}, Ahead ly c C →
    Pool.runs sched c = some c' →
    ∃ sched' C', List.Sublist sched' sched ∧ Pool.runs sched' C = some C' ∧ Ahead ly c' C' := by
  induction sched with
  | nil =>
    rintro c C h ⟨⟩
    exact ⟨[], C, List.Sublist.refl _, rfl, h⟩
  | cons i sched ih =>
    intro c C h hrun
    obtain ⟨c₁, h₁, h₂⟩ := Option.bind_eq_some_iff.mp hrun
    obtain ⟨s₁, C₁, hsub₁, hrun₁, hahead₁⟩ := h.step h₁
    obtain ⟨s₂, C₂, hsub₂, hrun₂, hahead₂⟩ := ih hahead₁ h₂
    exact ⟨s₁ ++ s₂, C₂, hsub₁.append hsub₂, runs_seq s₁ hrun₁ hrun₂, hahead₂⟩

/-- **Critical sections are atomic**: under every schedule the pool over the parts can take some of the steps, in their
order, and be where the pool is: a part whose lock is free is the same, and who has ended there has ended here. -/
theorem atomic {prog : ι → Prog σ L Unit} {P : ι → Prog (κ → τ) Empty Unit} {s : σ} {sched : List ι}
    (h : ∀ i, Atomically ly none (prog i) (P i)) (hs : ly.ok s) (hrun : Pool.runs sched (.start prog s) = some c') :
    ∃ sched' C, List.Sublist sched' sched ∧ Pool.runs sched' (.start P (ly.parts s)) = some C ∧
      (∀ d, (∀ l, ly.of l = some d → c'.holder l = none) → C.state d = ly.part d c'.state) ∧
      (∀ i, c'.prog i = .ret () → C.prog i = .ret ()) ∧
      ((∀ i, c'.prog i = .ret ()) → C.state = ly.parts c'.state) := by
  obtain ⟨sched', C, hsub, hrun', hahead⟩ := (ahead_start h hs).runs hrun
  refine ⟨sched', C, hsub, hrun', hahead.free, fun i hi => (hahead.ended hi).1, fun hall => funext fun d => ?_⟩
  refine hahead.free d fun l hl => ?_
  cases hheld : c'.holder l with
  | none => rfl
  | some i => exact absurd hheld ((hahead.ended (hall i)).2 l d hl)

end Pool

end LockProg
