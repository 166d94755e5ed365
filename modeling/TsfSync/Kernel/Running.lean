import TsfSync.Lib.Interference
import TsfSync.Kernel.Drift
import TsfSync.Kernel.Frames

/-!
# Clocks that run

The TSF counters go on by themselves while the functions of the module run (`World.tick`): any number of ticks of other
threads may come between two actions. Beside the kernel there are the time and how far each counter has gone (`Clocks`);
a tick leaves each counter within `δ` microseconds of the time (`InStep`).

What a counter shows is what it was last set to, which no tick changes (`World.base`), and how far it has gone. So a tick,
and everything that neither sets a TSF nor changes the setup, makes time pass and nothing else (`Passes`), and what was
read of a counter remains a reading of it (`Reading`).
-/

namespace TsfSync

open LockProg MachineWord

namespace Running

/-- The time in microseconds, how far the counter of each card has gone, and how much time the calls that are metered
have taken. -/
structure Clocks where
  now : Nat
  gone : CardPtr → Nat
  metered : Nat

/-- The module and its clocks. -/
abbrev World := Kernel × Clocks

/-- Time that passes, and how far each counter goes in it. -/
structure Tick where
  elapsed : Nat
  gone : CardPtr → Nat

/-- Every counter of a listed card has gone as far as time has passed, up to `δ`. -/
def InStep (δ : Nat) (w : World) : Prop := ∀ c ∈ w.1.cardsList.ptrs, |(w.2.gone c : Int) - w.2.now| ≤ δ

instance (δ : Nat) (w : World) : Decidable (InStep δ w) := by unfold InStep; infer_instance

namespace World

/-- The counters go on. -/
def tick (w : World) (t : Tick) : World :=
  (w.1.advance fun c => (w.1.card c).hw.tsf + UInt64.ofNat (t.gone c),
    { w.2 with now := w.2.now + t.elapsed, gone := fun c => w.2.gone c + t.gone c })

/-- What a counter would show if it had not gone on. -/
def base (w : World) (c : CardPtr) : UInt64 := (w.1.card c).hw.tsf - UInt64.ofNat (w.2.gone c)

end World

/-- A function of the module where the clocks run. -/
abbrev WProg := Prog World LockId

/-- Time passes, unless a counter would be out of step then. -/
def passTime (δ : Nat) (t : Tick) : WProg Unit := Prog.modify fun w => if InStep δ (w.tick t) then w.tick t else w

/-- What the other threads do: they let time pass, and look at clocks. -/
inductive Bystander
  | passTime (t : Tick)
  | gettime (c : CardPtr)
  | getcrosststamp (c : CardPtr)
  | chardevRead (mem : UserMem) (count : Nat)

/-- The code of a bystander. -/
def Bystander.prog (δ : Nat) : Bystander → WProg Unit
  | .passTime t => Running.passTime δ t
  | .gettime c => Prog.besides do let _ ← tsfPtpGettime c
  | .getcrosststamp c => Prog.besides do let _ ← tsfPtpGetcrosststamp c
  | .chardevRead mem count => Prog.besides do let _ ← tsfSyncChardevRead mem count

/-! ## Time passes -/

/-- Time has passed, and nothing else. -/
structure Passes (δ : Nat) (w w' : World) : Prop where
  setup : SameSetup w.1 w'.1
  base : ∀ c, w'.base c = w.base c
  now : w.2.now ≤ w'.2.now
  gone : ∀ c, w.2.gone c ≤ w'.2.gone c
  metered : w'.2.metered = w.2.metered
  inStep : InStep δ w → InStep δ w'

variable {δ : Nat} {w w' w'' : World} {c : CardPtr}

theorem Passes.refl (δ : Nat) (w : World) : Passes δ w w := 
  ⟨.refl _, fun _ => rfl, Nat.le_refl _, fun _ => Nat.le_refl _, rfl, id⟩

theorem Passes.trans (h : Passes δ w w') (h' : Passes δ w' w'') : Passes δ w w'' where
  setup := h.setup.trans h'.setup
  base := fun c => (h'.base c).trans (h.base c)
  now := h.now.trans h'.now
  gone := fun c => (h.gone c).trans (h'.gone c)
  metered := h'.metered.trans h.metered
  inStep := h'.inStep ∘ h.inStep

instance : Std.Refl (Passes δ) := ⟨Passes.refl δ⟩

instance : IsTrans World (Passes δ) := ⟨fun _ _ _ => Passes.trans⟩

theorem tsf_eq (w : World) (c : CardPtr) : (w.1.card c).hw.tsf = w.base c + UInt64.ofNat (w.2.gone c) := by
  simp only [World.base]
  grind

theorem base_tick (w : World) (t : Tick) (c : CardPtr) : (w.tick t).base c = w.base c := by
  simp only [World.base, World.tick, Kernel.advance, UInt64.ofNat_add]
  grind

theorem passes_tick (w : World) (t : Tick) (h : InStep δ (w.tick t)) : Passes δ w (w.tick t) where
  setup := sameSetup_advance _ _
  base := base_tick w t
  now := Nat.le_add_right ..
  gone := fun _ => Nat.le_add_right ..
  metered := rfl
  inStep := fun _ => h

/-- What a change of the kernel must leave alone if it is to let time pass only. -/
theorem passes_kernel {s : Kernel} (hsetup : SameSetup w.1 s) (htsf : ∀ c, (s.card c).hw.tsf = (w.1.card c).hw.tsf) :
    Passes δ w (s, w.2) where
  setup := hsetup
  base := fun c => by simp only [World.base, htsf]
  now := Nat.le_refl _
  gone := fun _ => Nat.le_refl _
  metered := rfl
  inStep := fun h c hc => h c (by rwa [hsetup.cardsList] at hc)

/-! ## Functions that set no TSF -/

/-- What a function that sets no TSF leaves alone. -/
def tsfView (s : Kernel) : CardsList × UInt32 × List UInt8 × (CardPtr → Option DevId × CStr 32 × Hw) :=
  (s.cardsList, s.adjtimeThresholdNs, s.syncPrimary, fun c => ((s.card c).vif, (s.card c).phyName, (s.card c).hw))

theorem passes_of_tsfView {s : Kernel} (h : tsfView s = tsfView w.1) : Passes δ w (s, w.2) := by
  simp only [tsfView, Prod.mk.injEq] at h
  obtain ⟨hlist, hthr, hprimary, hcards⟩ := h
  have hcard : ∀ c, (s.card c).vif = (w.1.card c).vif ∧ (s.card c).phyName = (w.1.card c).phyName ∧
      (s.card c).hw = (w.1.card c).hw := fun c => by simpa using congrFun hcards c
  refine passes_kernel ⟨hlist, hthr, hprimary, fun c => ?_⟩ fun c => by rw [(hcard c).2.2]
  exact ⟨(hcard c).1, (hcard c).2.1, by rw [(hcard c).2.2]⟩

theorem moves_besides {α : Type} {p : KProg α} (hp : Frames tsfView p) : Moves (Passes δ) (Prog.besides p : WProg α) := by
  induction p with
  | ret a => trivial
  | act upd k ih => exact fun w => ⟨passes_of_tsfView (hp w.1).1, ih w.1 (hp w.1).2⟩
  | lock l k ih => exact ih hp
  | unlock l k ih => exact ih hp

theorem frames_getTsf (c : CardPtr) (vif : DevId) : Frames tsfView (tsfPtpCallGetTsf c vif) := by
  refine frames_read_bind fun card => ?_
  cases card.hw.ops.getTsf
  · exact trivial
  · exact fun s => ⟨rfl, trivial⟩

theorem frames_writeCard (c : CardPtr) {f : Card → Card} (hf : ∀ k, (f k).vif = k.vif ∧ (f k).phyName = k.phyName ∧
    (f k).hw = k.hw) : Frames tsfView (writeCard c f) := by
  refine frames_modify fun s => ?_
  have hcards : (fun d => (((s.setCard c f).card d).vif, ((s.setCard c f).card d).phyName, ((s.setCard c f).card d).hw)) =
      fun d => ((s.card d).vif, (s.card d).phyName, (s.card d).hw) := by
    funext d
    by_cases hd : d = c
    · subst hd
      obtain ⟨hv, hn, hh⟩ := hf (s.card d)
      rw [Kernel.setCard_self, hv, hn, hh]
    · rw [Kernel.setCard_ne _ _ hd]
  simp only [tsfView, hcards]
  rfl

theorem frames_snapshot (i : Nat) (c : CardPtr) : Frames tsfView (takeSnapshot i c) := by
  refine frames_read_bind fun k => frames_acquire_bind (frames_read_bind fun k' => ?_)
  cases k'.vif with
  | none => exact trivial
  | some vif =>
    refine frames_acquire_bind (frames_bind (frames_getTsf c vif) fun _ => ?_)
    exact frames_release_bind (frames_read_bind fun _ => trivial)

theorem frames_snapshots (n : Nat) : ∀ (cards : List CardPtr) (i : Nat), Frames tsfView (snapshotLoop n i cards)
  | [], _ => trivial
  | c :: cards, i => by
    unfold snapshotLoop
    split
    · trivial
    · exact frames_bind (frames_snapshot i c) fun _ => frames_bind (frames_snapshots n cards (i + 1)) fun _ => trivial

theorem frames_read (mem : UserMem) (count : Nat) : Frames tsfView (tsfSyncChardevRead mem count) := by
  refine frames_acquire_bind (frames_read_bind fun cards => ?_)
  dsimp only
  split
  · trivial
  split
  · trivial
  refine frames_bind (frames_snapshots _ cards 0) fun _ => frames_release_bind ?_
  split <;> trivial

/-- **A bystander lets time pass, and nothing else.** -/
theorem moves_bystander (b : Bystander) : Moves (Passes δ) (b.prog δ) := by
  cases b with
  | passTime t =>
    refine fun w => ⟨?_, trivial⟩
    show Passes δ w (if InStep δ (w.tick t) then w.tick t else w)
    split
    · rename_i h
      exact passes_tick w t h
    · exact .refl δ w
  | gettime c =>
    refine moves_besides (frames_bind (frames_acquire_bind (frames_read_bind fun k => ?_)) fun _ => trivial)
    cases k.vif with
    | none => exact trivial
    | some vif => exact frames_acquire_bind (frames_bind (frames_getTsf c vif) fun _ => trivial)
  | getcrosststamp c =>
    refine moves_besides (frames_bind (frames_acquire_bind (frames_read_bind fun k => ?_)) fun _ => trivial)
    cases k.vif with
    | none => exact trivial
    | some vif =>
      refine frames_acquire_bind (frames_read_bind fun raw => ?_)
      exact frames_bind (frames_getTsf c vif) fun _ => frames_read_bind fun _ => trivial
  | chardevRead mem count => exact moves_besides (frames_bind (frames_read mem count) fun _ => trivial)

/-! ## Readings -/

/-- A value is what the counter of the card `c` showed at a time `t` since `w₀`, when it had gone as far as `x`. -/
structure Reading (δ : Nat) (w₀ w : World) (c : CardPtr) (x t : Nat) (tsf : UInt64) : Prop where
  value : tsf = w.base c + UInt64.ofNat x
  inStep : |(x : Int) - t| ≤ δ
  start : w₀.2.gone c ≤ x
  since : w₀.2.now ≤ t
  upTo : t ≤ w.2.now

theorem Reading.passes {w₀ : World} {x t : Nat} {tsf : UInt64} (h : Reading δ w₀ w c x t tsf) (hw : Passes δ w w') :
    Reading δ w₀ w' c x t tsf :=
  ⟨by rw [hw.base]; exact h.value, h.inStep, h.start, h.since, h.upTo.trans hw.now⟩

/-- What a counter shows now. -/
theorem reading_now {w₀ : World} (hstep : InStep δ w) (hc : c ∈ w.1.cardsList.ptrs) (hnow : w₀.2.now ≤ w.2.now)
    (hgone : w₀.2.gone c ≤ w.2.gone c) : Reading δ w₀ w c (w.2.gone c) w.2.now (w.1.card c).hw.tsf :=
  ⟨tsf_eq w c, hstep c hc, hgone, hnow, Nat.le_refl _⟩

/-! ## The driver's ops among running clocks -/

section Rules

variable {α : Type} {Q : α → World → Prop}

/-- A look at the kernel. -/
theorem wp_read {g : Kernel → α} (h : ∀ w', Passes δ w w' → Q (g w'.1) w') :
    Wp (Passes δ) Q (Prog.besides (Prog.read g) : WProg α) w := h

/-- A part that sets no TSF. -/
theorem wp_passes {p : KProg α} (hp : Frames tsfView p) (h : ∀ a w', Passes δ w w' → Q a w') :
    Wp (Passes δ) Q (Prog.besides p : WProg α) w :=
  ((moves_besides hp).wp (.refl δ w)).mono h

theorem wp_callGetTsf {Q : UInt64 → World → Prop} {vif : DevId} (hget : (w.1.card c).hw.ops.getTsf = true)
    (h : ∀ w' w'', Passes δ w w' → Passes δ w' w'' → Q (w'.1.card c).hw.tsf w'') :
    Wp (Passes δ) Q (Prog.besides (tsfPtpCallGetTsf c vif) : WProg UInt64) w := by
  refine wp_besides_bind (wp_read fun w₁ h₁ => ?_)
  rw [(h₁.setup.card c).2.2, hget]
  intro w₂ h₂
  exact h w₂ _ (h₁.trans h₂) (passes_of_tsfView rfl)

/-- The driver sets the TSF. -/
def World.setTsf (w : World) (c : CardPtr) (vif : DevId) (tsf : UInt64) : World :=
  ({ w.1.setCard c (fun k => { k with hw := { k.hw with tsf := tsf } }) with
    drv := w.1.drv ++ [.setTsf c vif tsf] }, w.2)

theorem wp_callSetTsf {Q : Unit → World → Prop} {vif : DevId} {tsf : UInt64}
    (hno : (w.1.card c).hw.ops.setTsf = false → ∀ w', Passes δ w w' → Q () w')
    (hset : (w.1.card c).hw.ops.setTsf = true → ∀ w', Passes δ w w' → Q () (w'.setTsf c vif tsf)) :
    Wp (Passes δ) Q (Prog.besides (tsfPtpCallSetTsf c vif tsf) : WProg Unit) w := by
  refine wp_besides_bind (wp_read fun w₁ h₁ => ?_)
  rw [(h₁.setup.card c).2.2]
  cases hs : (w.1.card c).hw.ops.setTsf with
  | false => exact hno hs w₁ h₁
  | true => exact fun w₂ h₂ => hset hs w₂ (h₁.trans h₂)

theorem sameSetup_setTsf (w : World) (c : CardPtr) (vif : DevId) (tsf : UInt64) :
    SameSetup w.1 (w.setTsf c vif tsf).1 := by
  obtain ⟨hl, ht, hp, hcard⟩ := SameSetup.setCard w.1 c
    (f := fun k => { k with hw := { k.hw with tsf := tsf } }) fun k => ⟨rfl, rfl, rfl⟩
  exact ⟨hl, ht, hp, hcard⟩

theorem base_setTsf_self (w : World) (c : CardPtr) (vif : DevId) (tsf : UInt64) :
    (w.setTsf c vif tsf).base c = tsf - UInt64.ofNat (w.2.gone c) := by
  simp [World.setTsf, World.base]

theorem base_setTsf_ne (w : World) {c d : CardPtr} (vif : DevId) (tsf : UInt64) (h : d ≠ c) :
    (w.setTsf c vif tsf).base d = w.base d := by
  have hcard : (w.setTsf c vif tsf).1.card d = w.1.card d :=
    w.1.setCard_ne (fun k => { k with hw := { k.hw with tsf := tsf } }) h
  rw [World.base, hcard]
  rfl

theorem Reading.setTsf {w₀ : World} {d : CardPtr} {x t : Nat} {tsf : UInt64} (h : Reading δ w₀ w d x t tsf) (hd : d ≠ c)
    (vif : DevId) (v : UInt64) : Reading δ w₀ (w.setTsf c vif v) d x t tsf :=
  ⟨by rw [base_setTsf_ne w vif v hd]; exact h.value, h.inStep, h.start, h.since, h.upTo⟩

end Rules

end Running

end TsfSync
