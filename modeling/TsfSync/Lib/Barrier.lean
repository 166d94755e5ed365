import Mathlib.Data.Fintype.Card
import Mathlib.Logic.Function.Basic

/-!
# Parties that meet at barriers

A barrier counts arrivals; the last of a generation starts the next one, and a party that arrived in a generation goes
on once the generation has changed (`Barrier`). When each party arrives at most once in a generation, the arrivals of
every party are those of the generation or one more, and the count is the number of parties that are one ahead
(`Barrier.Counts`); `Barrier.Counts.arrive` keeps that. So a generation that has begun was completed by everybody
(`lower`), and while a generation lasts somebody has not arrived (`behind`).

Parties that pass two barriers in turn, over and over, are a `Meeting`. What each has passed follows from where it
stands (`Phase.Fits`), and every move keeps that (`Meeting.Sound.move`). So nobody is outside while another party is
between the barriers (`Meeting.Sound.not_outside`), and while somebody is outside all have completed the same rounds
(`Meeting.Sound.arrived_of_outside`).
-/

namespace CyclicBarrier

open Finset Function

/-- How many parties have arrived in the current generation, and which generation it is; `arrived` records how often
each party has arrived in all. -/
structure Barrier (ι : Type) where
  size : Nat
  count : Nat
  generation : Nat
  arrived : ι → Nat

namespace Barrier

variable {ι : Type}

/-- A new barrier for so many parties. -/
def new (size : Nat) : Barrier ι := ⟨size, 0, 0, fun _ => 0⟩

/-- The parties that have arrived once more than there are generations. -/
def ahead [Fintype ι] (arrived : ι → Nat) (generation : Nat) : Finset ι :=
  univ.filter fun t => arrived t = generation + 1

/-- The barrier counts the parties that are one ahead of the generation; not all are. -/
structure Counts [Fintype ι] (b : Barrier ι) : Prop where
  size : b.size = Fintype.card ι
  lower : ∀ t, b.generation ≤ b.arrived t
  upper : ∀ t, b.arrived t ≤ b.generation + 1
  count : b.count = #(ahead b.arrived b.generation)
  behind : ∃ t, b.arrived t = b.generation

/-- When all parties are ahead they number as many as there are. -/
theorem card_ahead_eq_iff [Fintype ι] {arrived : ι → Nat} {g : Nat} :
    #(ahead arrived g) = Fintype.card ι ↔ ∀ t, arrived t = g + 1 := by
  rw [card_eq_iff_eq_univ, eq_univ_iff_forall]
  simp [ahead]

theorem counts_new [Fintype ι] [Nonempty ι] {size : Nat} (h : size = Fintype.card ι) :
    (new size : Barrier ι).Counts where
  size := h
  lower := fun _ => Nat.le_refl 0
  upper := fun _ => Nat.zero_le 1
  count := by simp [new, ahead]
  behind := ⟨Classical.arbitrary ι, rfl⟩

variable [DecidableEq ι]

/-- A party arrives; the last one starts the next generation. -/
def arrive (t : ι) (b : Barrier ι) : Barrier ι :=
  if b.count + 1 < b.size then ⟨b.size, b.count + 1, b.generation, update b.arrived t (b.arrived t + 1)⟩
  else ⟨b.size, 0, b.generation + 1, update b.arrived t (b.arrived t + 1)⟩

@[simp] theorem arrived_arrive (t : ι) (b : Barrier ι) :
    (b.arrive t).arrived = update b.arrived t (b.arrived t + 1) := by
  unfold arrive; split <;> rfl

/-- Generations only grow. -/
theorem generation_le_arrive (t : ι) (b : Barrier ι) : b.generation ≤ (b.arrive t).generation := by
  unfold arrive
  split
  · exact Nat.le_refl _
  · exact Nat.le_succ _

variable [Fintype ι] {b : Barrier ι} {t : ι}

/-- The parties that are ahead after one more has arrived. -/
theorem card_ahead_update {arrived : ι → Nat} {g : Nat} (ht : arrived t = g) :
    #(ahead (update arrived t (arrived t + 1)) g) = #(ahead arrived g) + 1 := by
  have hset : ahead (update arrived t (arrived t + 1)) g = insert t (ahead arrived g) := by
    ext u
    by_cases hu : u = t
    · subst hu; simp [ahead, ht]
    · simp [ahead, hu]
  rw [hset, card_insert_of_notMem (by simp [ahead, ht])]

/-- An arrival of a party that has not arrived in this generation. -/
theorem Counts.arrive (h : b.Counts) (ht : b.arrived t = b.generation) : (b.arrive t).Counts := by
  have hcard := card_ahead_update ht
  rw [← h.count] at hcard
  have hrange : ∀ u, b.generation ≤ update b.arrived t (b.arrived t + 1) u ∧
      update b.arrived t (b.arrived t + 1) u ≤ b.generation + 1 := fun u => by
    by_cases hu : u = t
    · subst hu; simp [ht]
    · simpa [hu] using ⟨h.lower u, h.upper u⟩
  have hsize := h.size
  unfold Barrier.arrive
  split
  · rename_i hlt
    refine ⟨hsize, fun u => (hrange u).1, fun u => (hrange u).2, hcard.symm, ?_⟩
    -- fewer than all are ahead, so somebody is not
    by_contra hall
    have hfull := card_ahead_eq_iff.mpr fun u => by
      have hne : update b.arrived t (b.arrived t + 1) u ≠ b.generation := fun e => hall ⟨u, e⟩
      have hu := hrange u
      show update b.arrived t (b.arrived t + 1) u = b.generation + 1
      omega
    omega
  · rename_i hge
    have hle := card_le_univ (ahead (update b.arrived t (b.arrived t + 1)) b.generation)
    have hall := card_ahead_eq_iff.mp (Nat.le_antisymm hle (by omega))
    refine ⟨hsize, fun u => (hall u).ge, fun u => (hall u).le.trans (Nat.le_succ _), ?_, ⟨t, hall t⟩⟩
    rw [eq_comm, card_eq_zero, ahead, filter_eq_empty_iff]
    intro u _
    simp [hall u]

end Barrier

/-! ## Two barriers in turn -/

/-- Where a party stands: before the first barrier, at it since some generation, between the barriers, at the second
one, or gone from outside or from between. -/
inductive Phase
  | outside
  | waiting1 (g : Nat)
  | inside
  | waiting2 (g : Nat)
  | ended
  deriving DecidableEq, Repr

/-- The arrivals of a party, by where it stands, with what it has passed bounded by the generations. -/
def Phase.Fits (g₁ g₂ a₁ a₂ : Nat) : Phase → Prop
  | .outside => a₁ = a₂ ∧ a₁ ≤ g₁ ∧ a₂ ≤ g₂
  | .waiting1 g => a₁ = a₂ + 1 ∧ a₁ = g + 1 ∧ a₂ ≤ g₂
  | .inside => a₁ = a₂ + 1 ∧ a₁ ≤ g₁ ∧ a₂ ≤ g₂
  | .waiting2 g => a₁ = a₂ ∧ a₂ = g + 1 ∧ a₁ ≤ g₁
  | .ended => a₂ ≤ a₁ ∧ a₁ ≤ a₂ + 1 ∧ a₁ ≤ g₁ ∧ a₂ ≤ g₂

/-- Later generations leave a party where it fits. -/
theorem Phase.Fits.mono {p : Phase} {g₁ g₂ g₁' g₂' a₁ a₂ : Nat} (h : p.Fits g₁ g₂ a₁ a₂) (h₁ : g₁ ≤ g₁')
    (h₂ : g₂ ≤ g₂') : p.Fits g₁' g₂' a₁ a₂ := by
  cases p <;> simp only [Phase.Fits] at h ⊢ <;> omega

/-- Parties that pass a first and a second barrier in turn. -/
structure Meeting (ι : Type) where
  barrier1 : Barrier ι
  barrier2 : Barrier ι
  phase : ι → Phase

namespace Meeting

variable {ι : Type} {m m' : Meeting ι} {t u : ι}

/-- Both barriers count their arrivals, and every party fits where it stands. -/
structure Sound [Fintype ι] (m : Meeting ι) : Prop where
  counts1 : m.barrier1.Counts
  counts2 : m.barrier2.Counts
  fits : ∀ t, (m.phase t).Fits m.barrier1.generation m.barrier2.generation (m.barrier1.arrived t) (m.barrier2.arrived t)

/-- A meeting where everybody is outside two new barriers. -/
theorem sound_new [Fintype ι] [Nonempty ι] {size : Nat} (h : size = Fintype.card ι) :
    Sound (⟨.new size, .new size, fun _ => .outside⟩ : Meeting ι) :=
  ⟨Barrier.counts_new h, Barrier.counts_new h, fun _ => ⟨rfl, Nat.le_refl 0, Nat.le_refl 0⟩⟩

/-- While a party is between the barriers, nobody is outside. -/
theorem Sound.not_outside [Fintype ι] (h : m.Sound) (ht : m.phase t = .inside) : m.phase u ≠ .outside := by
  intro hu
  have hft := h.fits t
  have hfu := h.fits u
  simp only [ht, hu, Phase.Fits] at hft hfu
  have hlow₁ := h.counts1.lower u
  have hlow₂ := h.counts2.lower t
  omega

/-- While a party is outside, all have arrived at the second barrier as often as it has. -/
theorem Sound.arrived_of_outside [Fintype ι] (h : m.Sound) (ht : m.phase t = .outside) (u : ι) :
    m.barrier2.arrived u = m.barrier2.arrived t := by
  have hft := h.fits t
  have hfu := h.fits u
  have hlow₁ := h.counts1.lower t
  have hlow₁' := h.counts1.lower u
  have hlow₂ := h.counts2.lower t
  have hlow₂' := h.counts2.lower u
  cases hu : m.phase u <;> simp only [ht, hu, Phase.Fits] at hft hfu <;> omega

variable [DecidableEq ι]

/-- What party `t` may do: arrive at the barrier before it, go on once the generation has changed, leave, or something
that is not about the barriers. -/
inductive Move (t : ι) (m : Meeting ι) : Meeting ι → Prop
  | stay : Move t m m
  | arrive1 : m.phase t = .outside →
      Move t m ⟨m.barrier1.arrive t, m.barrier2, update m.phase t (.waiting1 m.barrier1.generation)⟩
  | pass1 {g : Nat} : m.phase t = .waiting1 g → m.barrier1.generation ≠ g →
      Move t m ⟨m.barrier1, m.barrier2, update m.phase t .inside⟩
  | arrive2 : m.phase t = .inside →
      Move t m ⟨m.barrier1, m.barrier2.arrive t, update m.phase t (.waiting2 m.barrier2.generation)⟩
  | pass2 {g : Nat} : m.phase t = .waiting2 g → m.barrier2.generation ≠ g →
      Move t m ⟨m.barrier1, m.barrier2, update m.phase t .outside⟩
  | leave : m.phase t = .outside ∨ m.phase t = .inside → Move t m ⟨m.barrier1, m.barrier2, update m.phase t .ended⟩

variable [Fintype ι]

/-- A party that does not arrive changes where only it stands. -/
theorem Sound.phase (h : m.Sound) {p : Phase}
    (hp : p.Fits m.barrier1.generation m.barrier2.generation (m.barrier1.arrived t) (m.barrier2.arrived t)) :
    Sound ⟨m.barrier1, m.barrier2, update m.phase t p⟩ := by
  refine ⟨h.counts1, h.counts2, fun u => ?_⟩
  by_cases hu : u = t
  · subst hu; simpa using hp
  · simpa [hu] using h.fits u

/-- Every move keeps a meeting sound. -/
theorem Sound.move (h : m.Sound) (hm : Move t m m') : m'.Sound := by
  have hfits := h.fits t
  have hlow₁ := h.counts1.lower t
  have hup₁ := h.counts1.upper t
  have hlow₂ := h.counts2.lower t
  have hup₂ := h.counts2.upper t
  cases hm with
  | stay => exact h
  | arrive1 ht =>
    simp only [ht, Phase.Fits] at hfits
    refine ⟨h.counts1.arrive (by omega), h.counts2, fun u => ?_⟩
    have hg := m.barrier1.generation_le_arrive t
    by_cases hu : u = t
    · subst hu
      simp only [Barrier.arrived_arrive, update_self, Phase.Fits]
      omega
    · simpa [hu] using (h.fits u).mono hg (Nat.le_refl _)
  | pass1 ht hg =>
    simp only [ht, Phase.Fits] at hfits
    exact h.phase (by simp only [Phase.Fits]; omega)
  | arrive2 ht =>
    simp only [ht, Phase.Fits] at hfits
    refine ⟨h.counts1, h.counts2.arrive (by omega), fun u => ?_⟩
    have hg := m.barrier2.generation_le_arrive t
    by_cases hu : u = t
    · subst hu
      simp only [Barrier.arrived_arrive, update_self, Phase.Fits]
      omega
    · simpa [hu] using (h.fits u).mono (Nat.le_refl _) hg
  | pass2 ht hg =>
    simp only [ht, Phase.Fits] at hfits
    exact h.phase (by simp only [Phase.Fits]; omega)
  | leave ht =>
    refine h.phase ?_
    rcases ht with ht | ht <;> simp only [ht, Phase.Fits] at hfits ⊢ <;> omega

end Meeting

end CyclicBarrier
