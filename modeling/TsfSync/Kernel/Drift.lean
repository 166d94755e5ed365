import TsfSync.Kernel.Lookup
import TsfSync.Kernel.ModeB
import TsfSync.Lib.Runs

/-!
# Mode B over whole runs

Cycles of `tsf_sync_work_fn` alternate with moments at which the TSF counters have moved on (`Move`). A cycle that finds
its primary leaves every secondary either on the primary's TSF or less than the threshold away (`settled_workFn`); it
does not change which cards are secondaries, so up to the next cycle an offset grows only by what the clocks drift
(`bounded_offset`).
-/

namespace TsfSync

open LockProg MachineWord StepSystem

/-! ## Offsets -/

namespace Kernel

/-- The cards that a cycle can set: listed, not the primary, with a VIF and a driver that has `set_tsf`. -/
def secondaries (s : Kernel) (p : CardPtr) : List CardPtr :=
  s.cardsList.ptrs.filter fun c => c ≠ p && (s.card c).vif.isSome && (s.card c).hw.ops.setTsf

/-- The primary's TSF minus that of a card, in microseconds: the wrap-around difference that the cycle computes. -/
def diffUsec (s : Kernel) (p c : CardPtr) : Int := ((s.card p).hw.tsf - (s.card c).hw.tsf).toInt64.toInt

/-- Every difference fits signed nanoseconds. -/
def InRange (s : Kernel) (p : CardPtr) : Prop := ∀ c ∈ s.secondaries p, |s.diffUsec p c| ≤ (2 ^ 63 - 1) / 1000

/-- Every secondary is on the primary's TSF or less than the threshold away. -/
def Settled (s : Kernel) (p : CardPtr) : Prop := ∀ c ∈ s.secondaries p,
  (s.card c).hw.tsf = (s.card p).hw.tsf ∨ 1000 * |s.diffUsec p c| < s.adjtimeThresholdNs.toNat

/-- No difference has changed by more than `D` microseconds since another state. -/
def DriftsWithin (D : Nat) (base s : Kernel) (p : CardPtr) : Prop :=
  ∀ c ∈ s.secondaries p, |s.diffUsec p c - base.diffUsec p c| ≤ D

instance (s : Kernel) (p : CardPtr) : Decidable (s.InRange p) := by unfold InRange; infer_instance

instance (D : Nat) (base s : Kernel) (p : CardPtr) : Decidable (DriftsWithin D base s p) := by
  unfold DriftsWithin; infer_instance

/-- The clocks have moved on: every card shows a new TSF. -/
def advance (s : Kernel) (tsf : CardPtr → UInt64) : Kernel :=
  { s with card := fun c => { s.card c with hw := { (s.card c).hw with tsf := tsf c } } }

/-- A cycle finds its primary, and the primary has a VIF. -/
def cycleSucceeds (s : Kernel) : Bool := s.primary.any fun p => (s.card p).vif.isSome

end Kernel

theorem sameSetup_advance (s : Kernel) (tsf : CardPtr → UInt64) : SameSetup s (s.advance tsf) :=
  ⟨rfl, rfl, rfl, fun _ => ⟨rfl, rfl, rfl⟩⟩

theorem SameSetup.secondaries_eq {s s' : Kernel} (h : SameSetup s s') (p : CardPtr) :
    s'.secondaries p = s.secondaries p := by
  have hcard : ∀ c, (s'.card c).vif = (s.card c).vif ∧ (s'.card c).hw.ops = (s.card c).hw.ops := fun c =>
    ⟨(h.card c).1, (h.card c).2.2⟩
  simp only [Kernel.secondaries, h.cardsList, hcard]

/-! ## What a cycle reaches -/

section Cycle

variable {s : Kernel} {p c : CardPtr}

theorem mem_secondaries : c ∈ s.secondaries p ↔
    c ∈ s.cardsList.ptrs ∧ c ≠ p ∧ (s.card c).vif.isSome = true ∧ (s.card c).hw.ops.setTsf = true := by
  simp [Kernel.secondaries, and_assoc]

theorem toInt_offset_of_range (h : |s.diffUsec p c| ≤ (2 ^ 63 - 1) / 1000) :
    (offsetNs (s.card p).hw.tsf (s.card c).hw.tsf).toInt = 1000 * s.diffUsec p c := by
  have hb := abs_le.mp h
  have hdef : ((s.card p).hw.tsf - (s.card c).hw.tsf).toInt64.toInt = s.diffUsec p c := rfl
  rw [offsetNs, toInt_mul_of_range] <;> rw [hdef, toInt_nsecPerUsec] <;> omega

/-- In range the test of the cycle compares the true offset with the threshold. -/
theorem lt_of_not_reaches {threshold : UInt32} (h : |s.diffUsec p c| ≤ (2 ^ 63 - 1) / 1000)
    (hr : reachesThreshold threshold (offsetNs (s.card p).hw.tsf (s.card c).hw.tsf) = false) :
    1000 * |s.diffUsec p c| < threshold.toNat := by
  have hoff := toInt_offset_of_range h
  have hb := abs_le.mp h
  have habs : (absW (offsetNs (s.card p).hw.tsf (s.card c).hw.tsf)).toInt = 1000 * |s.diffUsec p c| := by
    rw [toInt_absW (by rw [hoff]; omega), hoff, abs_mul]
    rfl
  rw [reachesThreshold, Bool.or_eq_false_iff] at hr
  have hlt := of_decide_eq_false hr.2
  rw [Int64.le_iff_toInt_le, toInt_ofU32, habs] at hlt
  omega

/-- The TSFs after a successful cycle. -/
theorem tsf_workFn (hp : s.primary = some p) (hs : s.cycleSucceeds = true) :
    ((tsfSyncWorkFn.run s).2.card p).hw.tsf = (s.card p).hw.tsf ∧
    (c ∈ s.secondaries p → ((tsfSyncWorkFn.run s).2.card c).hw.tsf =
      (s.card c).tsfAfterB s.adjtimeThresholdNs (s.card p).readTsf) := by
  have hvif : (s.card p).vif.isSome = true := by simpa [Kernel.cycleSucceeds, hp] using hs
  obtain ⟨vif, hv⟩ := Option.isSome_iff_exists.mp hvif
  refine ⟨tsf_workFn_primary hp hv, fun hc => ?_⟩
  obtain ⟨hmem, hne, -, -⟩ := mem_secondaries.mp hc
  rw [tsf_workFn_other hp hv hne, if_pos hmem]

theorem primary_listed (hp : s.primary = some p) : p ∈ s.cardsList.ptrs := by
  simp only [Kernel.primary, findPrimaryLocked, Prog.run_read] at hp
  split at hp
  · exact List.mem_of_find?_eq_some hp
  · exact List.mem_of_head? hp

theorem diffUsec_of_eq (h : (s.card c).hw.tsf = (s.card p).hw.tsf) : s.diffUsec p c = 0 := by
  rw [Kernel.diffUsec, h, UInt64.sub_self]
  rfl

/-- A successful cycle puts a secondary on the primary's TSF, or leaves it where it was, below the threshold. -/
theorem moved_or_left (hp : s.primary = some p) (hget : ∀ c ∈ s.cardsList.ptrs, (s.card c).hw.ops.getTsf = true)
    (hrange : s.InRange p) (hs : s.cycleSucceeds = true) (hc : c ∈ s.secondaries p) :
    ((tsfSyncWorkFn.run s).2.card c).hw.tsf = ((tsfSyncWorkFn.run s).2.card p).hw.tsf ∨
    (tsfSyncWorkFn.run s).2.diffUsec p c = s.diffUsec p c ∧
      1000 * |s.diffUsec p c| < s.adjtimeThresholdNs.toNat := by
  obtain ⟨htp, htc⟩ := tsf_workFn (c := c) hp hs
  obtain ⟨hmem, -, hvif, hops⟩ := mem_secondaries.mp hc
  have hread : (s.card c).readTsf = (s.card c).hw.tsf := if_pos (hget c hmem)
  have hpread : (s.card p).readTsf = (s.card p).hw.tsf := if_pos (hget p (primary_listed hp))
  have htc := htc hc
  rw [Card.tsfAfterB, hread, hpread, hvif, hops] at htc
  cases hr : reachesThreshold s.adjtimeThresholdNs (offsetNs (s.card p).hw.tsf (s.card c).hw.tsf) with
  | true =>
    rw [hr] at htc
    exact Or.inl (htc.trans htp.symm)
  | false =>
    rw [hr] at htc
    refine Or.inr ⟨?_, lt_of_not_reaches (hrange c hc) hr⟩
    rw [Kernel.diffUsec, htp, htc]
    rfl

/-- **A successful cycle settles every secondary.** -/
theorem settled_workFn (hp : s.primary = some p) (hget : ∀ c ∈ s.cardsList.ptrs, (s.card c).hw.ops.getTsf = true)
    (hrange : s.InRange p) (hs : s.cycleSucceeds = true) :
    (tsfSyncWorkFn.run s).2.Settled p ∧ (tsfSyncWorkFn.run s).2.InRange p := by
  have hsame := sameSetup_workFn s
  constructor
  · intro c hc
    rw [hsame.secondaries_eq] at hc
    rw [hsame.threshold]
    rcases moved_or_left hp hget hrange hs hc with h | ⟨h, hlt⟩
    · exact Or.inl h
    · exact Or.inr (by rw [h]; exact hlt)
  · intro c hc
    rw [hsame.secondaries_eq] at hc
    rcases moved_or_left hp hget hrange hs hc with h | ⟨h, -⟩
    · rw [diffUsec_of_eq h]
      decide
    · rw [h]
      exact hrange c hc

/-- A cycle that fails writes no TSF. -/
theorem diffUsec_workFn_of_fails (hp : s.primary = some p) (hs : s.cycleSucceeds = false) (c : CardPtr) :
    (tsfSyncWorkFn.run s).2.diffUsec p c = s.diffUsec p c := by
  have hv : (s.card p).vif = none := by simpa [Kernel.cycleSucceeds, hp] using hs
  rw [run_workFn_fails fun q hq => by cases hp.symm.trans hq; exact hv]
  rfl

end Cycle

/-! ## Runs -/

/-- Mode B with its clocks: the module, and its state right after the last successful cycle. -/
structure ModeB where
  kernel : Kernel
  lastCycle : Option Kernel

/-- A cycle, or a moment at which the clocks have moved on. -/
inductive Move
  | cycle
  | advance (tsf : CardPtr → UInt64)

/-- One move. The clocks move within range, and by at most `D` microseconds apart since the last cycle. -/
def ModeB.step (p : CardPtr) (D : Nat) : Move → ModeB → Option ModeB
  | .cycle, m =>
    let s := (tsfSyncWorkFn.run m.kernel).2
    some ⟨s, if m.kernel.cycleSucceeds then some s else m.lastCycle⟩
  | .advance tsf, m =>
    let s := m.kernel.advance tsf
    if s.InRange p ∧ ∀ base ∈ m.lastCycle, Kernel.DriftsWithin D base s p then some { m with kernel := s } else none

/-- What holds at every moment of a run. -/
structure ModeB.Bounded (s₀ : Kernel) (p : CardPtr) (D : Nat) (m : ModeB) : Prop where
  setup : SameSetup s₀ m.kernel
  range : m.kernel.InRange p
  lastCycle : ∀ base ∈ m.lastCycle, SameSetup s₀ base ∧ base.Settled p ∧ Kernel.DriftsWithin D base m.kernel p

section Runs

variable {s₀ : Kernel} {p : CardPtr} {D : Nat}

theorem SameSetup.getTsf {s : Kernel} (h : SameSetup s₀ s)
    (hget : ∀ c ∈ s₀.cardsList.ptrs, (s₀.card c).hw.ops.getTsf = true) :
    ∀ c ∈ s.cardsList.ptrs, (s.card c).hw.ops.getTsf = true := by
  intro c hc
  rw [h.cardsList] at hc
  rw [(h.card c).2.2]
  exact hget c hc

theorem driftsWithin_self (s : Kernel) : Kernel.DriftsWithin D s s p := by
  intro c _
  rw [Int.sub_self, abs_zero]
  exact Int.natCast_nonneg D

/-- Every move keeps the bounds. -/
theorem bounded_step (hp : s₀.primary = some p) (hget : ∀ c ∈ s₀.cardsList.ptrs, (s₀.card c).hw.ops.getTsf = true)
    (a : Move) (m m' : ModeB) (hm : m.Bounded s₀ p D) (h : ModeB.step p D a m = some m') : m'.Bounded s₀ p D := by
  cases a with
  | cycle =>
    cases h
    have hsame := hm.setup.trans (sameSetup_workFn m.kernel)
    have hp' : m.kernel.primary = some p := hm.setup.primary_eq.trans hp
    cases hs : m.kernel.cycleSucceeds with
    | true =>
      obtain ⟨hsettled, hrange⟩ := settled_workFn hp' (hm.setup.getTsf hget) hm.range hs
      refine ⟨hsame, hrange, fun base hb => ?_⟩
      cases hb
      exact ⟨hsame, hsettled, driftsWithin_self _⟩
    | false =>
      have hsec := (sameSetup_workFn m.kernel).secondaries_eq p
      refine ⟨hsame, fun c hc => ?_, fun base hb => ?_⟩
      · rw [diffUsec_workFn_of_fails hp' hs]
        exact hm.range c (hsec ▸ hc)
      · obtain ⟨hbase, hsettled, hdrift⟩ := hm.lastCycle base hb
        refine ⟨hbase, hsettled, fun c hc => ?_⟩
        rw [diffUsec_workFn_of_fails hp' hs]
        exact hdrift c (hsec ▸ hc)
  | advance tsf =>
    simp only [ModeB.step] at h
    split at h
    · rename_i hok
      cases h
      refine ⟨hm.setup.trans (sameSetup_advance _ _), hok.1, fun base hb => ?_⟩
      obtain ⟨hbase, hsettled, -⟩ := hm.lastCycle base hb
      exact ⟨hbase, hsettled, hok.2 base hb⟩
    · cases h

/-- **Bounded offsets**: in every run of cycles and clock advances, right after a successful cycle every secondary is on
the primary's TSF or less than the threshold away, and up to the next cycle it is at most the threshold and the drift
away. -/
theorem bounded_offset (hp : s₀.primary = some p)
    (hget : ∀ c ∈ s₀.cardsList.ptrs, (s₀.card c).hw.ops.getTsf = true) (hrange : s₀.InRange p) (moves : List Move)
    {m : ModeB} (hrun : runs (ModeB.step p D) moves ⟨s₀, none⟩ = some m) :
    (m.kernel.cycleSucceeds = true → (tsfSyncWorkFn.run m.kernel).2.Settled p) ∧
    (m.lastCycle.isSome = true → ∀ c ∈ m.kernel.secondaries p,
      1000 * |m.kernel.diffUsec p c| ≤ m.kernel.adjtimeThresholdNs.toNat + 1000 * (D : Int)) := by
  have hstart : ModeB.Bounded s₀ p D ⟨s₀, none⟩ := ⟨.refl s₀, hrange, fun _ hb => by cases hb⟩
  have hm := runs_inv (bounded_step hp hget) moves hstart hrun
  refine ⟨fun hs => ?_, fun hlast c hc => ?_⟩
  · exact (settled_workFn (hm.setup.primary_eq.trans hp) (hm.setup.getTsf hget) hm.range hs).1
  · obtain ⟨base, hb⟩ := Option.isSome_iff_exists.mp hlast
    obtain ⟨hbase, hsettled, hdrift⟩ := hm.lastCycle base hb
    have hsec : base.secondaries p = m.kernel.secondaries p :=
      (hbase.secondaries_eq p).trans (hm.setup.secondaries_eq p).symm
    have hthr : base.adjtimeThresholdNs = m.kernel.adjtimeThresholdNs := hbase.threshold.trans hm.setup.threshold.symm
    have hbound : 1000 * |base.diffUsec p c| ≤ m.kernel.adjtimeThresholdNs.toNat := by
      rcases hsettled c (hsec ▸ hc) with h | h
      · have hzero : base.diffUsec p c = 0 := by rw [Kernel.diffUsec, h, UInt64.sub_self]; rfl
        rw [hzero, abs_zero]
        omega
      · rw [hthr] at h
        omega
    have hd := abs_le.mp (hdrift c hc)
    have htri : |m.kernel.diffUsec p c| ≤ |base.diffUsec p c| + D := by
      rw [abs_le]
      have hb := abs_le.mp (le_refl |base.diffUsec p c|)
      constructor <;> omega
    omega

end Runs

/-- A cycle brings a secondary that is 10 µs behind to the primary; then it falls 3 µs behind again. -/
theorem bounded_offset_run : ∃ m, runs (ModeB.step (.card 0) 3)
      [.cycle, .advance fun c => if c = .card 0 then 1000 else 997]
      ⟨.withCards [.upWith 0 110, .upWith 1 100], none⟩ = some m ∧
    m.kernel.diffUsec (.card 0) (.card 1) = 3 ∧ (tsfSyncWorkFn.run m.kernel).2.Settled (.card 0) ∧
    1000 * |m.kernel.diffUsec (.card 0) (.card 1)| ≤ 5000 + 1000 * 3 := by
  have hget : ∀ c ∈ (Kernel.withCards [.upWith 0 110, .upWith 1 100]).cardsList.ptrs,
      ((Kernel.withCards [.upWith 0 110, .upWith 1 100]).card c).hw.ops.getTsf = true := by decide
  obtain ⟨m, hrun, hdiff, hsucceeds⟩ : ∃ m, runs (ModeB.step (.card 0) 3)
      [.cycle, .advance fun c => if c = .card 0 then 1000 else 997]
      ⟨.withCards [.upWith 0 110, .upWith 1 100], none⟩ = some m ∧ m.kernel.diffUsec (.card 0) (.card 1) = 3 ∧
      m.kernel.cycleSucceeds = true ∧ m.lastCycle.isSome = true ∧ .card 1 ∈ m.kernel.secondaries (.card 0) ∧
      m.kernel.adjtimeThresholdNs = 5000 := ⟨_, rfl, by decide, by decide, by decide, by decide, rfl⟩
  obtain ⟨hsucceeds, hlast, hmem, hthr⟩ := hsucceeds
  have h := bounded_offset rfl hget (by decide) _ hrun
  refine ⟨m, hrun, hdiff, h.1 hsucceeds, ?_⟩
  have hbound := h.2 hlast _ hmem
  rw [hthr] at hbound
  exact hbound

end TsfSync
