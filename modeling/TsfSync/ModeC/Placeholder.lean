import TsfSync.Kernel.RegistrySpec
import TsfSync.ModeC.Effect

/-!
# The placeholder TSF of a card without a VIF

The read reports `tsf_ns = 0` for a card without a VIF and `sync_once` takes it for a TSF, of the primary and of a
secondary alike. The cycle sets a card exactly if its offset passes both thresholds and it has a VIF when the write
comes to it (`wrote_cycle`), whatever the snapshots behind the offset were. So no write rests on a placeholder if and
only if the thresholds filter every offset with one (`noPlaceholder_iff`).
-/

namespace TsfSync

open LockProg MachineWord Uapi User User.IoUringSyncer

/-- Devices that go up and down, each with its event. -/
def vifEvents (events : List (DevId × Bool)) : KProg Unit :=
  forM events fun e => if e.2 then devOpen e.1 else devClose e.1

/-- The state in which a cycle writes, with the driver calls of the cycle so far. -/
def atWrite (events : List (DevId × Bool)) (s : Kernel) : Kernel :=
  ((vifEvents events).run (s.cardsList.ptrs.foldl peeked { s with drv := [] })).2

/-- The state after a cycle with events between the read and the write, with the driver calls of the cycle. -/
def cycle (self : IoUringSyncer) (events : List (DevId × Bool)) (s : Kernel) : Kernel :=
  ((self.syncOnce (devTsfSync (vifEvents events))).run { s with drv := [] }).2

/-- **Mode C does not act on a TSF that was not read**: without a VIF of the primary at the read no card is set, and a
card without a VIF at the read is not set. -/
def NoPlaceholder (self : IoUringSyncer) (events : List (DevId × Bool)) (s : Kernel) : Prop :=
  (∀ primary, s.cardsList.ptrs[self.primaryIndex.toNat]? = some primary → (s.card primary).vif = none →
    ∀ c, ¬(cycle self events s).Wrote c) ∧
  ∀ c ∈ s.cardsList.ptrs, (s.card c).vif = none → ¬(cycle self events s).Wrote c

/-! ## What the events leave alone -/

/-- The same list, hardware, threshold and driver calls. -/
structure SameHw (s s' : Kernel) : Prop where
  cardsList : s'.cardsList = s.cardsList
  hw : ∀ c, (s'.card c).hw = (s.card c).hw
  threshold : s'.adjtimeThresholdNs = s.adjtimeThresholdNs
  drv : s'.drv = s.drv

theorem SameHw.refl (s : Kernel) : SameHw s s := ⟨rfl, fun _ => rfl, rfl, rfl⟩

theorem SameHw.trans {s₁ s₂ s₃ : Kernel} (h : SameHw s₁ s₂) (h' : SameHw s₂ s₃) : SameHw s₁ s₃ :=
  ⟨h'.cardsList.trans h.cardsList, fun c => (h'.hw c).trans (h.hw c), h'.threshold.trans h.threshold,
    h'.drv.trans h.drv⟩

theorem sameHw_setVif (s : Kernel) (c : CardPtr) (vif : Option DevId) : SameHw s (s.setVif c vif) :=
  ⟨rfl, fun d => Kernel.setVif_hw vif d, rfl, rfl⟩

theorem sameHw_vifCallback {s : Kernel} {w : WiphyId} {dev : NetDev} {p : KProg Unit}
    (hp : p = captureVif w dev ∨ p = releaseVif w dev) : SameHw s (p.run s).2 := by
  rcases run_vifCallback (s := s) hp with h | ⟨c, vif, h⟩
  · rw [h]; exact SameHw.refl s
  · rw [h]; exact sameHw_setVif s c vif

theorem sameHw_callNotifier (s : Kernel) (id : DevId) : SameHw s ((callNotifier .up id).run s).2 ∧
    SameHw s ((callNotifier .down id).run s).2 := by
  unfold callNotifier
  cases hf : s.findNetdev id with
  | none => simpa [hf] using SameHw.refl s
  | some dev =>
    simp only [Prog.run_bind, Prog.run_read, hf, netdevEvent_eq]
    cases dev.wiphy with
    | none => exact ⟨SameHw.refl s, SameHw.refl s⟩
    | some w =>
      exact ⟨sameHw_vifCallback (Or.inl rfl), sameHw_vifCallback (Or.inr rfl)⟩

theorem sameHw_vifEvents (events : List (DevId × Bool)) (s : Kernel) : SameHw s ((vifEvents events).run s).2 := by
  refine Prog.run_forM_inv (SameHw s) (fun e _ s' hs' => hs'.trans ?_) (SameHw.refl s)
  have hset : ∀ up, SameHw s' (s'.setUp e.1 up) := fun up => ⟨rfl, fun _ => rfl, rfl, rfl⟩
  split
  · exact (hset true).trans (sameHw_callNotifier _ e.1).1
  · exact (hset false).trans (sameHw_callNotifier _ e.1).2

theorem foldl_peeked_not_wrote (c : CardPtr) : ∀ (cards : List CardPtr) (s : Kernel),
    (cards.foldl peeked s).Wrote c ↔ s.Wrote c
  | [], _ => Iff.rfl
  | d :: cards, s => by
    rw [List.foldl_cons, foldl_peeked_not_wrote c cards]
    unfold peeked
    split
    · exact Iff.rfl
    · exact wrote_gotTsf s c d _

section Cycle

variable {self : IoUringSyncer} {events : List (DevId × Bool)} {s : Kernel} {primary c : CardPtr}

theorem sameHw_atWrite (events : List (DevId × Bool)) (s : Kernel) : (atWrite events s).cardsList = s.cardsList ∧
    (∀ c, ((atWrite events s).card c).hw = (s.card c).hw) ∧
    (atWrite events s).adjtimeThresholdNs = s.adjtimeThresholdNs ∧ ∀ c, ¬(atWrite events s).Wrote c := by
  have h := sameHw_vifEvents events (s.cardsList.ptrs.foldl peeked { s with drv := [] })
  refine ⟨h.cardsList.trans (foldl_peeked_cardsList _ _), fun c => (h.hw c).trans (by rw [foldl_peeked_card]),
    h.threshold.trans (foldl_peeked_threshold _ _), fun c hw => ?_⟩
  rw [Kernel.Wrote, show (atWrite events s).drv = _ from h.drv] at hw
  obtain ⟨vif, tsf, hmem⟩ := (foldl_peeked_not_wrote c _ _).mp hw
  cases hmem

/-- Which cards a cycle sets. -/
theorem wrote_cycle : (cycle self events s).Wrote c ↔ ∃ primary, ∃ i,
    (visible s)[self.primaryIndex.toNat]? = some primary ∧ (visible s)[i]? = some c ∧ i ≠ self.primaryIndex.toNat ∧
      absW (snapDelta (s.card primary) (s.card c)) > self.thresholdNs ∧
      belowThreshold s.adjtimeThresholdNs (snapDelta (s.card primary) (s.card c)) = false ∧
      ((atWrite events s).card c).vif.isSome = true ∧ (s.card c).hw.ops.setTsf = true := by
  obtain ⟨hlist, hhw, hthr, hnone⟩ := sameHw_atWrite events s
  have hmem : (cycle self events s).Wrote c ↔ ∃ adj ∈ self.adjustments s,
      belowThreshold s.adjtimeThresholdNs adj.deltaNs = false ∧
      findByIndex s.cardsList.ptrs adj.cardIndex = some c ∧ ((atWrite events s).card c).vif.isSome = true ∧
      (s.card c).hw.ops.setTsf = true := by
    have hrun := run_syncOnce self (vifEvents events) { s with drv := [] }
    have hadjs : self.adjustments { s with drv := [] } = self.adjustments s := rfl
    rw [cycle, hrun, hadjs]
    dsimp only
    split
    · rename_i he
      rw [foldl_peeked_not_wrote, he]
      simp [Kernel.Wrote]
    · rw [wrote_foldl_adjustedAt]
      change (atWrite events s).Wrote c ∨ _ ↔ _
      rw [or_iff_right (hnone c)]
      change (∃ adj ∈ _, belowThreshold (atWrite events s).adjtimeThresholdNs _ = _ ∧
        findByIndex (atWrite events s).cardsList.ptrs _ = _ ∧ ((atWrite events s).card c).vif.isSome = _ ∧
        ((atWrite events s).card c).hw.ops.setTsf = _) ↔ _
      rw [hthr, hlist, hhw]
  rw [hmem]
  constructor
  · rintro ⟨adj, hadj, hb, hf, hvif, hset⟩
    obtain ⟨primary, d, i, hp, hi, hne, ht, rfl⟩ := mem_adjustments.mp hadj
    rw [findByIndex_visible hi] at hf
    obtain rfl := Option.some.inj hf
    exact ⟨primary, i, hp, hi, hne, ht, hb, hvif, hset⟩
  · rintro ⟨primary, i, hp, hi, hne, ht, hb, hvif, hset⟩
    exact ⟨_, mem_adjustments.mpr ⟨primary, c, i, hp, hi, hne, ht, rfl⟩, hb, findByIndex_visible hi, hvif, hset⟩

/-- Of two cards of which at most one has a VIF, the nanoseconds of that one; `0` if neither has one. -/
def soleNs (primary card : Card) : Int64 := if primary.vif.isSome then primary.snapNs else card.snapNs

theorem absW_snapDelta {p k : Card} (h : p.vif = none ∨ k.vif = none) : absW (snapDelta p k) = absW (soleNs p k) := by
  cases hp : p.vif with
  | some vif =>
    have hk : k.vif = none := h.resolve_left (by simp [hp])
    simp [snapDelta, soleNs, Card.snapNs, hp, hk]
  | none => simp [snapDelta, soleNs, Card.snapNs, hp, absW_neg]

/-- **No write rests on a placeholder** if and only if, for every visible secondary that can be set at the write, when it
or the primary had no VIF at the read, the nanoseconds of the one that had a VIF are within the daemon's threshold or
below the kernel's. -/
theorem noPlaceholder_iff (self : IoUringSyncer) (events : List (DevId × Bool)) (s : Kernel) :
    NoPlaceholder self events s ↔ ∀ primary c i, (visible s)[self.primaryIndex.toNat]? = some primary →
      (visible s)[i]? = some c → i ≠ self.primaryIndex.toNat → ((s.card primary).vif = none ∨ (s.card c).vif = none) →
      ((atWrite events s).card c).vif.isSome = true → (s.card c).hw.ops.setTsf = true →
      absW (soleNs (s.card primary) (s.card c)) ≤ self.thresholdNs ∨
        belowThreshold s.adjtimeThresholdNs (soleNs (s.card primary) (s.card c)) = true := by
  have hbelow : ∀ {p k : Card}, p.vif = none ∨ k.vif = none → belowThreshold s.adjtimeThresholdNs (snapDelta p k) =
      belowThreshold s.adjtimeThresholdNs (soleNs p k) := fun h => by
    rw [belowThreshold, belowThreshold, absW_snapDelta h]
  constructor
  · rintro ⟨hprimary, hsecondary⟩ primary c i hp hi hne hvif hup hset
    by_contra hcon
    obtain ⟨ht, hb⟩ := not_or.mp hcon
    have hw : (cycle self events s).Wrote c := by
      refine wrote_cycle.mpr ⟨primary, i, hp, hi, hne, ?_, ?_, hup, hset⟩
      · rw [absW_snapDelta hvif]
        exact Int64.not_le.mp ht
      · rw [hbelow hvif]
        simpa using hb
    rcases hvif with hv | hv
    · exact hprimary primary (visible_getElem? hp).2 hv c hw
    · exact hsecondary c (List.mem_of_getElem? (visible_getElem? hi).2) hv hw
  · intro hcond
    -- a card that is set without a VIF on one side breaks the condition
    have key : ∀ primary c, (visible s)[self.primaryIndex.toNat]? = some primary →
        ((s.card primary).vif = none ∨ (s.card c).vif = none) → ¬(cycle self events s).Wrote c := by
      intro primary c hp hvif hw
      obtain ⟨primary', i, hp', hi, hne, ht, hb, hup, hset⟩ := wrote_cycle.mp hw
      obtain rfl : primary' = primary := Option.some.inj (hp'.symm.trans hp)
      rw [absW_snapDelta hvif] at ht
      rw [hbelow hvif] at hb
      rcases hcond primary' c i hp hi hne hvif hup hset with hle | hlt
      · exact Int64.not_lt.mpr hle ht
      · rw [hb] at hlt
        cases hlt
    refine ⟨fun primary hp hv c hw => ?_, fun c _ hv hw => ?_⟩
    · obtain ⟨primary', i, hp', -⟩ := wrote_cycle.mp hw
      obtain rfl : primary' = primary := Option.some.inj ((visible_getElem? hp').2.symm.trans hp)
      exact key primary' c hp' (Or.inl hv) hw
    · obtain ⟨primary, i, hp, -⟩ := wrote_cycle.mp hw
      exact key primary c hp (Or.inr hv) hw

end Cycle

/-- The primary has no VIF and the secondary's TSF is 1 ms: the cycle sets the secondary, to `0`. -/
theorem noPlaceholder_counterexample :
    ¬NoPlaceholder ⟨0, 5000⟩ [] (.withCards [{ Card.upWith 0 0 with vif := none }, .upWith 1 1000]) := by
  intro h
  refine h.1 (.card 0) rfl rfl (.card 1) (wrote_cycle.mpr ⟨.card 0, 1, rfl, rfl, by decide, ?_, ?_, rfl, rfl⟩) <;> decide

end TsfSync
