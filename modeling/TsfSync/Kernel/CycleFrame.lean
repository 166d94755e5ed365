import TsfSync.Kernel.Drift

/-!
# What a cycle of Mode B touches

A cycle that finds its primary with a VIF writes other cards only, calls the driver of no card without a VIF, and leaves
every TSF as it is or on that of the primary (`CycleFrame`). One that does not find it calls no driver and changes nothing
but the count of errors and the pending work. A second cycle without clock advance changes no TSF, also where the scaled
difference wraps (`tsf_second_cycle`).
-/

namespace TsfSync

open LockProg MachineWord

variable {s : Kernel} {p c : CardPtr} {vif : DevId}

/-- What a cycle with the primary `p` touches. -/
structure CycleFrame (s : Kernel) (p : CardPtr) : Prop where
  primary_not_set : ∀ vif tsf, .setTsf p vif tsf ∉ s.cycleCalls
  no_vif : ∀ c, (s.card c).vif = none → ∀ call ∈ s.cycleCalls, call.card ≠ c
  primary_kept : ((tsfSyncWorkFn.run s).2.card p).hw.tsf = (s.card p).hw.tsf
  others : ∀ c, c ≠ p → ((tsfSyncWorkFn.run s).2.card c).hw.tsf = (s.card c).hw.tsf ∨
    ((tsfSyncWorkFn.run s).2.card c).hw.tsf = (s.card p).hw.tsf

/-! ## The calls -/

/-- The calls for a card are made for that card, which has a VIF. -/
theorem of_mem_getCalls {call : DrvCall} {k : Card} (h : call ∈ getCalls c vif k) : call = .getTsf c vif := by
  unfold getCalls at h
  split at h
  · exact List.mem_singleton.mp h
  · cases h

theorem of_mem_setCalls {call : DrvCall} {tsf : UInt64} {k : Card} (h : call ∈ setCalls c vif tsf k) :
    call = .setTsf c vif tsf := by
  unfold setCalls at h
  split at h
  · exact List.mem_singleton.mp h
  · cases h

theorem of_mem_syncCalls {threshold : UInt32} {primaryTsf : UInt64} {call : DrvCall} {k : Card}
    (h : call ∈ syncCalls threshold p primaryTsf c k) : call.card = c ∧ c ≠ p ∧ k.vif ≠ none := by
  unfold syncCalls at h
  split at h
  · cases h
  · rename_i hne
    split at h
    · cases h
    · rename_i vif hv
      refine ⟨?_, hne, by simp [hv]⟩
      rcases List.mem_append.mp h with h | h
      · rw [of_mem_getCalls h]; rfl
      · split at h
        · rw [of_mem_setCalls h]; rfl
        · cases h

/-- A call of a cycle reads the primary or is one for another listed card with a VIF. -/
theorem of_mem_cycleCalls (hp : s.primary = some p) (hv : (s.card p).vif = some vif) {call : DrvCall}
    (h : call ∈ s.cycleCalls) : call = .getTsf p vif ∨ call.card ≠ p ∧ (s.card call.card).vif ≠ none := by
  rw [cycleCalls_walks hp hv] at h
  rcases List.mem_append.mp h with h | h
  · exact Or.inl (of_mem_getCalls h)
  · obtain ⟨c, -, hc⟩ := List.mem_flatMap.mp h
    obtain ⟨rfl, hne, hvif⟩ := of_mem_syncCalls hc
    exact Or.inr ⟨hne, hvif⟩

/-! ## The TSFs -/

theorem tsfAfterB_cases (threshold : UInt32) (primaryTsf : UInt64) (k : Card) :
    k.tsfAfterB threshold primaryTsf = k.hw.tsf ∨ k.tsfAfterB threshold primaryTsf = primaryTsf := by
  unfold Card.tsfAfterB
  split
  · exact Or.inr rfl
  · exact Or.inl rfl

/-- A card that a cycle has left or moved is left by the next. -/
theorem tsfAfterB_again {threshold : UInt32} {primaryTsf : UInt64} {k k' : Card} (hvif : k'.vif = k.vif)
    (hops : k'.hw.ops = k.hw.ops) (htsf : k'.hw.tsf = k.tsfAfterB threshold primaryTsf) :
    k'.tsfAfterB threshold primaryTsf = k'.hw.tsf := by
  rcases tsfAfterB_cases threshold primaryTsf k with hleft | hmoved
  · -- the same inputs give the same decision
    have hread : k'.readTsf = k.readTsf := by rw [Card.readTsf, Card.readTsf, hops, htsf, hleft]
    have hsame : k'.tsfAfterB threshold primaryTsf = k.tsfAfterB threshold primaryTsf := by
      rw [Card.tsfAfterB, Card.tsfAfterB, hvif, hops, hread, htsf, hleft]
    rw [hsame, htsf]
  · rcases tsfAfterB_cases threshold primaryTsf k' with h | h
    · exact h
    · rw [h, htsf, hmoved]

/-- **A second cycle without clock advance changes no TSF.** -/
theorem tsf_second_cycle (s : Kernel) (c : CardPtr) :
    ((tsfSyncWorkFn.run (tsfSyncWorkFn.run s).2).2.card c).hw.tsf = ((tsfSyncWorkFn.run s).2.card c).hw.tsf := by
  have hsame := sameSetup_workFn s
  by_cases h : ∀ p, s.primary = some p → (s.card p).vif = none
  · have hagain : ∀ p, (tsfSyncWorkFn.run s).2.primary = some p → ((tsfSyncWorkFn.run s).2.card p).vif = none :=
      fun p hp => ((hsame.card p).1).trans (h p (hsame.primary_eq.symm.trans hp))
    rw [run_workFn_fails hagain]
    rfl
  · obtain ⟨p, hp, hvif⟩ : ∃ p, s.primary = some p ∧ (s.card p).vif ≠ none := by simpa using h
    obtain ⟨vif, hv⟩ := Option.ne_none_iff_exists'.mp hvif
    have hp' := hsame.primary_eq.trans hp
    have hv' := (hsame.card p).1.trans hv
    by_cases hne : c = p
    · subst hne
      exact tsf_workFn_primary hp' hv'
    · have hread : ((tsfSyncWorkFn.run s).2.card p).readTsf = (s.card p).readTsf := by
        rw [Card.readTsf, Card.readTsf, tsf_workFn_primary hp hv, (hsame.card p).2.2]
      rw [tsf_workFn_other hp' hv' hne, hsame.cardsList, hsame.threshold, hread]
      split
      · rename_i hc
        refine tsfAfterB_again (hsame.card c).1 (hsame.card c).2.2 ?_
        rw [tsf_workFn_other hp hv hne, if_pos hc]
      · rfl

/-- **What a cycle of Mode B touches, and that it is idempotent.** -/
theorem cycle_frame (s : Kernel) (hget : ∀ c ∈ s.cardsList.ptrs, (s.card c).hw.ops.getTsf = true) :
    (∀ p vif, s.primary = some p → (s.card p).vif = some vif → CycleFrame s p) ∧
    ((∀ p, s.primary = some p → (s.card p).vif = none) →
      s.cycleCalls = [] ∧ (tsfSyncWorkFn.run s).2 = s.cycleFailed.rescheduled s.syncIntervalMs) ∧
    ∀ c, ((tsfSyncWorkFn.run (tsfSyncWorkFn.run s).2).2.card c).hw.tsf =
      ((tsfSyncWorkFn.run s).2.card c).hw.tsf := by
  refine ⟨fun p vif hp hv => ⟨fun v tsf hcall => ?_, fun c hc call hcall e => ?_, tsf_workFn_primary hp hv,
    fun c hne => ?_⟩, fun h => ?_, tsf_second_cycle s⟩
  · rcases of_mem_cycleCalls hp hv hcall with h | h
    · cases h
    · exact h.1 rfl
  · rcases of_mem_cycleCalls hp hv hcall with rfl | h
    · subst e
      rw [DrvCall.card, hv] at hc
      cases hc
    · exact h.2 (e ▸ hc)
  · have hread : (s.card p).readTsf = (s.card p).hw.tsf := if_pos (hget p (primary_listed hp))
    rw [tsf_workFn_other hp hv hne, hread]
    split
    · exact tsfAfterB_cases _ _ _
    · exact Or.inl rfl
  · have hrun := run_workFn_fails h
    refine ⟨?_, hrun⟩
    rw [Kernel.cycleCalls, hrun]
    exact List.drop_length ..

/-- A primary and a secondary 10 µs behind it: the cycle moves the secondary onto the primary, the next one nothing. -/
theorem cycle_frame_two : CycleFrame (.withCards [.upWith 0 110, .upWith 1 100]) (.card 0) ∧
    ∀ c, ((tsfSyncWorkFn.run (tsfSyncWorkFn.run (.withCards [.upWith 0 110, .upWith 1 100])).2).2.card c).hw.tsf =
      ((tsfSyncWorkFn.run (.withCards [.upWith 0 110, .upWith 1 100])).2.card c).hw.tsf := by
  have h := cycle_frame (.withCards [.upWith 0 110, .upWith 1 100]) (by decide)
  exact ⟨h.1 (.card 0) 0 rfl rfl, h.2.2⟩

end TsfSync
