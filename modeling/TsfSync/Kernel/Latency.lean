import TsfSync.Kernel.Running

/-!
# How far a cycle of Mode B is off

Between the read of the primary's TSF and the write of a secondary's the clocks run on. So a cycle leaves a secondary that
it sets behind the primary by the time between the two, and one that it does not set within the threshold of that
(`Settles`), whatever the other threads do that set no TSF: `offset_workFn`.
-/

namespace TsfSync

open LockProg MachineWord

namespace Running

variable {δ : Nat} {p c : CardPtr} {w₀ w w' : World} {threshold : UInt32} {primaryTsf : UInt64}

/-! ## What a cycle does to one card -/

/-- The cycle has set the card to a reading of the primary, or left it, not reaching the threshold: its own counter was at
`y` then, at a time `u` after the time `t` of the reading of the primary. -/
def Settles (δ : Nat) (p : CardPtr) (threshold : UInt32) (w₀ w : World) (c : CardPtr) : Prop :=
  ∃ x t y u tsf, Reading δ w₀ w p x t tsf ∧ Reading δ w₀ w c y u (w.base c + UInt64.ofNat y) ∧ t ≤ u ∧
    (tsf = w.base c + UInt64.ofNat y ∨
      w.base c = w₀.base c ∧ reachesThreshold threshold (offsetNs tsf (w.base c + UInt64.ofNat y)) = false)

theorem Settles.passes (h : Settles δ p threshold w₀ w c) (hw : Passes δ w w') : Settles δ p threshold w₀ w' c := by
  obtain ⟨x, t, y, u, tsf, hp, hc, htu, hset⟩ := h
  refine ⟨x, t, y, u, tsf, hp.passes hw, ?_, htu, ?_⟩
  · rw [hw.base]
    exact hc.passes hw
  · rw [hw.base]
    exact hset

/-- In the middle of a cycle: `done` are the cards of the walk so far. -/
structure Walking (δ : Nat) (p : CardPtr) (threshold : UInt32) (w₀ : World) (done : List CardPtr) (w : World) : Prop where
  setup : SameSetup w₀.1 w.1
  inStep : InStep δ w
  now : w₀.2.now ≤ w.2.now
  gone : ∀ c, w₀.2.gone c ≤ w.2.gone c
  others : ∀ c, c = p ∨ c ∉ done → w.base c = w₀.base c
  settles : ∀ c ∈ done, c ∈ w₀.1.secondaries p → Settles δ p threshold w₀ w c

theorem Walking.passes {done : List CardPtr} (h : Walking δ p threshold w₀ done w) (hw : Passes δ w w') :
    Walking δ p threshold w₀ done w' where
  setup := h.setup.trans hw.setup
  inStep := hw.inStep h.inStep
  now := h.now.trans hw.now
  gone := fun c => (h.gone c).trans (hw.gone c)
  others := fun c hc => (hw.base c).trans (h.others c hc)
  settles := fun c hc hs => (h.settles c hc hs).passes hw

/-! ## A round of the walk -/

variable {done : List CardPtr} {x t : Nat}

/-- A card that the cycle does not set. -/
theorem Walking.passBy (h : Walking δ p threshold w₀ done w)
    (hc : c ∈ w₀.1.secondaries p → Settles δ p threshold w₀ w c) : Walking δ p threshold w₀ (done ++ [c]) w where
  setup := h.setup
  inStep := h.inStep
  now := h.now
  gone := h.gone
  others := fun d hd => h.others d (hd.imp_right fun hn hm => hn (List.mem_append_left _ hm))
  settles := fun d hd hs => by
    rcases List.mem_append.mp hd with hd | hd
    · exact h.settles d hd hs
    · obtain rfl := List.mem_singleton.mp hd
      exact hc hs

/-- A card that the cycle set to what it read of the primary. -/
theorem Walking.set (h : Walking δ p threshold w₀ done w) (hp : Reading δ w₀ w p x t primaryTsf) (hcp : c ≠ p)
    (hmem : c ∈ w₀.1.cardsList.ptrs) (vif : DevId) :
    Walking δ p threshold w₀ (done ++ [c]) (w.setTsf c vif primaryTsf) := by
  have hsetup := sameSetup_setTsf w c vif primaryTsf
  have hstep : InStep δ (w.setTsf c vif primaryTsf) := fun d hd => h.inStep d (by rwa [hsetup.cardsList] at hd)
  have hbase : ∀ d, d ≠ c → (w.setTsf c vif primaryTsf).base d = w.base d := fun d hd => base_setTsf_ne w vif _ hd
  have hreading := hp.setTsf (Ne.symm hcp) vif primaryTsf
  refine ⟨h.setup.trans hsetup, hstep, h.now, h.gone, fun d hd => ?_, fun d hd hs => ?_⟩
  · have hdc : d ≠ c := by
      rintro rfl
      exact hd.elim hcp fun hn => hn (List.mem_append_right _ List.mem_cons_self)
    rw [hbase d hdc]
    exact h.others d (hd.imp_right fun hn hm => hn (List.mem_append_left _ hm))
  · by_cases hdc : d = c
    · -- its counter is now on the value that the primary's showed at `t`
      subst hdc
      have hlisted : d ∈ w.1.cardsList.ptrs := by rw [h.setup.cardsList]; exact hmem
      have hval : primaryTsf = (w.setTsf d vif primaryTsf).base d + UInt64.ofNat (w.2.gone d) := by
        rw [base_setTsf_self]
        grind
      refine ⟨x, t, w.2.gone d, w.2.now, primaryTsf, hreading, ⟨rfl, ?_, h.gone d, h.now, Nat.le_refl _⟩, hp.upTo,
        .inl hval⟩
      exact h.inStep d hlisted
    · have hd : d ∈ done := by
        rcases List.mem_append.mp hd with hd | hd
        · exact hd
        · exact absurd (List.mem_singleton.mp hd) hdc
      obtain ⟨x', t', y, u, tsf, hp', hc', htu, hor⟩ := h.settles d hd hs
      refine ⟨x', t', y, u, tsf, hp'.setTsf (Ne.symm hcp) vif primaryTsf, ?_, htu, ?_⟩
      · exact ⟨rfl, hc'.inStep, hc'.start, hc'.since, hc'.upTo⟩
      · rw [hbase d hdc]
        exact hor

/-- The rest of a round, which sets no TSF. -/
theorem wp_rest {q : KProg Unit} (hq : Frames tsfView q) (h : Walking δ p threshold w₀ done w)
    (hp : Reading δ w₀ w p x t primaryTsf) :
    Wp (Passes δ) (fun _ w' => Walking δ p threshold w₀ done w' ∧ Reading δ w₀ w' p x t primaryTsf)
      (Prog.besides q : WProg Unit) w :=
  wp_passes hq fun _ _ hw => ⟨h.passes hw, hp.passes hw⟩

/-- **One round.** -/
theorem wp_syncSecondary (hget : (w₀.1.card c).hw.ops.getTsf = true) (hmem : c ∈ w₀.1.cardsList.ptrs)
    (hdone : c ∉ done) (h : Walking δ p threshold w₀ done w) (hp : Reading δ w₀ w p x t primaryTsf) :
    Wp (Passes δ) (fun _ w' => Walking δ p threshold w₀ (done ++ [c]) w' ∧ Reading δ w₀ w' p x t primaryTsf)
      (Prog.besides (syncSecondary threshold p primaryTsf c) : WProg Unit) w := by
  unfold syncSecondary
  by_cases hcp : c = p
  · rw [if_pos hcp]
    exact ⟨h.passBy fun hs => absurd hcp (mem_secondaries.mp hs).2.1, hp⟩
  rw [if_neg hcp]
  have hstats : ∀ f : Card → Card, (∀ k, (f k).vif = k.vif ∧ (f k).phyName = k.phyName ∧ (f k).hw = k.hw) →
      Frames tsfView (writeCard c f) := fun f hf => frames_writeCard c hf
  refine wp_besides_acquire (wp_besides_bind (wp_read fun w₁ h₁ => ?_))
  have hw₁ := h.passes h₁
  cases hv : (w₁.1.card c).vif with
  | none =>
    have hsec : c ∉ w₀.1.secondaries p := fun hs => by
      have hvif := (mem_secondaries.mp hs).2.2.1
      rw [← (hw₁.setup.card c).1, hv] at hvif
      cases hvif
    have hpassed := hw₁.passBy (c := c) fun hs => absurd hs hsec
    exact wp_besides_release (wp_rest (hstats _ fun _ => ⟨rfl, rfl, rfl⟩) hpassed (hp.passes h₁))
  | some vif =>
    have hget₁ : (w₁.1.card c).hw.ops.getTsf = true := by rwa [(hw₁.setup.card c).2.2]
    refine wp_besides_acquire (wp_besides_bind (wp_callGetTsf hget₁ fun w₂ w₃ h₂ h₃ => ?_))
    -- the counter is read in `w₂`
    have hw₂ := hw₁.passes h₂
    have hread := reading_now hw₂.inStep (by rwa [hw₂.setup.cardsList]) hw₂.now (hw₂.gone c)
    have hp₂ := (hp.passes h₁).passes h₂
    refine wp_besides_bind (wp_passes (hstats _ fun _ => ⟨rfl, rfl, rfl⟩) fun _ w₄ h₄ => ?_)
    have h₂₄ := h₃.trans h₄
    have hcount : ∀ f : Kernel → Kernel, (∀ s, tsfView (f s) = tsfView s) → Frames tsfView (do
        Prog.modify f
        mutexUnlock (.wiphy (w₁.1.card c).hw.wiphy)
        mutexUnlock (.card c)
        writeCard c fun k => { k with syncCount := k.syncCount + 1 }) := fun f hf =>
      frames_modify_bind hf (frames_release_bind (frames_release_bind (hstats _ fun _ => ⟨rfl, rfl, rfl⟩)))
    cases hr : reachesThreshold threshold (offsetNs primaryTsf (w₂.1.card c).hw.tsf) with
    | true =>
      rw [if_pos rfl]
      refine wp_besides_bind (wp_callSetTsf (fun hno w₅ h₅ => ?_) fun _ w₅ h₅ => ?_)
      · have hw₅ := (hw₂.passes h₂₄).passes h₅
        have hsec : c ∉ w₀.1.secondaries p := fun hs => by
          have hops := (mem_secondaries.mp hs).2.2.2
          rw [← ((hw₂.passes h₂₄).setup.card c).2.2, hno] at hops
          cases hops
        exact wp_rest (hcount _ fun _ => rfl) (hw₅.passBy fun hs => absurd hs hsec) ((hp₂.passes h₂₄).passes h₅)
      · have hp₅ := (hp₂.passes h₂₄).passes h₅
        have hset := ((hw₂.passes h₂₄).passes h₅).set hp₅ hcp hmem vif
        exact wp_rest (hcount _ fun _ => rfl) hset (hp₅.setTsf (Ne.symm hcp) vif primaryTsf)
    | false =>
      have hsettles : Settles δ p threshold w₀ w₂ c := by
        refine ⟨x, t, w₂.2.gone c, w₂.2.now, primaryTsf, hp₂,
          ⟨rfl, hread.inStep, hread.start, hread.since, hread.upTo⟩, hp₂.upTo, .inr ⟨hw₂.others c (.inr hdone), ?_⟩⟩
        rw [← tsf_eq]
        exact hr
      exact wp_rest (hcount _ fun _ => rfl) ((hw₂.passes h₂₄).passBy fun _ => hsettles.passes h₂₄) (hp₂.passes h₂₄)

/-! ## A whole cycle -/

/-- **A cycle settles every secondary.** -/
theorem wp_workFn (hp : w₀.1.primary = some p) (hvif : (w₀.1.card p).vif.isSome = true)
    (hget : ∀ c ∈ w₀.1.cardsList.ptrs, (w₀.1.card c).hw.ops.getTsf = true) (hstep : InStep δ w₀) :
    Wp (Passes δ) (fun _ w' => Walking δ p w₀.1.adjtimeThresholdNs w₀ w₀.1.cardsList.ptrs w')
      (Prog.besides tsfSyncWorkFn : WProg Unit) w₀ := by
  unfold tsfSyncWorkFn
  have hstart : Walking δ p w₀.1.adjtimeThresholdNs w₀ [] w₀ :=
    ⟨.refl _, hstep, Nat.le_refl _, fun _ => Nat.le_refl _, fun _ _ => rfl, fun _ h => by cases h⟩
  refine wp_besides_bind (wp_read fun w₁ h₁ => wp_besides_bind (wp_read fun w₂ h₂ => ?_))
  have hw₂ := (hstart.passes h₁).passes h₂
  rw [hw₂.setup.threshold]
  refine wp_besides_acquire (wp_besides_bind (wp_read fun w₃ h₃ => ?_))
  have hw₃ := hw₂.passes h₃
  have hfind : (if w₃.1.syncPrimary ≠ [] then
      w₃.1.cardsList.ptrs.find? fun c => (w₃.1.card c).phyName.bytes == w₃.1.syncPrimary
      else w₃.1.cardsList.ptrs.head?) = some p := hw₃.setup.primary_eq.trans hp
  rw [hfind]
  refine wp_besides_acquire (wp_besides_bind (wp_read fun w₄ h₄ => ?_))
  have hw₄ := hw₃.passes h₄
  obtain ⟨vif, hv⟩ := Option.isSome_iff_exists.mp hvif
  have hlisted := primary_listed hp
  rw [(hw₄.setup.card p).1, hv]
  have hget₄ : (w₄.1.card p).hw.ops.getTsf = true := by
    rw [(hw₄.setup.card p).2.2]
    exact hget p hlisted
  refine wp_besides_acquire (wp_besides_bind (wp_callGetTsf hget₄ fun w₅ w₆ h₅ h₆ => ?_))
  -- the primary is read in `w₅`
  have hw₅ := hw₄.passes h₅
  have hread := reading_now hw₅.inStep (by rwa [hw₅.setup.cardsList]) hw₅.now (hw₅.gone p)
  refine wp_besides_release (wp_besides_release (wp_besides_bind (wp_read fun w₇ h₇ => ?_)))
  have h₅₇ := h₆.trans h₇
  rw [(hw₅.passes h₅₇).setup.cardsList]
  refine wp_besides_bind ?_
  rw [Prog.besides_forM]
  have hnodup := w₀.1.cardsList.nodup
  refine (wp_forM (fun done w => Walking δ p w₀.1.adjtimeThresholdNs w₀ done w ∧ Reading δ w₀ w p _ _ _)
    (fun done c rest hxs w hI => ?_) ⟨hw₅.passes h₅₇, hread.passes h₅₇⟩).mono ?_
  · have hmem : c ∈ w₀.1.cardsList.ptrs := hxs ▸ List.mem_append_right _ List.mem_cons_self
    have hdone : c ∉ done := by
      rw [hxs] at hnodup
      exact fun hm => (List.nodup_append.mp hnodup).2.2 c hm c List.mem_cons_self rfl
    exact wp_syncSecondary (hget c hmem) hmem hdone hI.1 hI.2
  · intro _ w₈ h₈
    refine wp_besides_release ((wp_passes ?_ fun _ w₉ h₉ => h₈.1.passes h₉))
    exact frames_modify_bind (fun _ => rfl) (frames_modify fun _ => rfl)

/-! ## How far off it leaves them -/

/-- What the test of the cycle says of two counters, in microseconds. -/
theorem lt_of_not_reachesThreshold {a b : UInt64} (h : |(a - b).toInt64.toInt| ≤ (2 ^ 63 - 1) / 1000)
    (hr : reachesThreshold threshold (offsetNs a b) = false) : 1000 * |(a - b).toInt64.toInt| < threshold.toNat :=
  lt_of_not_reaches (s := .withCards [.upWith 0 a, .upWith 1 b]) (p := .card 0) (c := .card 1) h hr

/-- The offset of a card that a cycle has settled: the time between the two readings, or within the threshold of it. -/
theorem Settles.offset (h : Settles δ p threshold w₀ w c) (hp : p ∈ w.1.cardsList.ptrs) (hc : c ∈ w.1.cardsList.ptrs)
    (hstep₀ : InStep δ w₀) (hsetup : SameSetup w₀.1 w.1) (hstep : InStep δ w) (hbase : w.base p = w₀.base p)
    (hrange : 1000 * (|w₀.1.diffUsec p c| + ((w.2.now : Int) - w₀.2.now) + 4 * δ) < 2 ^ 63) :
    ∃ e : Int, -(4 * δ : Int) ≤ e ∧ e ≤ (w.2.now : Int) - w₀.2.now + 4 * δ ∧
      (w.1.diffUsec p c = e ∨ 1000 * |w.1.diffUsec p c - e| < threshold.toNat) := by
  obtain ⟨x, t, y, u, tsf, hpr, hcr, htu, hor⟩ := h
  have hgp := abs_le.mp (hstep p hp)
  have hgc := abs_le.mp (hstep c hc)
  have hx := abs_le.mp hpr.inStep
  have hy := abs_le.mp hcr.inStep
  have hsince := hpr.since
  have hupTo := hcr.upTo
  have hnonneg := abs_nonneg (w₀.1.diffUsec p c)
  refine ⟨((y + w.2.gone p : Nat) : Int) - (x + w.2.gone c : Nat), by omega, by omega, ?_⟩
  have hval := hpr.value
  rcases hor with hset | ⟨hkept, hr⟩
  · left
    have hcome : (w.1.card p).hw.tsf - (w.1.card c).hw.tsf + UInt64.ofNat (x + w.2.gone c) =
        0 + UInt64.ofNat (y + w.2.gone p) := by
      rw [tsf_eq, tsf_eq, UInt64.ofNat_add, UInt64.ofNat_add]
      grind
    have hzero : (0 : UInt64).toInt64.toInt = 0 := rfl
    have hdiff := toInt_toInt64_of_add_eq hcome (by rw [hzero]; omega) (by rw [hzero]; omega)
    rw [hzero, zero_add] at hdiff
    exact hdiff
  · right
    have hgp₀ := abs_le.mp (hstep₀ p (by rwa [← hsetup.cardsList]))
    have hgc₀ := abs_le.mp (hstep₀ c (by rwa [← hsetup.cardsList]))
    have hd₀ := abs_le.mp (le_refl |w₀.1.diffUsec p c|)
    -- the offset that the cycle computed, from that at the start
    have hread : tsf - (w.base c + UInt64.ofNat y) + UInt64.ofNat (y + w₀.2.gone p) =
        (w₀.1.card p).hw.tsf - (w₀.1.card c).hw.tsf + UInt64.ofNat (x + w₀.2.gone c) := by
      rw [tsf_eq, tsf_eq, UInt64.ofNat_add, UInt64.ofNat_add, hval, hbase, hkept]
      grind
    have hdiff₀ : ((w₀.1.card p).hw.tsf - (w₀.1.card c).hw.tsf).toInt64.toInt = w₀.1.diffUsec p c := rfl
    have hcomputed := toInt_toInt64_of_add_eq hread (by rw [hdiff₀]; omega) (by rw [hdiff₀]; omega)
    rw [hdiff₀] at hcomputed
    have hlt := lt_of_not_reachesThreshold (by rw [abs_le]; omega) hr
    have hthr := threshold.toNat_lt
    have hd := abs_le.mp (le_refl |(tsf - (w.base c + UInt64.ofNat y)).toInt64.toInt|)
    -- and the offset now, from that
    have hnow : (w.1.card p).hw.tsf - (w.1.card c).hw.tsf + UInt64.ofNat (x + w.2.gone c) =
        tsf - (w.base c + UInt64.ofNat y) + UInt64.ofNat (y + w.2.gone p) := by
      rw [tsf_eq, tsf_eq, UInt64.ofNat_add, UInt64.ofNat_add, hval]
      grind
    have hoff := toInt_toInt64_of_add_eq hnow (by omega) (by omega)
    have hmoved : w.1.diffUsec p c - ((y + w.2.gone p : Nat) - (x + w.2.gone c : Nat) : Int) =
        (tsf - (w.base c + UInt64.ofNat y)).toInt64.toInt := by
      rw [Kernel.diffUsec, hoff]
      omega
    rw [hmoved]
    exact hlt

/-- The threads: `r` does one cycle, the others stand by. -/
def cycleAmong {ι : Type} [DecidableEq ι] (δ : Nat) (r : ι) (others : ι → List Bystander) (i : ι) : WProg Unit :=
  if i = r then Prog.besides tsfSyncWorkFn else forM (others i) (Bystander.prog δ)

/-- **How far off a cycle leaves a secondary** while the clocks run, with counters that keep in step with the time up to
`δ`: no more behind the primary than the cycle took, and none ahead, or within the threshold of that. -/
theorem offset_workFn {ι : Type} [DecidableEq ι] {r : ι} {others : ι → List Bystander} {sched : List ι}
    {pool : Pool ι World LockId} (hp : w₀.1.primary = some p) (hvif : (w₀.1.card p).vif.isSome = true)
    (hget : ∀ c ∈ w₀.1.cardsList.ptrs, (w₀.1.card c).hw.ops.getTsf = true) (hstep : InStep δ w₀)
    (hrun : Pool.runs sched (.start (cycleAmong δ r others) w₀) = some pool) (hret : pool.prog r = .ret ())
    (hc : c ∈ w₀.1.secondaries p)
    (hrange : 1000 * (|w₀.1.diffUsec p c| + ((pool.state.2.now : Int) - w₀.2.now) + 4 * δ) < 2 ^ 63) :
    ∃ e : Int, -(4 * δ : Int) ≤ e ∧ e ≤ (pool.state.2.now : Int) - w₀.2.now + 4 * δ ∧
      (pool.state.1.diffUsec p c = e ∨
        1000 * |pool.state.1.diffUsec p c - e| < w₀.1.adjtimeThresholdNs.toNat) := by
  have hmoves : ∀ j, j ≠ r → Moves (Passes δ) (cycleAmong δ r others j) := by
    intro j hj
    rw [cycleAmong, if_neg hj]
    exact moves_forM fun b _ => moves_bystander b
  have hcycle := wp_workFn hp hvif hget hstep
  rw [← show cycleAmong δ r others r = Prog.besides tsfSyncWorkFn from if_pos rfl] at hcycle
  obtain ⟨w, hw, hend⟩ := Pool.wp_end (c := .start (cycleAmong δ r others) w₀) hmoves hcycle hrun hret
  have hfinal := hend.passes hw
  have hlist := hfinal.setup.cardsList
  obtain ⟨hmem, -⟩ := mem_secondaries.mp hc
  refine (hfinal.settles c hmem hc).offset ?_ ?_ hstep hfinal.setup hfinal.inStep (hfinal.others p (.inl rfl)) hrange
  · rw [hlist]
    exact primary_listed hp
  · rwa [hlist]

/-- Two cards, one 10 µs behind, and a thread that lets 3 µs pass. -/
def twoRunning (sched : List Bool) : Option (Pool Bool World LockId) :=
  Pool.runs sched (.start (cycleAmong 0 true fun _ => [.passTime ⟨3, fun _ => 3⟩])
    (.withCards [.upWith 0 110, .upWith 1 100], ⟨0, fun _ => 0, 0⟩))

/-- The 3 µs pass after the read of the primary: the secondary is 3 µs behind. -/
theorem offset_workFn_run : ∃ pool, twoRunning (List.replicate 12 true ++ [false] ++ List.replicate 15 true) = some pool ∧
    pool.state.1.diffUsec (.card 0) (.card 1) = 3 ∧ ∃ e : Int, -(4 * (0 : Nat) : Int) ≤ e ∧
      e ≤ (pool.state.2.now : Int) - 0 + 4 * (0 : Nat) ∧ (pool.state.1.diffUsec (.card 0) (.card 1) = e ∨
        1000 * |pool.state.1.diffUsec (.card 0) (.card 1) - e| < 5000) := by
  obtain ⟨pool, hrun, hret, hdiff, hnow⟩ : ∃ pool,
      twoRunning (List.replicate 12 true ++ [false] ++ List.replicate 15 true) = some pool ∧ pool.prog true = .ret () ∧
        pool.state.1.diffUsec (.card 0) (.card 1) = 3 ∧ pool.state.2.now = 3 := ⟨_, rfl, rfl, by decide, rfl⟩
  refine ⟨pool, hrun, hdiff, ?_⟩
  exact offset_workFn (p := .card 0) (c := .card 1) rfl rfl (by decide) (by decide) hrun hret (by decide)
    (by rw [hnow]; decide)

end Running

end TsfSync
