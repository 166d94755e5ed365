import TsfSync.Kernel.Latency
import TsfSync.ModeC.Converge

/-!
# How far a cycle of Mode C is off

The daemon reads all TSFs in one call and writes its adjustments in another, while the clocks run. Whatever time passes
between the two calls, a card that is adjusted ends no further from the primary than the two calls took together
(`offset_syncOnce`): the offset that was read holds for as long as the clocks keep in step, and only the time between the
two readings, and between the two halves of the read-modify-write, is lost.
-/

namespace TsfSync

open LockProg MachineWord Uapi User User.IoUringSyncer

namespace Running

variable {δ : Nat} {p c : CardPtr} {w₀ w₁ w w' : World}

/-! ## Calls of the device -/

/-- A call of the device, which is metered. -/
def metered {α : Type} (call : KProg α) : WProg α := do
  let start ← Prog.read (fun w : World => w.2.now)
  let result ← Prog.besides call
  Prog.modify fun w => (w.1, { w.2 with metered := w.2.metered + (w.2.now - start) })
  return result

/-- The module's device where the clocks run. -/
def runningDev : DevTsfSync WProg where
  read := fun count => metered (tsfSyncChardevRead .ok count)
  write := fun buf => metered (tsfSyncChardevWrite .ok buf)

/-- A call has taken some time. -/
def World.charge (w : World) (elapsed : Nat) : World := (w.1, { w.2 with metered := w.2.metered + elapsed })

theorem wp_metered {α : Type} {Q : α → World → Prop} {call : KProg α} (h : ∀ w₁, Passes δ w w₁ →
    Wp (Passes δ) (fun a w₂ => ∀ w₃, Passes δ w₂ w₃ → Q a (w₃.charge (w₃.2.now - w₁.2.now)))
      (Prog.besides call : WProg α) w₁) : Wp (Passes δ) Q (metered call) w := by
  refine wp_bind fun w₁ h₁ => wp_bind ((h w₁ h₁).mono fun a w₂ h₂ => ?_)
  exact fun w₃ h₃ => h₂ w₃ h₃

/-! ## The read -/

/-- What the daemon uses of a snapshot. -/
def key (snap : User.TsfSnapshot) : UInt32 × Int64 := (snap.cardIndex, snap.tsfNs)

/-- What a snapshot was taken of. -/
theorem wp_takeSnapshot (i : Nat) (hvif : (w.1.card c).vif.isSome = true) (hget : (w.1.card c).hw.ops.getTsf = true)
    (hc : c ∈ w.1.cardsList.ptrs) (hstep : InStep δ w₁) (h : Passes δ w₁ w) :
    Wp (Passes δ) (fun snap w' => Passes δ w w' ∧ ∃ x t tsf, Reading δ w₁ w' c x t tsf ∧
      key snap.toUser = (UInt32.ofNat i, tsfToNs tsf)) (Prog.besides (takeSnapshot i c) : WProg _) w := by
  unfold takeSnapshot
  refine wp_besides_bind (wp_read fun w₂ h₂ => ?_)
  refine wp_besides_acquire (wp_besides_bind (wp_read fun w₃ h₃ => ?_))
  have h₁₃ := (h.trans h₂).trans h₃
  obtain ⟨vif, hv⟩ := Option.isSome_iff_exists.mp hvif
  have hv₃ : (w₃.1.card c).vif = some vif := ((h₂.trans h₃).setup.card c).1.trans hv
  have hget₃ : (w₃.1.card c).hw.ops.getTsf = true := by rwa [((h₂.trans h₃).setup.card c).2.2]
  dsimp only
  rw [hv₃]
  refine wp_besides_acquire (wp_besides_bind (wp_callGetTsf hget₃ fun w₄ w₅ h₄ h₅ => ?_))
  have hlisted : c ∈ w₄.1.cardsList.ptrs := by rwa [((h₂.trans h₃).trans h₄).setup.cardsList]
  have h₁₄ := h₁₃.trans h₄
  have hread := reading_now (h₁₄.inStep hstep) hlisted h₁₄.now (h₁₄.gone c)
  refine wp_besides_release (wp_besides_bind (wp_read fun w₆ h₆ => ?_))
  exact ⟨((((h₂.trans h₃).trans h₄).trans h₅).trans h₆), _, _, _, (hread.passes h₅).passes h₆, rfl⟩

/-- The values that the snapshots of a walk show. -/
theorem wp_snapshotLoop (n : Nat) (hstep : InStep δ w₁) : ∀ (cards : List CardPtr) (i : Nat) {w : World},
    cards.Nodup → i + cards.length ≤ n → (∀ c ∈ cards, (w₁.1.card c).vif.isSome = true) →
    (∀ c ∈ cards, (w₁.1.card c).hw.ops.getTsf = true) → (∀ c ∈ cards, c ∈ w₁.1.cardsList.ptrs) → Passes δ w₁ w →
    Wp (Passes δ) (fun snaps w' => Passes δ w w' ∧ ∃ tsf : CardPtr → UInt64,
      (∀ c ∈ cards, ∃ x t, Reading δ w₁ w' c x t (tsf c)) ∧
      snaps.map (key ∘ Uapi.TsfSnapshot.toUser) = (cards.zipIdx i).map fun x => (UInt32.ofNat x.2, tsfToNs (tsf x.1)))
      (Prog.besides (snapshotLoop n i cards) : WProg _) w
  | [], _, w, _, _, _, _, _, _ => ⟨.refl δ w, fun _ => 0, (fun _ hc => by cases hc), rfl⟩
  | c :: cards, i, w, hnodup, hlen, hvif, hget, hlisted, h => by
    obtain ⟨hnot, hnodup⟩ := List.nodup_cons.mp hnodup
    rw [List.length_cons] at hlen
    have hc : c ∈ c :: cards := List.mem_cons_self
    have htail : ∀ {P : CardPtr → Prop}, (∀ d ∈ c :: cards, P d) → ∀ d ∈ cards, P d :=
      fun hP d hd => hP d (List.mem_cons_of_mem _ hd)
    unfold snapshotLoop
    rw [if_neg (by omega)]
    have hvif₁ : (w.1.card c).vif.isSome = true := by rw [(h.setup.card c).1]; exact hvif c hc
    have hget₁ : (w.1.card c).hw.ops.getTsf = true := by rw [(h.setup.card c).2.2]; exact hget c hc
    have hlisted₁ : c ∈ w.1.cardsList.ptrs := by rw [h.setup.cardsList]; exact hlisted c hc
    refine wp_besides_bind ((wp_takeSnapshot i hvif₁ hget₁ hlisted₁ hstep h).mono ?_)
    rintro snap w₂ ⟨h₂, x, t, v, hread, hkey⟩
    refine wp_besides_bind ((wp_snapshotLoop n hstep cards (i + 1) hnodup (by omega) (htail hvif) (htail hget)
      (htail hlisted) (h.trans h₂)).mono ?_)
    rintro snaps w₃ ⟨h₃, tsf, hreads, hkeys⟩
    refine ⟨h₂.trans h₃, Function.update tsf c v, fun d hd => ?_, ?_⟩
    · by_cases hdc : d = c
      · subst hdc
        rw [Function.update_self]
        exact ⟨x, t, hread.passes h₃⟩
      · rw [Function.update_of_ne hdc]
        exact hreads d ((List.mem_cons.mp hd).resolve_left hdc)
    · rw [List.map_cons, Function.comp_apply, hkey, hkeys, List.zipIdx_cons, List.map_cons, Function.update_self]
      refine congrArg _ (List.map_congr_left fun x hx => ?_)
      have hne : x.1 ≠ c := fun e => hnot (e ▸ List.fst_mem_of_mem_zipIdx hx)
      rw [Function.update_of_ne hne]

/-- The read: what it returns decodes to the values that the counters showed at some time during it. -/
theorem wp_chardevRead (hcards : w.1.cardsList.ptrs ≠ []) (hvif : ∀ c ∈ w.1.cardsList.ptrs, (w.1.card c).vif.isSome = true)
    (hget : ∀ c ∈ w.1.cardsList.ptrs, (w.1.card c).hw.ops.getTsf = true) (hfew : w.1.cardsList.ptrs.length ≤ maxCards)
    (hstep : InStep δ w) :
    Wp (Passes δ) (fun answer w' => Passes δ w w' ∧ ∃ (bytes : List UInt8) (tsf : CardPtr → UInt64),
      answer = .ok bytes ∧
      (∀ c ∈ w.1.cardsList.ptrs, ∃ x t, Reading δ w w' c x t (tsf c)) ∧
      (decodeSnapshots bytes).map key =
        w.1.cardsList.ptrs.zipIdx.map fun x => (UInt32.ofNat x.2, tsfToNs (tsf x.1)))
      (Prog.besides (tsfSyncChardevRead .ok (snapshotSize * maxCards)) : WProg _) w := by
  unfold tsfSyncChardevRead
  refine wp_besides_acquire (wp_besides_bind (wp_read fun w₁ h₁ => ?_))
  rw [h₁.setup.cardsList]
  have hlen : w.1.cardsList.ptrs.length ≠ 0 := mt List.length_eq_zero_iff.mp hcards
  dsimp only
  rw [if_neg hlen]
  refine wp_besides_bind ((wp_snapshotLoop _ hstep _ 0 w.1.cardsList.nodup (by omega) hvif hget (fun _ h => h) h₁).mono ?_)
  rintro snaps w₂ ⟨h₂, tsf, hreads, hkeys⟩
  refine ⟨h₁.trans h₂, _, tsf, rfl, hreads, ?_⟩
  have hcount : snaps.length = w.1.cardsList.ptrs.length := by
    have hl := congrArg List.length hkeys
    rwa [List.length_map, List.length_map, List.length_zipIdx] at hl
  have hsize : min (snapshotSize * maxCards) (snaps.length * snapSize) = snapSize * snaps.length := by
    simp only [snapshotSize, snapSize]
    omega
  rw [hsize, decodeSnapshots_take, show snapSize * snaps.length / snapshotSize = snaps.length from
    Nat.mul_div_cancel_left _ (by decide), List.take_length, List.map_map]
  exact hkeys

/-! ## The write -/

/-- The counter was at `y` when it was read, at a time `t` since `w₀`, and at `z` when it was set, at a time `u`. -/
structure Moved (δ : Nat) (w₀ w : World) (c : CardPtr) (deltaNs : Int64) (y t z u : Nat) : Prop where
  value : w.base c + UInt64.ofNat z = addDeltaNs (w₀.base c + UInt64.ofNat y) deltaNs
  readInStep : |(y : Int) - t| ≤ δ
  setInStep : |(z : Int) - u| ≤ δ
  since : w₀.2.now ≤ t
  order : t ≤ u
  upTo : u ≤ w.2.now

/-- What the adjustments that name a card have done to it. -/
def Outcome (δ : Nat) (threshold : UInt32) (w₀ w : World) (c : CardPtr) : List Uapi.TsfAdjustment → Prop
  | [] => w.base c = w₀.base c
  | [adj] =>
    if belowThreshold threshold adj.deltaNs then w.base c = w₀.base c
    else ∃ y t z u, Moved δ w₀ w c adj.deltaNs y t z u
  | _ => True

theorem outcome_of_below {threshold : UInt32} {adj : Uapi.TsfAdjustment}
    (hb : belowThreshold threshold adj.deltaNs = true) :
    Outcome δ threshold w₀ w c [adj] ↔ w.base c = w₀.base c := by
  unfold Outcome
  simp [hb]

theorem outcome_of_reaches {threshold : UInt32} {adj : Uapi.TsfAdjustment}
    (hb : belowThreshold threshold adj.deltaNs = false) :
    Outcome δ threshold w₀ w c [adj] ↔ ∃ y t z u, Moved δ w₀ w c adj.deltaNs y t z u := by
  unfold Outcome
  simp [hb]

/-- An outcome lasts as long as the counter is not set. -/
theorem Outcome.mono {threshold : UInt32} {adjs : List Uapi.TsfAdjustment} (h : Outcome δ threshold w₀ w c adjs)
    (hbase : w'.base c = w.base c) (hnow : w.2.now ≤ w'.2.now) : Outcome δ threshold w₀ w' c adjs := by
  match adjs with
  | [] => exact hbase.trans h
  | [adj] =>
    cases hb : belowThreshold threshold adj.deltaNs with
    | true =>
      rw [outcome_of_below hb] at h ⊢
      exact hbase.trans h
    | false =>
      rw [outcome_of_reaches hb] at h ⊢
      obtain ⟨y, t, z, u, hm⟩ := h
      exact ⟨y, t, z, u, by rw [hbase]; exact hm.value, hm.readInStep, hm.setInStep, hm.since, hm.order,
        hm.upTo.trans hnow⟩
  | _ :: _ :: _ => trivial

/-- A second adjustment for a card is one too many to say anything. -/
theorem outcome_snoc {threshold : UInt32} {adj : Uapi.TsfAdjustment} : ∀ {adjs : List Uapi.TsfAdjustment},
    (adjs = [] → Outcome δ threshold w₀ w c [adj]) → Outcome δ threshold w₀ w c (adjs ++ [adj])
  | [], h => h rfl
  | [_], _ => trivial
  | _ :: _ :: _, _ => trivial

/-- The adjustment names the card. -/
def Names (cards : List CardPtr) (c : CardPtr) (adj : Uapi.TsfAdjustment) : Bool :=
  findByIndex cards adj.cardIndex == some c

/-- In the middle of a write: `done` are the adjustments so far. -/
structure Writing (δ : Nat) (threshold : UInt32) (w₀ : World) (done : List Uapi.TsfAdjustment) (w : World) : Prop where
  setup : SameSetup w₀.1 w.1
  inStep : InStep δ w
  now : w₀.2.now ≤ w.2.now
  gone : ∀ c, w₀.2.gone c ≤ w.2.gone c
  metered : w.2.metered = w₀.2.metered
  outcome : ∀ c, Outcome δ threshold w₀ w c (done.filter (Names w₀.1.cardsList.ptrs c))

variable {threshold : UInt32} {done : List Uapi.TsfAdjustment} {adj : Uapi.TsfAdjustment}

theorem Writing.passes (h : Writing δ threshold w₀ done w) (hw : Passes δ w w') : Writing δ threshold w₀ done w' where
  setup := h.setup.trans hw.setup
  inStep := hw.inStep h.inStep
  now := h.now.trans hw.now
  gone := fun c => (h.gone c).trans (hw.gone c)
  metered := hw.metered.trans h.metered
  outcome := fun c => (h.outcome c).mono (hw.base c) hw.now

theorem filter_snoc_of_ne {d : CardPtr} (hadj : findByIndex w₀.1.cardsList.ptrs adj.cardIndex = some c) (hd : d ≠ c) :
    (done ++ [adj]).filter (Names w₀.1.cardsList.ptrs d) = done.filter (Names w₀.1.cardsList.ptrs d) := by
  have hno : Names w₀.1.cardsList.ptrs d adj = false := by simpa [Names, hadj] using Ne.symm hd
  rw [List.filter_append, List.filter_cons_of_neg (by simp [hno]), List.filter_nil, List.append_nil]

theorem filter_snoc_self (hadj : findByIndex w₀.1.cardsList.ptrs adj.cardIndex = some c) :
    (done ++ [adj]).filter (Names w₀.1.cardsList.ptrs c) = done.filter (Names w₀.1.cardsList.ptrs c) ++ [adj] := by
  have hyes : Names w₀.1.cardsList.ptrs c adj = true := by simp [Names, hadj]
  rw [List.filter_append, List.filter_cons_of_pos hyes, List.filter_nil]

/-- An adjustment below the threshold. -/
theorem Writing.skip (h : Writing δ threshold w₀ done w)
    (hadj : findByIndex w₀.1.cardsList.ptrs adj.cardIndex = some c) (hb : belowThreshold threshold adj.deltaNs = true) :
    Writing δ threshold w₀ (done ++ [adj]) w where
  setup := h.setup
  inStep := h.inStep
  now := h.now
  gone := h.gone
  metered := h.metered
  outcome := fun d => by
    have hd := h.outcome d
    by_cases hdc : d = c
    · subst hdc
      rw [filter_snoc_self hadj]
      refine outcome_snoc fun hnone => ?_
      rw [hnone] at hd
      rw [outcome_of_below hb]
      exact hd
    · rw [filter_snoc_of_ne hadj hdc]
      exact hd

/-- An adjustment of a card whose counter was read as `v` in `w₁`. -/
theorem Writing.adjust (h₁ : Writing δ threshold w₀ done w₁) (h : Passes δ w₁ w)
    (hadj : findByIndex w₀.1.cardsList.ptrs adj.cardIndex = some c) (hb : belowThreshold threshold adj.deltaNs = false)
    (hc : c ∈ w₀.1.cardsList.ptrs) (vif : DevId) :
    Writing δ threshold w₀ (done ++ [adj]) (w.setTsf c vif (addDeltaNs (w₁.1.card c).hw.tsf adj.deltaNs)) := by
  have hw := h₁.passes h
  have hsetup := sameSetup_setTsf w c vif (addDeltaNs (w₁.1.card c).hw.tsf adj.deltaNs)
  refine ⟨hw.setup.trans hsetup, fun d hd => hw.inStep d (by rwa [hsetup.cardsList] at hd), hw.now, hw.gone, hw.metered,
    fun d => ?_⟩
  by_cases hdc : d = c
  · subst hdc
    rw [filter_snoc_self hadj]
    refine outcome_snoc fun hnone => ?_
    -- the first adjustment that names the card finds it as it was at the start
    have hbase : w₁.base d = w₀.base d := by
      have hout := h₁.outcome d
      rwa [hnone] at hout
    rw [outcome_of_reaches hb]
    refine ⟨w₁.2.gone d, w₁.2.now, w.2.gone d, w.2.now, ?_, ?_, ?_, h₁.now, h.now, Nat.le_refl _⟩
    · rw [base_setTsf_self, tsf_eq, hbase]
      grind
    · exact h₁.inStep d (by rwa [h₁.setup.cardsList])
    · exact hw.inStep d (by rwa [hw.setup.cardsList])
  · rw [filter_snoc_of_ne hadj hdc]
    exact (hw.outcome d).mono (base_setTsf_ne w vif _ hdc) (Nat.le_refl _)

/-- One round. -/
theorem wp_applyAdjustment (hadj : findByIndex w₀.1.cardsList.ptrs adj.cardIndex = some c)
    (hc : c ∈ w₀.1.cardsList.ptrs) (hvif : (w₀.1.card c).vif.isSome = true) (hops : (w₀.1.card c).hw.ops = ⟨true, true⟩)
    (h : Writing δ threshold w₀ done w) : Wp (Passes δ) (fun _ w' => Writing δ threshold w₀ (done ++ [adj]) w')
      (Prog.besides (applyAdjustment findByIndex threshold adj) : WProg Unit) w := by
  unfold applyAdjustment
  cases hb : belowThreshold threshold adj.deltaNs with
  | true =>
    rw [if_pos rfl]
    exact wp_passes (frames_modify fun _ => rfl) fun _ w₁ h₁ => (h.passes h₁).skip hadj hb
  | false =>
    rw [if_neg Bool.false_ne_true]
    refine wp_besides_bind (wp_read fun w₁ h₁ => ?_)
    have hw₁ := h.passes h₁
    rw [hw₁.setup.cardsList, hadj]
    refine wp_besides_acquire (wp_besides_bind (wp_read fun w₂ h₂ => ?_))
    have hw₂ := hw₁.passes h₂
    obtain ⟨vif, hv⟩ := Option.isSome_iff_exists.mp hvif
    have hcard := hw₂.setup.card c
    rw [hcard.1, hv]
    have hget : (w₂.1.card c).hw.ops.getTsf = true := by rw [hcard.2.2, hops]
    refine wp_besides_acquire (wp_besides_bind (wp_callGetTsf hget fun w₃ w₄ h₃ h₄ => ?_))
    have hw₃ := hw₂.passes h₃
    have hset : (w₄.1.card c).hw.ops.setTsf = true := by rw [((hw₃.passes h₄).setup.card c).2.2, hops]
    refine wp_besides_bind (wp_callSetTsf (fun hno => ?_) fun _ w₅ h₅ => ?_)
    · rw [hset] at hno
      cases hno
    · have hdone := hw₃.adjust (h₄.trans h₅) hadj hb hc vif
      refine wp_besides_release (wp_besides_release (wp_passes (frames_modify fun _ => rfl) fun _ w₆ h₆ => ?_))
      exact hdone.passes h₆

/-- The write. -/
theorem wp_chardevWrite {adjs : List User.TsfAdjustment} (hne : adjs ≠ []) (hstep : InStep δ w)
    (hadjs : ∀ adj ∈ adjs.map User.TsfAdjustment.toKernel, ∃ c ∈ w.1.cardsList.ptrs,
      findByIndex w.1.cardsList.ptrs adj.cardIndex = some c ∧ (w.1.card c).vif.isSome = true ∧
        (w.1.card c).hw.ops = ⟨true, true⟩) :
    Wp (Passes δ) (fun _ w' => Writing δ w.1.adjtimeThresholdNs w (adjs.map User.TsfAdjustment.toKernel) w')
      (Prog.besides (tsfSyncChardevWrite .ok (adjs.flatMap User.TsfAdjustment.bytes)) : WProg _) w := by
  have hlen : ∀ a : User.TsfAdjustment, a.bytes.length = Uapi.adjSize := User.TsfAdjustment.length_bytes
  have hlength := ByteCodec.length_flatMap_const hlen adjs
  have hpos : 0 < adjs.length := List.length_pos_iff.mpr hne
  unfold tsfSyncChardevWrite chardevWrite
  refine wp_besides_bind (wp_read fun w₁ h₁ => ?_)
  have hstart : Writing δ w.1.adjtimeThresholdNs w [] w :=
    ⟨.refl _, hstep, Nat.le_refl _, fun _ => Nat.le_refl _, rfl, fun _ => rfl⟩
  have hpos' : 0 < adjs.length * Uapi.adjSize := Nat.mul_pos hpos (by decide)
  have hcount : adjs.length * Uapi.adjSize / Uapi.adjSize = adjs.length := Nat.mul_div_cancel _ (by decide)
  dsimp only
  rw [h₁.setup.threshold, hlength, if_neg (by omega), hcount, if_neg (by omega)]
  refine wp_besides_acquire (wp_besides_bind ?_)
  rw [decodeAdjustments_flatMap, Prog.besides_forM]
  refine (wp_forM (Writing δ w.1.adjtimeThresholdNs w) (fun done adj rest hxs w₂ h₂ => ?_) (hstart.passes h₁)).mono
    fun _ w₃ h₃ => h₃
  obtain ⟨c, hc, hfind, hvif, hops⟩ := hadjs adj (hxs ▸ List.mem_append_right _ List.mem_cons_self)
  exact wp_applyAdjustment hfind hc hvif hops h₂

/-! ## A whole cycle -/

section Cycle

variable {self : IoUringSyncer} {tsf : CardPtr → UInt64} {snaps : List User.TsfSnapshot}

/-- The snapshots of a state whose counters show `tsf`, as far as the daemon uses them. -/
theorem keys_of_state (h : Steady self w₀.1 p) :
    ((visible (w₀.1.advance tsf)).zipIdx.map fun x => (snapshotOf (w₀.1.advance tsf) x.2 x.1).toUser).map key =
      w₀.1.cardsList.ptrs.zipIdx.map fun x => (UInt32.ofNat x.2, tsfToNs (tsf x.1)) := by
  have hvis : visible (w₀.1.advance tsf) = w₀.1.cardsList.ptrs := h.visible_eq
  rw [hvis, List.map_map]
  refine List.map_congr_left fun x hx => ?_
  have hmem : x.1 ∈ w₀.1.cardsList.ptrs := List.fst_mem_of_mem_zipIdx hx
  have hvif := h.vif x.1 hmem
  have hops := h.ops x.1 hmem
  simp [key, Uapi.TsfSnapshot.toUser, snapshotOf, Card.snapNs, Card.readTsf, Kernel.advance, hvif, hops]

/-- The daemon finds its primary, and adjusts as if the counters had shown `tsf` all at once. -/
theorem adjustments_of_keys (h : Steady self w₀.1 p)
    (hkeys : snaps.map key = w₀.1.cardsList.ptrs.zipIdx.map fun x => (UInt32.ofNat x.2, tsfToNs (tsf x.1))) :
    ∃ snap, snaps.find? (·.cardIndex == self.primaryIndex) = some snap ∧ ∀ stats : SyncStats,
      ((snaps.foldl (self.consider snap.tsfNs) (stats, [])).2).map User.TsfAdjustment.toKernel =
        self.adjustments (w₀.1.advance tsf) := by
  have hlisted : (visible (w₀.1.advance tsf))[self.primaryIndex.toNat]? = some p := h.visible_primary
  have hsame := hkeys.trans (keys_of_state h).symm
  have hfind : (snaps.find? (·.cardIndex == self.primaryIndex)).map key =
      some (key (snapshotOf (w₀.1.advance tsf) self.primaryIndex.toNat p).toUser) := by
    have hmap : ∀ l : List User.TsfSnapshot, (l.find? (·.cardIndex == self.primaryIndex)).map key =
        (l.map key).find? (·.1 == self.primaryIndex) := fun l => by
      rw [List.find?_map]
      rfl
    rw [hmap, hsame, ← hmap, find?_primary, hlisted]
    rfl
  obtain ⟨snap, hsnap, hkey⟩ := Option.map_eq_some_iff.mp hfind
  have htsf : snap.tsfNs = ((w₀.1.advance tsf).card p).snapNs := congrArg Prod.snd hkey
  refine ⟨snap, hsnap, fun stats => ?_⟩
  rw [htsf, ← map_toKernel_foldl self (w₀.1.advance tsf) hlisted stats, foldl_consider, foldl_consider]
  -- the rounds look at nothing but the index and the TSF
  have hrounds : ∀ (l : List User.TsfSnapshot) (primaryTsf : Int64), (l.filterMap fun snap =>
        if snap.cardIndex = self.primaryIndex then none
        else if absW (primaryTsf - snap.tsfNs) > self.thresholdNs then
          some (⟨snap.cardIndex, primaryTsf - snap.tsfNs⟩ : User.TsfAdjustment)
        else none) = (l.map key).filterMap fun k =>
        if k.1 = self.primaryIndex then none
        else if absW (primaryTsf - k.2) > self.thresholdNs then some ⟨k.1, primaryTsf - k.2⟩ else none := by
    intro l primaryTsf
    rw [List.filterMap_map]
    rfl
  rw [hrounds, hrounds, hsame]

/-- What a cycle has done: the counters were read between `r₀` and `r₁`, the adjustments that follow from what they
showed were made between `s₀` and `s₁`, and both calls are metered. -/
structure Synced (δ : Nat) (syncer : IoUringSyncer) (w₀ : World) (tsf : CardPtr → UInt64) (r₀ r₁ s₀ s₁ w : World) :
    Prop where
  setup : SameSetup w₀.1 w.1
  inStep : InStep δ w
  start : w₀.2.now ≤ r₀.2.now
  gone : ∀ c, w₀.2.gone c ≤ r₀.2.gone c
  reads : ∀ c ∈ w₀.1.cardsList.ptrs, ∃ x t, Reading δ r₀ r₁ c x t (tsf c)
  readBase : ∀ c, r₁.base c = w₀.base c
  readUpTo : r₁.2.now ≤ w.2.now
  writeBase : ∀ c, s₀.base c = w₀.base c
  writeStart : w₀.2.now ≤ s₀.2.now
  writeUpTo : s₁.2.now ≤ w.2.now
  outcome : ∀ c, Outcome δ w₀.1.adjtimeThresholdNs s₀ s₁ c
    ((syncer.adjustments (w₀.1.advance tsf)).filter (Names w₀.1.cardsList.ptrs c))
  base : ∀ c, w.base c = s₁.base c
  metered : w₀.2.metered + (r₁.2.now - r₀.2.now) + (s₁.2.now - s₀.2.now) ≤ w.2.metered

theorem Synced.passes {r₀ r₁ s₀ s₁ : World} (h : Synced δ self w₀ tsf r₀ r₁ s₀ s₁ w) (hw : Passes δ w w') :
    Synced δ self w₀ tsf r₀ r₁ s₀ s₁ w' :=
  { h with
    setup := h.setup.trans hw.setup
    inStep := hw.inStep h.inStep
    readUpTo := h.readUpTo.trans hw.now
    writeUpTo := h.writeUpTo.trans hw.now
    base := fun c => (hw.base c).trans (h.base c)
    metered := hw.metered ▸ h.metered }

/-- An adjustment of a cycle names a card. -/
theorem adjustments_name {adj : Uapi.TsfAdjustment}
    (hadj : adj ∈ self.adjustments (w₀.1.advance tsf)) :
    ∃ c ∈ w₀.1.cardsList.ptrs, findByIndex w₀.1.cardsList.ptrs adj.cardIndex = some c := by
  obtain ⟨primary, c, i, -, hc, -, -, rfl⟩ := mem_adjustments.mp hadj
  exact ⟨c, List.mem_of_getElem? (visible_getElem? hc).2, findByIndex_visible hc⟩

/-- **One cycle.** -/
theorem wp_syncOnce (h : Steady self w₀.1 p) (hstep : InStep δ w₀) :
    Wp (Passes δ) (fun _ w => ∃ tsf r₀ r₁ s₀ s₁, Synced δ self w₀ tsf r₀ r₁ s₀ s₁ w) (self.syncOnce runningDev) w₀ := by
  have hcards : w₀.1.cardsList.ptrs ≠ [] := List.ne_nil_of_mem h.primary_mem
  unfold IoUringSyncer.syncOnce readSnapshots
  refine wp_bind (wp_bind (wp_metered fun r₀ h₀ => ?_))
  have hvif : ∀ c ∈ r₀.1.cardsList.ptrs, (r₀.1.card c).vif.isSome = true := fun c hc => by
    rw [h₀.setup.cardsList] at hc
    rw [(h₀.setup.card c).1]
    exact h.vif c hc
  have hops : ∀ c ∈ r₀.1.cardsList.ptrs, (r₀.1.card c).hw.ops = ⟨true, true⟩ := fun c hc => by
    rw [h₀.setup.cardsList] at hc
    rw [(h₀.setup.card c).2.2]
    exact h.ops c hc
  refine (wp_chardevRead (by rwa [h₀.setup.cardsList]) hvif (fun c hc => by rw [hops c hc])
    (by rw [h₀.setup.cardsList]; exact h.few) (h₀.inStep hstep)).mono ?_
  rintro answer r₁ ⟨h₁, bytes, tsf, rfl, hreads, hkeys⟩ w₁ h₂
  rw [h₀.setup.cardsList] at hreads hkeys
  have h₀₁ := (h₀.trans h₁).trans h₂
  obtain ⟨snap, hfind, hadjs⟩ := adjustments_of_keys h hkeys
  have hsnaps : (decodeSnapshots bytes).isEmpty = false := by
    cases hb : decodeSnapshots bytes with
    | nil => rw [hb] at hfind; cases hfind
    | cons => rfl
  have hcycle := hadjs { SyncStats.default with cardsRead := UInt32.ofNat (decodeSnapshots bytes).length }
  dsimp only
  change Wp (Passes δ) _ (if (decodeSnapshots bytes).isEmpty then _ else _) _
  rw [hsnaps, if_neg Bool.false_ne_true, hfind]
  dsimp only
  generalize (decodeSnapshots bytes).foldl _ _ = acc at hcycle
  have hmetered : w₀.2.metered + (r₁.2.now - r₀.2.now) ≤ (w₁.charge (w₁.2.now - r₀.2.now)).2.metered := by
    have hlater := h₂.now
    show _ ≤ w₁.2.metered + (w₁.2.now - r₀.2.now)
    rw [h₀₁.metered]
    omega
  have hreadBase : ∀ c, r₁.base c = w₀.base c := (h₀.trans h₁).base
  cases hnone : acc.2.isEmpty with
  | true =>
    rw [List.isEmpty_iff.mp hnone] at hcycle
    rw [if_pos rfl]
    refine ⟨tsf, r₀, r₁, w₁, w₁, h₀₁.setup, h₀₁.inStep hstep, h₀.now, h₀.gone, hreads, hreadBase, h₂.now, h₀₁.base,
      h₀₁.now, Nat.le_refl _, fun c => ?_, fun _ => rfl, ?_⟩
    · rw [← hcycle]
      rfl
    · rw [Nat.sub_self, Nat.add_zero]
      exact hmetered
  | false =>
    rw [if_neg Bool.false_ne_true]
    unfold writeAdjustments
    refine wp_bind (wp_bind (wp_metered fun s₀ h₃ => ?_))
    have hsetup : SameSetup w₀.1 s₀.1 := h₀₁.setup.trans h₃.setup
    have hname : ∀ adj ∈ acc.2.map User.TsfAdjustment.toKernel, ∃ c ∈ s₀.1.cardsList.ptrs,
        findByIndex s₀.1.cardsList.ptrs adj.cardIndex = some c ∧ (s₀.1.card c).vif.isSome = true ∧
          (s₀.1.card c).hw.ops = ⟨true, true⟩ := by
      intro adj hadj
      rw [hcycle] at hadj
      obtain ⟨c, hc, hnamed⟩ := adjustments_name hadj
      rw [hsetup.cardsList]
      exact ⟨c, hc, hnamed, by rw [(hsetup.card c).1]; exact h.vif c hc, by rw [(hsetup.card c).2.2]; exact h.ops c hc⟩
    have hne : acc.2 ≠ [] := fun e => by rw [e] at hnone; cases hnone
    refine (wp_chardevWrite hne (h₃.inStep (h₀₁.inStep hstep)) hname).mono fun answer s₁ hw w₂ h₄ => ?_
    have hsynced : Synced δ self w₀ tsf r₀ r₁ s₀ s₁ (w₂.charge (w₂.2.now - s₀.2.now)) := by
      refine ⟨(hsetup.trans hw.setup).trans h₄.setup, h₄.inStep hw.inStep, h₀.now, h₀.gone, hreads, hreadBase, ?_,
        fun c => (h₃.base c).trans (h₀₁.base c), h₀₁.now.trans h₃.now, h₄.now, fun c => ?_, h₄.base, ?_⟩
      · exact ((h₂.now.trans h₃.now).trans hw.now).trans h₄.now
      · have hout := hw.outcome c
        rw [hcycle, hsetup.threshold, hsetup.cardsList] at hout
        exact hout
      · have hlater := h₄.now
        have hm := h₃.metered
        show _ ≤ w₂.2.metered + (w₂.2.now - s₀.2.now)
        rw [h₄.metered, hw.metered, hm]
        omega
    cases answer with
    | error e => exact ⟨tsf, r₀, r₁, s₀, s₁, hsynced⟩
    | ok n => exact ⟨tsf, r₀, r₁, s₀, s₁, hsynced⟩

/-! ## How far off it leaves a card -/

variable {r₀ r₁ s₀ s₁ : World}

/-- The TSFs stay in the range of signed nanoseconds up to the end. -/
def InRangeUntil (δ : Nat) (w₀ w : World) : Prop := ∀ c ∈ w₀.1.cardsList.ptrs,
  1000 * (((w₀.1.card c).hw.tsf.toNat : Int) + (w.2.now - w₀.2.now) + 6 * δ) < 2 ^ 63

/-- What a reading shows, from the TSF at the start. -/
theorem Synced.fits (h : Synced δ self w₀ tsf r₀ r₁ s₀ s₁ w) (hstep : InStep δ w₀) (hrange : InRangeUntil δ w₀ w)
    (hc : c ∈ w₀.1.cardsList.ptrs) {x t : Nat} (hread : Reading δ r₀ r₁ c x t (tsf c)) : FitsNs (tsf c) := by
  have hgone := h.gone c
  have hx := abs_le.mp hread.inStep
  have hg := abs_le.mp (hstep c hc)
  have hstart := hread.start
  have hupTo := hread.upTo
  have hlast := h.readUpTo
  have hr := hrange c hc
  have hval : tsf c = (w₀.1.card c).hw.tsf + UInt64.ofNat (x - w₀.2.gone c) := by
    have hsplit : x = w₀.2.gone c + (x - w₀.2.gone c) := by omega
    have hv := hread.value
    rw [h.readBase, World.base, hsplit, UInt64.ofNat_add] at hv
    rw [hv]
    grind
  have hsum : (w₀.1.card c).hw.tsf.toNat + (x - w₀.2.gone c) < 2 ^ 64 := by omega
  have hnat : (tsf c).toNat = (w₀.1.card c).hw.tsf.toNat + (x - w₀.2.gone c) := by
    rw [hval, UInt64.toNat_add, UInt64.toNat_ofNat']
    omega
  rw [FitsNs, hnat]
  omega

/-- The state that the daemon goes by is one that Mode C can start from. -/
theorem Synced.steady (h : Synced δ self w₀ tsf r₀ r₁ s₀ s₁ w) (hs : Steady self w₀.1 p) (hstep : InStep δ w₀)
    (hrange : InRangeUntil δ w₀ w) : Steady self (w₀.1.advance tsf) p where
  few := hs.few
  listed := hs.listed
  vif := hs.vif
  ops := hs.ops
  fits := fun c hc => by
    obtain ⟨x, t, hread⟩ := h.reads c hc
    exact h.fits hstep hrange hc hread
  threshold := hs.threshold

/-- What is added to a TSF to move it from one value to another. -/
theorem addDeltaNs_offset {a b : UInt64} (ha : FitsNs a) (hb : FitsNs b) (v : UInt64) :
    addDeltaNs v (offsetNs a b) = v + (a - b) := by
  have h := addDeltaNs_offsetNs ha hb
  unfold addDeltaNs at h ⊢
  grind

/-- The primary is not adjusted. -/
theorem Synced.base_primary (h : Synced δ self w₀ tsf r₀ r₁ s₀ s₁ w) (hs : Steady self w₀.1 p) :
    w.base p = w₀.base p := by
  have hout := h.outcome p
  have hlisted : (visible (w₀.1.advance tsf))[self.primaryIndex.toNat]? = some p := hs.visible_primary
  have hnone := adjustments_filter hlisted hlisted
  rw [adjustmentAt, if_pos rfl] at hnone
  change Outcome _ _ _ _ _ ((self.adjustments (w₀.1.advance tsf)).filter fun adj =>
    findByIndex (w₀.1.advance tsf).cardsList.ptrs adj.cardIndex == some p) at hout
  rw [hnone] at hout
  exact (h.base p).trans (Eq.trans hout (h.writeBase p))

/-- What a cycle has done to a card other than the primary: nothing, if the offset that was read is not above both
thresholds, or it has moved it by that offset. -/
theorem Synced.outcome_cases (h : Synced δ self w₀ tsf r₀ r₁ s₀ s₁ w) (hs : Steady self (w₀.1.advance tsf) p)
    (hc : c ∈ w₀.1.cardsList.ptrs) (hne : c ≠ p) :
    (w.base c = w₀.base c ∧ offBy (w₀.1.advance tsf) p c ≤
      max self.thresholdNs.toInt (w₀.1.adjtimeThresholdNs.toNat : Int)) ∨
    ∃ y t z u, Moved δ s₀ s₁ c (offsetNs (tsf p) (tsf c)) y t z u := by
  obtain ⟨i, hi⟩ := List.getElem?_of_mem hc
  have hvis : (visible (w₀.1.advance tsf))[i]? = some c := hs.visible_eq ▸ hi
  have hidx : i ≠ self.primaryIndex.toNat := by
    intro e
    have hlisted := hs.listed
    rw [← e] at hlisted
    exact hne (Option.some.inj (hi.symm.trans hlisted))
  have hout := h.outcome c
  change Outcome _ _ _ _ _ ((self.adjustments (w₀.1.advance tsf)).filter fun adj =>
    findByIndex (w₀.1.advance tsf).cardsList.ptrs adj.cardIndex == some c) at hout
  rw [adjustments_filter hs.visible_primary hvis, adjustmentAt, if_neg hidx, hs.snapDelta hc] at hout
  have hkept : s₁.base c = s₀.base c → w.base c = w₀.base c := fun e => ((h.base c).trans e).trans (h.writeBase c)
  have habs := hs.toInt_absW hc
  have hoff : offsetNs ((w₀.1.advance tsf).card p).hw.tsf ((w₀.1.advance tsf).card c).hw.tsf =
    offsetNs (tsf p) (tsf c) := rfl
  rw [hoff] at hout habs
  by_cases ht : absW (offsetNs (tsf p) (tsf c)) > self.thresholdNs
  · rw [if_pos ht] at hout
    cases hb : belowThreshold w₀.1.adjtimeThresholdNs (offsetNs (tsf p) (tsf c)) with
    | true =>
      left
      refine ⟨hkept ((outcome_of_below (by exact hb)).mp hout), le_max_of_le_right ?_⟩
      rw [belowThreshold, Bool.and_eq_true, decide_eq_true_eq, decide_eq_true_eq, Int64.lt_iff_toInt_lt, toInt_ofU32,
        habs] at hb
      omega
    | false => exact .inr ((outcome_of_reaches (by exact hb)).mp hout)
  · left
    rw [if_neg ht] at hout
    refine ⟨hkept hout, le_max_of_le_left ?_⟩
    rw [gt_iff_lt, Int64.lt_iff_toInt_lt, habs] at ht
    omega

/-- Where a cycle leaves a card. -/
theorem Synced.offset (h : Synced δ self w₀ tsf r₀ r₁ s₀ s₁ w) (hs : Steady self w₀.1 p) (hstep : InStep δ w₀)
    (hrange : InRangeUntil δ w₀ w) (hc : c ∈ w₀.1.cardsList.ptrs) (hne : c ≠ p) :
    ∃ e : Int, |e| ≤ (w.2.metered : Int) - w₀.2.metered + 6 * δ ∧ (w.1.diffUsec p c = e ∨
      1000 * |w.1.diffUsec p c - e| ≤ max self.thresholdNs.toInt (w₀.1.adjtimeThresholdNs.toNat : Int)) := by
  have hp := hs.primary_mem
  have hsv := h.steady hs hstep hrange
  obtain ⟨x, t, hreadP⟩ := h.reads p hp
  obtain ⟨x', t', hreadC⟩ := h.reads c hc
  have hfitsP := h.fits hstep hrange hp hreadP
  have hfitsC := h.fits hstep hrange hc hreadC
  have hbaseP := h.base_primary hs
  have hvalP := hreadP.value
  have hvalC := hreadC.value
  rw [h.readBase] at hvalP hvalC
  have hgp := abs_le.mp (h.inStep p (by rwa [h.setup.cardsList]))
  have hgc := abs_le.mp (h.inStep c (by rwa [h.setup.cardsList]))
  have hx := abs_le.mp hreadP.inStep
  have hx' := abs_le.mp hreadC.inStep
  have hsinceP := hreadP.since
  have hsinceC := hreadC.since
  have hupP := hreadP.upTo
  have hupC := hreadC.upTo
  have hstart := h.start
  have hlast := h.readUpTo
  have hmetered := h.metered
  have hr := hrange c hc
  rcases h.outcome_cases hsv hc hne with ⟨hkept, hoff⟩ | ⟨y, u, z, v, hmoved⟩
  · -- it was left alone, so the offset is the one that was read, but for the time between the readings
    refine ⟨((x' + w.2.gone p : Nat) : Int) - (x + w.2.gone c : Nat), by rw [abs_le]; omega, .inr ?_⟩
    have hdiff : (tsf p - tsf c).toInt64.toInt = (tsf p).toNat - (tsf c).toNat :=
      toInt_toInt64_sub hfitsP.lt hfitsC.lt
    have hcome : (w.1.card p).hw.tsf - (w.1.card c).hw.tsf + UInt64.ofNat (x + w.2.gone c) =
        tsf p - tsf c + UInt64.ofNat (x' + w.2.gone p) := by
      rw [tsf_eq, tsf_eq, UInt64.ofNat_add, UInt64.ofNat_add, hvalP, hvalC, hbaseP, hkept]
      grind
    have hboundP := hfitsP.bound
    have hboundC := hfitsC.bound
    have hnow := toInt_toInt64_of_add_eq hcome (by rw [hdiff]; omega) (by rw [hdiff]; omega)
    have hapart : w.1.diffUsec p c - (((x' + w.2.gone p : Nat) : Int) - (x + w.2.gone c : Nat)) =
        (tsf p).toNat - (tsf c).toNat := by
      rw [Kernel.diffUsec, hnow, hdiff]
      omega
    rw [hapart]
    exact hoff
  · -- it was moved by the offset that was read
    have hwrite := h.writeStart
    have hwrote := h.writeUpTo
    have hy := abs_le.mp hmoved.readInStep
    have hz := abs_le.mp hmoved.setInStep
    have hsince := hmoved.since
    have horder := hmoved.order
    have hup := hmoved.upTo
    refine ⟨((x' + z + w.2.gone p : Nat) : Int) - (x + y + w.2.gone c : Nat), by rw [abs_le]; omega, .inl ?_⟩
    have hval := hmoved.value
    rw [addDeltaNs_offset hfitsP hfitsC, h.writeBase] at hval
    have hbaseC := h.base c
    have hcome : (w.1.card p).hw.tsf - (w.1.card c).hw.tsf + UInt64.ofNat (x + y + w.2.gone c) =
        0 + UInt64.ofNat (x' + z + w.2.gone p) := by
      rw [tsf_eq, tsf_eq, UInt64.ofNat_add, UInt64.ofNat_add, UInt64.ofNat_add, UInt64.ofNat_add, hbaseP, hbaseC]
      grind
    have hzero : (0 : UInt64).toInt64.toInt = 0 := rfl
    have hnow := toInt_toInt64_of_add_eq hcome (by rw [hzero]; omega) (by rw [hzero]; omega)
    rw [hzero, zero_add] at hnow
    exact hnow

/-- The threads: `r` does one cycle of Mode C, the others stand by. -/
def syncAmong {ι : Type} [DecidableEq ι] (δ : Nat) (self : IoUringSyncer) (r : ι) (others : ι → List Bystander) (i : ι) :
    WProg Unit :=
  if i = r then do let _ ← self.syncOnce runningDev else forM (others i) (Bystander.prog δ)

/-- **How far off a cycle of Mode C leaves a card** while the clocks run, with counters that keep in step with the time up
to `δ`: no further from the primary than the two calls took, or within the thresholds of that, however long the daemon
takes between them. -/
theorem offset_syncOnce {ι : Type} [DecidableEq ι] {r : ι} {others : ι → List Bystander} {sched : List ι}
    {pool : Pool ι World LockId} (hs : Steady self w₀.1 p) (hstep : InStep δ w₀)
    (hrun : Pool.runs sched (.start (syncAmong δ self r others) w₀) = some pool) (hret : pool.prog r = .ret ())
    (hrange : InRangeUntil δ w₀ pool.state) (hc : c ∈ w₀.1.cardsList.ptrs) (hne : c ≠ p) :
    ∃ e : Int, |e| ≤ (pool.state.2.metered : Int) - w₀.2.metered + 6 * δ ∧ (pool.state.1.diffUsec p c = e ∨
      1000 * |pool.state.1.diffUsec p c - e| ≤
        max self.thresholdNs.toInt (w₀.1.adjtimeThresholdNs.toNat : Int)) := by
  have hmoves : ∀ j, j ≠ r → Moves (Passes δ) (syncAmong δ self r others j) := by
    intro j hj
    rw [syncAmong, if_neg hj]
    exact moves_forM fun b _ => moves_bystander b
  have hcycle : Wp (Passes δ) (fun _ w => ∃ tsf r₀ r₁ s₀ s₁, Synced δ self w₀ tsf r₀ r₁ s₀ s₁ w)
      (syncAmong δ self r others r) w₀ := by
    rw [syncAmong, if_pos rfl]
    exact wp_bind ((wp_syncOnce hs hstep).mono fun _ _ h => h)
  obtain ⟨w, hw, tsf, r₀, r₁, s₀, s₁, h⟩ :=
    Pool.wp_end (c := .start (syncAmong δ self r others) w₀) hmoves hcycle hrun hret
  exact (h.passes hw).offset hs hstep hrange hc hne

end Cycle

/-- Two cards, one 100 µs behind, and a thread that lets 3 µs pass and then a second. -/
def twoSyncing (sched : List Bool) : Option (Pool Bool World LockId) :=
  Pool.runs sched (.start (syncAmong 0 ⟨0, 5000⟩ true fun _ =>
      [.passTime ⟨3, fun _ => 3⟩, .passTime ⟨1000000, fun _ => 1000000⟩])
    (.withCards [.upWith 0 1100, .upWith 1 1000], ⟨0, fun _ => 0, 0⟩))

set_option maxRecDepth 4000 in
/-- The 3 µs pass between the two readings and the second between the two calls: the card ends 3 µs off. -/
theorem offset_syncOnce_run : ∃ pool, twoSyncing
      (List.replicate 12 true ++ [false] ++ List.replicate 11 true ++ [false] ++ List.replicate 16 true) = some pool ∧
    pool.state.1.diffUsec (.card 0) (.card 1) = 3 ∧ ∃ e : Int, |e| ≤ (pool.state.2.metered : Int) - 0 + 6 * (0 : Nat) ∧
      (pool.state.1.diffUsec (.card 0) (.card 1) = e ∨
        1000 * |pool.state.1.diffUsec (.card 0) (.card 1) - e| ≤ max 5000 5000) := by
  obtain ⟨pool, hrun, hret, hdiff, hnow⟩ : ∃ pool, twoSyncing
        (List.replicate 12 true ++ [false] ++ List.replicate 11 true ++ [false] ++ List.replicate 16 true) = some pool ∧
      pool.prog true = .ret () ∧ pool.state.1.diffUsec (.card 0) (.card 1) = 3 ∧ pool.state.2.now = 1000003 :=
    ⟨_, rfl, rfl, by decide, rfl⟩
  have hs : Steady ⟨0, 5000⟩ (Kernel.withCards [.upWith 0 1100, .upWith 1 1000]) (.card 0) :=
    ⟨by decide, rfl, by decide, by decide, by unfold FitsNs; decide, by decide⟩
  refine ⟨pool, hrun, hdiff, ?_⟩
  refine offset_syncOnce (p := .card 0) (c := .card 1) hs (by decide) hrun hret ?_ (by decide) (by decide)
  unfold InRangeUntil
  rw [hnow]
  decide

end Running

end TsfSync
