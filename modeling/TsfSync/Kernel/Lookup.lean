import TsfSync.Kernel.Spec

/-!
# Which card a write adjusts

`tsf_sync_chardev_write` finds the card of an adjustment by a walk with a counter. The search agrees with a lookup by
position (`findByPosition`) at every index but one: at the length of the list the walk ends on the list head with a
counter that equals the index, and the head passes for a card (`findByIndex_eq`). So a write adjusts exactly the cards
at the positions it names, and no others, as long as no adjustment that passes the threshold names the length of the
list (`write_byPosition_iff`).
-/

namespace TsfSync

open LockProg MachineWord Uapi

/-- The card at a position of the list, if there is one. -/
def findByPosition (cards : List CardPtr) (cardIndex : UInt32) : Option CardPtr := cards[cardIndex.toNat]?

/-- Where the walk goes on from a counter that has not passed the index. -/
theorem walkToIndex_eq (i : UInt32) : ∀ (cards : List CardPtr) (idx : UInt32), idx.toNat ≤ i.toNat →
    (if (walkToIndex i idx cards).2 ≠ i then none else some (walkToIndex i idx cards).1) =
      if i.toNat = idx.toNat + cards.length then some .head else cards[i.toNat - idx.toNat]?
  | [], idx, _ => by
    simp only [walkToIndex, List.length_nil, Nat.add_zero, List.getElem?_nil, ne_eq]
    by_cases h : idx = i
    · simp [h]
    · have : i.toNat ≠ idx.toNat := fun e => h (UInt32.toNat_inj.mp e.symm)
      simp [h, this]
  | card :: cards, idx, hle => by
    by_cases h : idx = i
    · subst h; simp [walkToIndex]
    · have hne : idx.toNat ≠ i.toNat := fun e => h (UInt32.toNat_inj.mp e)
      have hi := i.toNat_lt
      -- the counter does not wrap before it reaches the index
      have hs : (idx + 1).toNat = idx.toNat + 1 := by
        rw [UInt32.toNat_add]
        exact Nat.mod_eq_of_lt (by simp; omega)
      have hd : i.toNat - idx.toNat = (i.toNat - (idx.toNat + 1)) + 1 := by omega
      have ih := walkToIndex_eq i cards (idx + 1) (by omega)
      rw [hs] at ih
      simp only [walkToIndex, h, if_false, ih, List.length_cons, hd, List.getElem?_cons_succ]
      congr 1
      exact propext (by omega)

/-- The search finds the card at the position, except that at the length of the list it yields the list head. -/
theorem findByIndex_eq (cards : List CardPtr) (i : UInt32) :
    findByIndex cards i = if i.toNat = cards.length then some .head else findByPosition cards i := by
  have h := walkToIndex_eq i cards 0 (by simp)
  simpa [findByIndex, findByPosition] using h

theorem findByIndex_of_ne {cards : List CardPtr} {i : UInt32} (h : i.toNat ≠ cards.length) :
    findByIndex cards i = findByPosition cards i := by rw [findByIndex_eq, if_neg h]

/-! ## Adjustments leave the list alone -/

@[simp] theorem adjusted_cardsList (s : Kernel) (c : CardPtr) (d : Int64) : (adjusted s c d).cardsList = s.cardsList := by
  unfold adjusted
  split <;> simp

@[simp] theorem adjustedAt_cardsList (find : List CardPtr → UInt32 → Option CardPtr) (threshold : UInt32) (s : Kernel)
    (adj : TsfAdjustment) : (adjustedAt find threshold s adj).cardsList = s.cardsList := by
  unfold adjustedAt
  split
  · rfl
  · split <;> simp

/-! ## One adjustment -/

section Adjustment

variable {find find' : List CardPtr → UInt32 → Option CardPtr} {threshold : UInt32} {adj : TsfAdjustment} {s : Kernel}

/-- Two searches that agree on the card adjust it alike. -/
theorem applyAdjustment_congr
    (h : belowThreshold threshold adj.deltaNs = false →
      find s.cardsList.ptrs adj.cardIndex = find' s.cardsList.ptrs adj.cardIndex) :
    (applyAdjustment find threshold adj).run s = (applyAdjustment find' threshold adj).run s ∧
      (applyAdjustment find threshold adj).trace s = (applyAdjustment find' threshold adj).trace s := by
  unfold applyAdjustment
  cases hb : belowThreshold threshold adj.deltaNs with
  | true => exact ⟨rfl, rfl⟩
  | false => simp [h hb]

/-- An adjustment takes the lock of the entry that the search yields. -/
theorem take_mem_trace_applyAdjustment {c : CardPtr} (hb : belowThreshold threshold adj.deltaNs = false)
    (hf : find s.cardsList.ptrs adj.cardIndex = some c) :
    LockOp.take (.card c) ∈ (applyAdjustment find threshold adj).trace s := by
  simp [applyAdjustment, hb, hf, take_mem_trace_adjustCard]

/-- With a lookup by position an adjustment takes the lock of a listed card only. -/
theorem mem_cardsList_of_take {c : CardPtr}
    (h : LockOp.take (.card c) ∈ (applyAdjustment findByPosition threshold adj).trace s) : c ∈ s.cardsList.ptrs := by
  unfold applyAdjustment at h
  cases hb : belowThreshold threshold adj.deltaNs with
  | true => simp [hb] at h
  | false =>
    cases hf : findByPosition s.cardsList.ptrs adj.cardIndex with
    | none => simp [hb, hf] at h
    | some d =>
      have hd : LockOp.take (.card c) ∈ (adjustCard d adj.deltaNs).trace s := by simpa [hb, hf] using h
      rw [eq_of_take_mem_trace_adjustCard s d hd]
      exact List.mem_of_getElem? hf

end Adjustment

/-! ## A whole write -/

/-- The write does what it would do with a lookup by position: it takes the same locks in the same order, calls the
same driver ops, changes the same counters and returns the same. -/
def WritesByPosition (s : Kernel) (buf : List UInt8) : Prop :=
  (tsfSyncChardevWrite .ok buf).run s = (chardevWrite findByPosition .ok buf).run s ∧
    (tsfSyncChardevWrite .ok buf).trace s = (chardevWrite findByPosition .ok buf).trace s

/-- With a lookup by position no write takes the lock of the list head. -/
theorem head_not_mem_trace_byPosition (s : Kernel) (buf : List UInt8) :
    LockOp.take (.card .head) ∉ (chardevWrite findByPosition .ok buf).trace s := by
  intro h
  have hl : LockOp.take (.card .head) ∈
      (forM (decodeAdjustments buf) (applyAdjustment findByPosition s.adjtimeThresholdNs)).trace s := by
    unfold chardevWrite at h
    by_cases h0 : buf.length = 0
    · simp [h0] at h
    · by_cases h1 : buf.length / adjSize = 0
      · simp [h0, h1] at h
      · simpa [h0, h1, UserMem.ok] using h
  -- no round takes it, because the list head is not an entry of the list
  obtain ⟨adj, -, s', hs'⟩ := Prog.take_mem_trace_forM hl
  exact s'.cardsList.noHead (mem_cardsList_of_take hs')

/-- A write in which an adjustment above the threshold names the length of the list takes the lock of the list head. -/
theorem head_mem_trace_write {s : Kernel} {buf : List UInt8} {adj : TsfAdjustment} (ha : adj ∈ decodeAdjustments buf)
    (hb : belowThreshold s.adjtimeThresholdNs adj.deltaNs = false)
    (hn : adj.cardIndex.toNat = s.cardsList.ptrs.length) :
    LockOp.take (.card .head) ∈ (tsfSyncChardevWrite .ok buf).trace s := by
  have hbuf : buf.length / adjSize ≠ 0 := fun h => by simp [decodeAdjustments, h, ByteCodec.records] at ha
  have hbuf' : buf.length ≠ 0 := fun h => hbuf (by simp [h])
  have hloop : LockOp.take (.card .head) ∈
      (forM (decodeAdjustments buf) (applyAdjustment findByIndex s.adjtimeThresholdNs)).trace s := by
    refine Prog.mem_trace_forM (fun s' => s'.cardsList = s.cardsList) (fun x _ s' hs' => ?_) ha (fun s' hs' => ?_) rfl
    · simpa using hs'
    · refine take_mem_trace_applyAdjustment hb ?_
      rw [hs', findByIndex_eq, if_pos hn]
  simp only [tsfSyncChardevWrite, chardevWrite, UserMem.ok, hbuf, hbuf', Prog.trace_bind, Prog.trace_read, Prog.run_read,
    if_false, Bool.not_true, Bool.false_eq_true, trace_mutexLock, run_mutexLock, List.mem_append]
  exact Or.inr (Or.inr (Or.inl hloop))

/-- **A write adjusts exactly the cards at the positions it names** if and only if no adjustment that passes the
threshold names the position just past the end of the list. -/
theorem write_byPosition_iff (s : Kernel) (buf : List UInt8) :
    WritesByPosition s buf ↔ ∀ adj ∈ decodeAdjustments buf,
      belowThreshold s.adjtimeThresholdNs adj.deltaNs = false → adj.cardIndex.toNat ≠ s.cardsList.ptrs.length := by
  constructor
  · intro h adj ha hb hn
    have hmem := head_mem_trace_write ha hb hn
    rw [h.2] at hmem
    exact head_not_mem_trace_byPosition s buf hmem
  · intro h
    have hloop : (forM (decodeAdjustments buf) (applyAdjustment findByIndex s.adjtimeThresholdNs)).run s =
          (forM (decodeAdjustments buf) (applyAdjustment findByPosition s.adjtimeThresholdNs)).run s ∧
        (forM (decodeAdjustments buf) (applyAdjustment findByIndex s.adjtimeThresholdNs)).trace s =
          (forM (decodeAdjustments buf) (applyAdjustment findByPosition s.adjtimeThresholdNs)).trace s := by
      refine Prog.forM_congr (fun s' => s'.cardsList = s.cardsList) (fun x _ s' hs' => by simpa using hs')
        (fun adj ha s' hs' => applyAdjustment_congr fun hb => ?_) rfl
      rw [hs']
      exact findByIndex_of_ne (h adj ha hb)
    unfold WritesByPosition tsfSyncChardevWrite chardevWrite
    by_cases h0 : buf.length = 0
    · simp [h0]
    · by_cases h1 : buf.length / adjSize = 0
      · simp [h0, h1]
      · simp [h0, h1, UserMem.ok, hloop.1, hloop.2, -Prog.run_forM]

/-- A card with both TSF ops, an up VIF and the given TSF. -/
def Card.upWith (wiphy : WiphyId) (tsf : UInt64) : Card :=
  { Card.zeroed with hw := ⟨wiphy, ⟨true, true⟩, tsf⟩, vif := some wiphy }

/-- With two cards, an adjustment of 10 µs for index 2 goes to the list head. -/
theorem write_past_end_counterexample :
    ¬WritesByPosition (.withCards [.upWith 0 100, .upWith 1 200]) [2, 0, 0, 0, 0x10, 0x27, 0, 0, 0, 0, 0, 0] := by
  intro h
  have ha : (⟨2, 10000⟩ : TsfAdjustment) ∈ decodeAdjustments [2, 0, 0, 0, 0x10, 0x27, 0, 0, 0, 0, 0, 0] := by decide
  have hmem := head_mem_trace_write (s := .withCards [.upWith 0 100, .upWith 1 200]) ha (by decide) rfl
  exact head_not_mem_trace_byPosition _ _ (h.2 ▸ hmem)

end TsfSync
