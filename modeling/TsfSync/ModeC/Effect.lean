import TsfSync.ModeC.Cycle

/-!
# What a write does to each card

A write changes the TSF of the cards its adjustments name and nothing else about any card: the state of one card after
a write is a fold over the adjustments that name it (`card_foldl_adjustedAt`), and the driver's `set_tsf` was called for
a card exactly if an adjustment that passes the threshold named it, it has a VIF and its driver has the op
(`wrote_foldl_adjustedAt`). The adjustments of a cycle name visible cards other than the primary, each at most once
(`mem_adjustments`, `adjustments_nodup`).
-/

namespace TsfSync

open LockProg MachineWord Uapi User User.IoUringSyncer

/-- What an adjustment does to the card it names. -/
def Card.adjust (threshold : UInt32) (deltaNs : Int64) (k : Card) : Card :=
  if belowThreshold threshold deltaNs then k
  else if k.vif.isSome && k.hw.ops.setTsf then { k with hw := { k.hw with tsf := addDeltaNs k.readTsf deltaNs } }
  else k

/-- `set_tsf` was called for a card. -/
def Kernel.Wrote (s : Kernel) (c : CardPtr) : Prop := ∃ vif tsf, DrvCall.setTsf c vif tsf ∈ s.drv

section Effect

variable (find : List CardPtr → UInt32 → Option CardPtr) (threshold : UInt32)

@[simp] theorem adjust_vif (deltaNs : Int64) (k : Card) : (k.adjust threshold deltaNs).vif = k.vif := by
  unfold Card.adjust
  split
  · rfl
  · split <;> rfl

@[simp] theorem adjust_ops (deltaNs : Int64) (k : Card) : (k.adjust threshold deltaNs).hw.ops = k.hw.ops := by
  unfold Card.adjust
  split
  · rfl
  · split <;> rfl

@[simp] theorem adjust_wiphy (deltaNs : Int64) (k : Card) : (k.adjust threshold deltaNs).hw.wiphy = k.hw.wiphy := by
  unfold Card.adjust
  split
  · rfl
  · split <;> rfl

theorem adjusted_self (s : Kernel) (c : CardPtr) (deltaNs : Int64) (hb : belowThreshold threshold deltaNs = false) :
    (adjusted s c deltaNs).card c = (s.card c).adjust threshold deltaNs := by
  unfold adjusted Card.adjust
  rw [hb]
  cases hv : (s.card c).vif with
  | none => simp
  | some vif => cases hs : (s.card c).hw.ops.setTsf <;> simp [Kernel.putTsf_self, hs, hv]

theorem adjusted_ne (s : Kernel) {c d : CardPtr} (deltaNs : Int64) (h : d ≠ c) :
    (adjusted s c deltaNs).card d = s.card d := by
  unfold adjusted
  cases (s.card c).vif with
  | none => rfl
  | some vif => simp [Kernel.putTsf_ne _ _ _ _ h]

/-- One adjustment, seen from one card. -/
theorem card_adjustedAt (s : Kernel) (adj : Uapi.TsfAdjustment) (c : CardPtr) :
    (adjustedAt find threshold s adj).card c =
      if find s.cardsList.ptrs adj.cardIndex = some c then (s.card c).adjust threshold adj.deltaNs else s.card c := by
  unfold adjustedAt
  cases hb : belowThreshold threshold adj.deltaNs with
  | true => simp [Card.adjust, hb]
  | false =>
    cases hf : find s.cardsList.ptrs adj.cardIndex with
    | none => simp
    | some d =>
      by_cases h : c = d
      · subst h; simp [adjusted_self threshold _ _ _ hb]
      · simp [adjusted_ne s adj.deltaNs h, Ne.symm h]

/-- A whole write, seen from one card. -/
theorem card_foldl_adjustedAt (c : CardPtr) : ∀ (adjs : List Uapi.TsfAdjustment) (s : Kernel),
    (adjs.foldl (adjustedAt find threshold) s).card c =
      (adjs.filter fun adj => find s.cardsList.ptrs adj.cardIndex == some c).foldl
        (fun k adj => k.adjust threshold adj.deltaNs) (s.card c)
  | [], _ => rfl
  | adj :: adjs, s => by
    rw [List.foldl_cons, card_foldl_adjustedAt c adjs, adjustedAt_cardsList, card_adjustedAt]
    by_cases h : find s.cardsList.ptrs adj.cardIndex = some c
    · simp [h]
    · simp [h]

theorem wrote_gotTsf (s : Kernel) (c d : CardPtr) (vif : DevId) : (s.gotTsf d vif).Wrote c ↔ s.Wrote c := by
  unfold Kernel.gotTsf Kernel.Wrote
  split <;> simp

theorem wrote_adjusted (s : Kernel) (c d : CardPtr) (deltaNs : Int64) : (adjusted s d deltaNs).Wrote c ↔
    s.Wrote c ∨ (d = c ∧ (s.card c).vif.isSome = true ∧ (s.card c).hw.ops.setTsf = true) := by
  unfold adjusted
  cases hv : (s.card d).vif with
  | none =>
    refine ⟨Or.inl, fun h => h.resolve_right ?_⟩
    rintro ⟨rfl, hvif, -⟩
    simp [hv] at hvif
  | some vif =>
    have hput : ∀ tsf, (((s.gotTsf d vif).putTsf d vif tsf).applied).Wrote c ↔
        (s.gotTsf d vif).Wrote c ∨ (d = c ∧ (s.card d).hw.ops.setTsf = true) := fun tsf => by
      unfold Kernel.putTsf Kernel.Wrote
      rw [Kernel.gotTsf_card]
      cases hs : (s.card d).hw.ops.setTsf with
      | false => simp [Kernel.applied]
      | true =>
        simp only [if_true, Kernel.applied, List.mem_append, List.mem_singleton,
          DrvCall.setTsf.injEq, and_true]
        constructor
        · rintro ⟨v, t, h | ⟨rfl, -, -⟩⟩
          · exact Or.inl ⟨v, t, h⟩
          · exact Or.inr rfl
        · rintro (⟨v, t, h⟩ | rfl)
          · exact ⟨v, t, Or.inl h⟩
          · exact ⟨vif, tsf, Or.inr ⟨rfl, rfl, rfl⟩⟩
    rw [hput, wrote_gotTsf]
    refine or_congr_right (and_congr_right fun h => ?_)
    subst h
    simp [hv]

theorem wrote_adjustedAt (s : Kernel) (adj : Uapi.TsfAdjustment) (c : CardPtr) :
    (adjustedAt find threshold s adj).Wrote c ↔ s.Wrote c ∨ (belowThreshold threshold adj.deltaNs = false ∧
      find s.cardsList.ptrs adj.cardIndex = some c ∧ (s.card c).vif.isSome = true ∧
        (s.card c).hw.ops.setTsf = true) := by
  unfold adjustedAt
  cases hb : belowThreshold threshold adj.deltaNs with
  | true => simp [Kernel.Wrote]
  | false =>
    cases hf : find s.cardsList.ptrs adj.cardIndex with
    | none => simp
    | some d => simp [wrote_adjusted]

/-- Which cards a write has set. -/
theorem wrote_foldl_adjustedAt (c : CardPtr) : ∀ (adjs : List Uapi.TsfAdjustment) (s : Kernel),
    (adjs.foldl (adjustedAt find threshold) s).Wrote c ↔ s.Wrote c ∨
      ∃ adj ∈ adjs, belowThreshold threshold adj.deltaNs = false ∧ find s.cardsList.ptrs adj.cardIndex = some c ∧
        (s.card c).vif.isSome = true ∧ (s.card c).hw.ops.setTsf = true
  | [], s => by simp
  | adj :: adjs, s => by
    have hvif : ((adjustedAt find threshold s adj).card c).vif = (s.card c).vif := by
      rw [card_adjustedAt]; split <;> simp
    have hops : ((adjustedAt find threshold s adj).card c).hw.ops = (s.card c).hw.ops := by
      rw [card_adjustedAt]; split <;> simp
    rw [List.foldl_cons, wrote_foldl_adjustedAt c adjs, wrote_adjustedAt, adjustedAt_cardsList, hvif, hops]
    simp only [List.exists_mem_cons_iff, or_assoc]

end Effect

/-! ## What a read leaves alone -/

theorem foldl_peeked_card : ∀ (cards : List CardPtr) (s : Kernel), (cards.foldl peeked s).card = s.card
  | [], _ => rfl
  | c :: cards, s => by rw [List.foldl_cons, foldl_peeked_card cards, peeked_card]

theorem foldl_peeked_cardsList : ∀ (cards : List CardPtr) (s : Kernel), (cards.foldl peeked s).cardsList = s.cardsList
  | [], _ => rfl
  | c :: cards, s => by rw [List.foldl_cons, foldl_peeked_cardsList cards, peeked_cardsList]

theorem foldl_peeked_threshold : ∀ (cards : List CardPtr) (s : Kernel),
    (cards.foldl peeked s).adjtimeThresholdNs = s.adjtimeThresholdNs
  | [], _ => rfl
  | c :: cards, s => by
    have h : (peeked s c).adjtimeThresholdNs = s.adjtimeThresholdNs := by
      unfold peeked
      split
      · rfl
      · exact Kernel.gotTsf_threshold ..
    rw [List.foldl_cons, foldl_peeked_threshold cards, h]

/-! ## The adjustments of a cycle -/

section Adjustments

variable {self : IoUringSyncer} {s : Kernel}

/-- The adjustments of a cycle: the offset of a visible card to the primary, above the threshold. -/
theorem mem_adjustments {adj : Uapi.TsfAdjustment} : adj ∈ self.adjustments s ↔
    ∃ primary c, ∃ i, (visible s)[self.primaryIndex.toNat]? = some primary ∧ (visible s)[i]? = some c ∧
      i ≠ self.primaryIndex.toNat ∧ absW (snapDelta (s.card primary) (s.card c)) > self.thresholdNs ∧
      adj = ⟨UInt32.ofNat i, snapDelta (s.card primary) (s.card c)⟩ := by
  unfold adjustments
  cases hp : (visible s)[self.primaryIndex.toNat]? with
  | none => simp
  | some primary =>
    simp only [List.mem_filterMap, List.mem_zipIdx_iff_getElem?, adjustmentAt]
    constructor
    · rintro ⟨⟨c, i⟩, hi, hadj⟩
      split at hadj
      · cases hadj
      · rename_i hne
        split at hadj
        · rename_i ht
          exact ⟨primary, c, i, rfl, hi, hne, ht, (Option.some.inj hadj).symm⟩
        · cases hadj
    · rintro ⟨_, c, i, he, hi, hne, ht, rfl⟩
      cases he
      exact ⟨(c, i), hi, by simp only [if_neg hne, if_pos ht]⟩

theorem visible_getElem? {i : Nat} {c : CardPtr} (h : (visible s)[i]? = some c) :
    i < maxCards ∧ s.cardsList.ptrs[i]? = some c := by
  rw [visible, List.getElem?_take] at h
  split at h
  · rename_i hi
    exact ⟨hi, h⟩
  · cases h

theorem toNat_ofNat_visible {i : Nat} (h : i < maxCards) : (UInt32.ofNat i).toNat = i := by
  rw [UInt32.toNat_ofNat']
  exact Nat.mod_eq_of_lt (h.trans (by decide))

/-- The kernel finds the card that the daemon means, as long as the list is the same. -/
theorem findByIndex_visible {i : Nat} {c : CardPtr} (h : (visible s)[i]? = some c) :
    findByIndex s.cardsList.ptrs (UInt32.ofNat i) = some c := by
  obtain ⟨hi, hc⟩ := visible_getElem? h
  have hlen : i < s.cardsList.ptrs.length := (List.getElem?_eq_some_iff.mp hc).1
  rw [findByIndex_of_ne (by rw [toNat_ofNat_visible hi]; omega), findByPosition, toNat_ofNat_visible hi, hc]

/-- A card has one position. -/
theorem visible_inj {i j : Nat} {c : CardPtr} (hi : (visible s)[i]? = some c) (hj : (visible s)[j]? = some c) :
    i = j := by
  obtain ⟨-, hi⟩ := visible_getElem? hi
  obtain ⟨-, hj⟩ := visible_getElem? hj
  exact (List.getElem?_inj (List.getElem?_eq_some_iff.mp hi).1 s.cardsList.nodup).mp (hi.trans hj.symm)

theorem filterMap_single {α β : Type} [DecidableEq α] (f : α → Option β) (a : α) : ∀ {l : List α}, l.Nodup → a ∈ l →
    (l.filterMap fun x => if x = a then f x else none) = (f a).toList
  | [], _, h => by cases h
  | x :: l, hn, h => by
    obtain ⟨hx, hn⟩ := List.nodup_cons.mp hn
    rw [List.filterMap_cons]
    by_cases e : x = a
    · subst e
      have hnone : (l.filterMap fun y => if y = x then f y else none) = [] :=
        List.filterMap_eq_nil_iff.mpr fun y hy => if_neg fun e : y = x => hx (e ▸ hy)
      rw [if_pos rfl, hnone]
      cases f x <;> rfl
    · rw [if_neg e]
      exact filterMap_single f a hn ((List.mem_cons.mp h).resolve_left (Ne.symm e))

/-- The adjustments that name a visible card: its own, if it has one. -/
theorem adjustments_filter {primary c : CardPtr} {i : Nat} (hp : (visible s)[self.primaryIndex.toNat]? = some primary)
    (hc : (visible s)[i]? = some c) :
    (self.adjustments s).filter (fun adj => findByIndex s.cardsList.ptrs adj.cardIndex == some c) =
      (self.adjustmentAt s primary (c, i)).toList := by
  have hnodup : (visible s).zipIdx.Nodup := by
    refine List.Nodup.of_map Prod.snd ?_
    rw [List.zipIdx_map_snd]
    exact List.nodup_range'
  rw [← filterMap_single (self.adjustmentAt s primary) (c, i) hnodup (List.mem_zipIdx_iff_getElem?.mpr hc), adjustments,
    hp, List.filter_filterMap]
  refine List.filterMap_congr fun x hx => ?_
  obtain ⟨d, j⟩ := x
  have hd : (visible s)[j]? = some d := List.mem_zipIdx_iff_getElem?.mp hx
  -- an adjustment for position `j` names the card `d`
  have hfind : ∀ adj, self.adjustmentAt s primary (d, j) = some adj →
      findByIndex s.cardsList.ptrs adj.cardIndex = some d := fun adj hadj => by
    simp only [adjustmentAt, Option.ite_none_left_eq_some, Option.ite_none_right_eq_some, Option.some.injEq] at hadj
    obtain ⟨-, -, rfl⟩ := hadj
    exact findByIndex_visible hd
  cases ha : self.adjustmentAt s primary (d, j) with
  | none => simp
  | some adj =>
    by_cases e : d = c
    · subst e
      simp [hfind adj ha, visible_inj hd hc]
    · simp [hfind adj ha, e]

end Adjustments

end TsfSync
