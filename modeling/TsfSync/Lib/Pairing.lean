import Mathlib.Data.List.Chain
import Mathlib.Data.List.Nodup

/-!
# Pairing the items of a stream

A reader of a stream with two slots: an item fills the slot of its side, and as soon as both are full their values are
given as a pair and the slots are cleared (`pairs`). The stream is made of groups with at most one item of each side. The
values of a pair come from one group, and every group with both sides gives one, exactly when after a group with one item
the next group with any begins with the same side (`pairs_numbered_iff`); where values come from is told by numbers that the
reader does not look at (`pairs_map`).
-/

namespace Pairing

/-! ## The reader -/

/-- The sides of a pair. -/
inductive Side
  | left
  | right
  deriving DecidableEq, Repr

/-- The slots of the reader. -/
structure Slots (α : Type) where
  left : Option α
  right : Option α
  deriving DecidableEq, Repr

variable {α β : Type}

/-- Both slots are clear. -/
def Slots.clear : Slots α := ⟨none, none⟩

/-- An item fills the slot of its side. -/
def Slots.put (slots : Slots α) : Side × α → Slots α
  | (.left, a) => { slots with left := some a }
  | (.right, a) => { slots with right := some a }

/-- The pairs that the reader gives. -/
def pairs : Slots α → List (Side × α) → List (α × α)
  | _, [] => []
  | slots, item :: items =>
    match slots.put item with
    | ⟨some a, some b⟩ => (a, b) :: pairs .clear items
    | slots => pairs slots items

/-- The slots with at most one item in them. -/
def Slots.holding : Option (Side × α) → Slots α
  | none => .clear
  | some item => Slots.clear.put item

/-- Two values of different sides, the left one first. -/
def ordered (x y : Side × α) : α × α :=
  match x.1 with
  | .left => (x.2, y.2)
  | .right => (y.2, x.2)

section Reader

variable {x y : Side × α} {items : List (Side × α)}

theorem pairs_first (x : Side × α) (items : List (Side × α)) :
    pairs (.holding none) (x :: items) = pairs (.holding (some x)) items := by
  obtain ⟨side, a⟩ := x
  cases side with
  | left => rfl
  | right => rfl

/-- An item of the side that is held takes its place. -/
theorem pairs_again (h : x.1 = y.1) : pairs (.holding (some x)) (y :: items) = pairs (.holding (some y)) items := by
  obtain ⟨side, a⟩ := x
  obtain ⟨side', b⟩ := y
  cases h
  cases side with
  | left => rfl
  | right => rfl

/-- An item of the other side makes a pair. -/
theorem pairs_other (h : x.1 ≠ y.1) :
    pairs (.holding (some x)) (y :: items) = ordered x y :: pairs (.holding none) items := by
  obtain ⟨side, a⟩ := x
  obtain ⟨side', b⟩ := y
  cases side with
  | left =>
    cases side' with
    | left => exact absurd rfl h
    | right => rfl
  | right =>
    cases side' with
    | left => rfl
    | right => exact absurd rfl h

/-- The reader does not look at the values. -/
theorem pairs_map (f : α → β) : ∀ (slots : Slots α) (items : List (Side × α)),
    pairs ⟨slots.left.map f, slots.right.map f⟩ (items.map (Prod.map id f)) =
      (pairs slots items).map (Prod.map f f)
  | _, [] => rfl
  | ⟨l, r⟩, (side, a) :: items => by
    cases side with
    | left =>
      cases r with
      | none => exact pairs_map f ⟨some a, none⟩ items
      | some b => exact congrArg ((f a, f b) :: ·) (pairs_map f .clear items)
    | right =>
      cases l with
      | none => exact pairs_map f ⟨none, some a⟩ items
      | some b => exact congrArg ((f b, f a) :: ·) (pairs_map f .clear items)

end Reader

/-! ## Groups -/

/-- The value of one side in a group. -/
def valueOf (side : Side) (group : List (Side × α)) : Option α := (group.find? (·.1 = side)).map (·.2)

/-- The pair of a group that has both sides. -/
def pairOf (group : List (Side × α)) : Option (α × α) :=
  match valueOf .left group, valueOf .right group with
  | some a, some b => some (a, b)
  | _, _ => none

/-- The groups with their numbers at the values. -/
def numberFrom : Nat → List (List (Side × α)) → List (List (Side × (Nat × α)))
  | _, [] => []
  | k, group :: groups => group.map (Prod.map id (k, ·)) :: numberFrom (k + 1) groups

/-- What the groups with any items look like. -/
def shapes (groups : List (List (Side × α))) : List (List Side) :=
  (groups.map (·.map Prod.fst)).filter (· ≠ [])

/-- The second group begins as the first one, unless that has both sides. -/
def Follows (g h : List Side) : Prop := g.length = 2 ∨ g.head? = h.head?

instance (g h : List Side) : Decidable (Follows g h) := inferInstanceAs (Decidable (_ ∨ _))

/-- After a group with one item the next one with any begins with the same side. -/
def Unbroken (groups : List (List (Side × α))) : Prop := (shapes groups).IsChain Follows

instance (groups : List (List (Side × α))) : Decidable (Unbroken groups) :=
  inferInstanceAs (Decidable ((shapes groups).IsChain Follows))

section Groups

variable {groups : List (List (Side × α))} {group : List (Side × α)} {x y : Side × α}

theorem valueOf_cons (side : Side) (x : Side × α) (group : List (Side × α)) :
    valueOf side (x :: group) = if x.1 = side then some x.2 else valueOf side group := by
  unfold valueOf
  rw [List.find?_cons]
  by_cases h : x.1 = side
  · simp [h]
  · simp [h]

theorem pairOf_single (x : Side × α) : pairOf [x] = none := by
  obtain ⟨side, a⟩ := x
  cases side with
  | left => rfl
  | right => rfl

theorem pairOf_two (h : x.1 ≠ y.1) : pairOf [x, y] = some (ordered x y) := by
  obtain ⟨side, a⟩ := x
  obtain ⟨side', b⟩ := y
  cases side with
  | left =>
    cases side' with
    | left => exact absurd rfl h
    | right => rfl
  | right =>
    cases side' with
    | left => rfl
    | right => exact absurd rfl h

/-- A group with at most one item of each side. -/
theorem group_cases (h : (group.map Prod.fst).Nodup) :
    group = [] ∨ (∃ x, group = [x]) ∨ ∃ x y, group = [x, y] ∧ x.1 ≠ y.1 := by
  match group, h with
  | [], _ => exact .inl rfl
  | [x], _ => exact .inr (.inl ⟨x, rfl⟩)
  | [x, y], h =>
    refine .inr (.inr ⟨x, y, rfl, ?_⟩)
    intro hxy
    simp [hxy] at h
  | x :: y :: z :: rest, h =>
    -- two of three items are of one side
    simp only [List.map_cons, List.nodup_cons, List.mem_cons, not_or] at h
    obtain ⟨⟨hxy, hxz, -⟩, ⟨hyz, -⟩, -⟩ := h
    generalize x.1 = a at *
    generalize y.1 = b at *
    generalize z.1 = c at *
    cases a <;> cases b <;> cases c <;> simp_all

theorem valueOf_map (f : α → β) (side : Side) (group : List (Side × α)) :
    valueOf side (group.map (Prod.map id f)) = (valueOf side group).map f := by
  unfold valueOf
  rw [List.find?_map, Option.map_map, Option.map_map]
  rfl

theorem pairOf_map (f : α → β) (group : List (Side × α)) :
    pairOf (group.map (Prod.map id f)) = (pairOf group).map (Prod.map f f) := by
  unfold pairOf
  rw [valueOf_map, valueOf_map]
  cases valueOf .left group with
  | none => rfl
  | some a =>
    cases valueOf .right group with
    | none => rfl
    | some b => rfl

/-- The pair of a numbered group has one number. -/
theorem number_eq : ∀ {k : Nat} {groups : List (List (Side × α))} {p : (Nat × α) × (Nat × α)},
    p ∈ (numberFrom k groups).filterMap pairOf → p.1.1 = p.2.1
  | _, [], _, h => by cases h
  | k, group :: groups, p, h => by
    obtain ⟨tagged, htagged, hp⟩ := List.mem_filterMap.mp h
    rcases List.mem_cons.mp htagged with rfl | hmem
    · rw [pairOf_map] at hp
      obtain ⟨q, -, rfl⟩ := Option.map_eq_some_iff.mp hp
      rfl
    · exact number_eq (List.mem_filterMap.mpr ⟨tagged, hmem, hp⟩)

theorem ordered_number_ne {x y : Side × (Nat × α)} (h : x.2.1 ≠ y.2.1) : (ordered x y).1.1 ≠ (ordered x y).2.1 := by
  unfold ordered
  cases x.1 with
  | left => exact h
  | right => exact h.symm

/-- The numbers can be taken off again. -/
theorem numberFrom_snd : ∀ (k : Nat) (groups : List (List (Side × α))),
    (numberFrom k groups).map (·.map (Prod.map id Prod.snd)) = groups
  | _, [] => rfl
  | k, group :: groups => by
    have hgroup : (group.map (Prod.map id (k, ·))).map (Prod.map id Prod.snd) = group := by
      rw [List.map_map]
      exact List.map_id group
    rw [numberFrom, List.map_cons, hgroup, numberFrom_snd]

/-- What the reader holds, as the shape of a group. -/
def held (item : Option (Side × α)) : List (List Side) := (item.map fun x => [x.1]).toList

/-- A group with both sides may be followed by any group. -/
theorem isChain_cons_two (a b : Side) (gs : List (List Side)) :
    ([a, b] :: gs).IsChain Follows ↔ gs.IsChain Follows := by
  cases gs with
  | nil => simp
  | cons g gs =>
    rw [List.isChain_cons_cons]
    exact and_iff_right (.inl rfl)

/-- After one item the next group begins as it. -/
theorem isChain_single_cons (a b : Side) (rest : List Side) (gs : List (List Side)) :
    ([a] :: (b :: rest) :: gs).IsChain Follows ↔ a = b ∧ ((b :: rest) :: gs).IsChain Follows := by
  rw [List.isChain_cons_cons]
  simp [Follows]

/-- The reader gives the pairs of the groups from `k` on exactly when they are unbroken after what it holds, which has a
smaller number. -/
theorem pairs_numberFrom_iff : ∀ {groups : List (List (Side × α))} {k : Nat} {item : Option (Side × (Nat × α))},
    (∀ group ∈ groups, (group.map Prod.fst).Nodup) → (∀ x ∈ item, x.2.1 < k) →
    (pairs (.holding item) (numberFrom k groups).flatten = (numberFrom k groups).filterMap pairOf ↔
      (held item ++ shapes groups).IsChain Follows)
  | [], k, item, _, _ => by
    refine iff_of_true rfl ?_
    cases item with
    | none => exact .nil
    | some x => exact .singleton _
  | group :: groups, k, item, hnodup, hk => by
    have ih : ∀ item' : Option (Side × (Nat × α)), (∀ x ∈ item', x.2.1 < k + 1) →
        (pairs (.holding item') (numberFrom (k + 1) groups).flatten = (numberFrom (k + 1) groups).filterMap pairOf ↔
          (held item' ++ shapes groups).IsChain Follows) := by
      intro item' h
      exact pairs_numberFrom_iff (fun g hg => hnodup g (List.mem_cons_of_mem _ hg)) h
    have hmixed : ∀ {p : (Nat × α) × (Nat × α)} {ps k' gs}, p.1.1 ≠ p.2.1 →
        p :: ps ≠ (numberFrom k' gs).filterMap pairOf := by
      intro p ps k' gs hp heq
      exact hp (number_eq (heq ▸ List.mem_cons_self))
    rcases group_cases (hnodup group List.mem_cons_self) with rfl | ⟨x, rfl⟩ | ⟨x, y, rfl, hxy⟩
    · -- a group without items
      exact ih item fun x hx => Nat.lt_succ_of_lt (hk x hx)
    · -- one item: it is held afterwards, if it does not meet one of the other side
      let x' : Side × (Nat × α) := (x.1, (k, x.2))
      have hitems : (numberFrom k ([x] :: groups)).flatten = x' :: (numberFrom (k + 1) groups).flatten := rfl
      have hpairs : (numberFrom k ([x] :: groups)).filterMap pairOf =
          (numberFrom (k + 1) groups).filterMap pairOf := by
        rw [numberFrom, List.filterMap_cons, List.map_singleton, pairOf_single]
      have hx' : ∀ y ∈ some x', y.2.1 < k + 1 := by
        intro y hy
        cases hy
        exact Nat.lt_succ_self k
      rw [hitems, hpairs]
      cases item with
      | none =>
        rw [pairs_first]
        exact ih (some x') hx'
      | some h =>
        have hchain : (held (some h) ++ shapes ([x] :: groups)).IsChain Follows ↔
            h.1 = x.1 ∧ (held (some x') ++ shapes groups).IsChain Follows := isChain_single_cons _ _ _ _
        rw [hchain]
        by_cases hs : h.1 = x.1
        · rw [pairs_again (y := x') hs, ih (some x') hx', and_iff_right hs]
        · rw [pairs_other (y := x') hs]
          exact iff_of_false (hmixed (ordered_number_ne (Nat.ne_of_lt (hk h rfl)))) fun hc => hs hc.1
    · -- both: their pair is given, if the first does not meet an item of the other side
      let x' : Side × (Nat × α) := (x.1, (k, x.2))
      let y' : Side × (Nat × α) := (y.1, (k, y.2))
      have hitems : (numberFrom k ([x, y] :: groups)).flatten = x' :: y' :: (numberFrom (k + 1) groups).flatten := rfl
      have hpairs : (numberFrom k ([x, y] :: groups)).filterMap pairOf =
          ordered x' y' :: (numberFrom (k + 1) groups).filterMap pairOf := by
        have htwo : pairOf ([x, y].map (Prod.map id (k, ·))) = some (ordered x' y') :=
          pairOf_two (x := x') (y := y') hxy
        rw [numberFrom, List.filterMap_cons, htwo]
      have hrest : ordered x' y' :: pairs (.holding none) (numberFrom (k + 1) groups).flatten =
          ordered x' y' :: (numberFrom (k + 1) groups).filterMap pairOf ↔
            ([x.1, y.1] :: shapes groups).IsChain Follows := by
        rw [List.cons.injEq, and_iff_right rfl, isChain_cons_two]
        exact ih none fun z hz => by cases hz
      rw [hitems, hpairs]
      cases item with
      | none =>
        rw [pairs_first, pairs_other (x := x') (y := y') hxy]
        exact hrest
      | some h =>
        have hchain : (held (some h) ++ shapes ([x, y] :: groups)).IsChain Follows ↔
            h.1 = x.1 ∧ ([x.1, y.1] :: shapes groups).IsChain Follows := isChain_single_cons _ _ _ _
        rw [hchain]
        by_cases hs : h.1 = x.1
        · rw [pairs_again (y := x') hs, pairs_other (x := x') (y := y') hxy, hrest, and_iff_right hs]
        · rw [pairs_other (y := x') hs, ← hpairs]
          exact iff_of_false (hmixed (ordered_number_ne (Nat.ne_of_lt (hk h rfl)))) fun hc => hs hc.1

/-- **Pairs come from one group each**, one from every group with both sides, exactly when the groups are unbroken. -/
theorem pairs_numbered_iff (hnodup : ∀ group ∈ groups, (group.map Prod.fst).Nodup) :
    pairs .clear (numberFrom 0 groups).flatten = (numberFrom 0 groups).filterMap pairOf ↔ Unbroken groups := by
  have hnone : ∀ x ∈ (none : Option (Side × (Nat × α))), x.2.1 < 0 := fun x hx => by cases hx
  exact pairs_numberFrom_iff hnodup hnone

end Groups

end Pairing
