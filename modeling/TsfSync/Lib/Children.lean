import Mathlib.Logic.Function.Basic
import Mathlib.Order.Lattice
import Mathlib.Order.Nat

/-!
# Child processes

What a parent sees of the processes it has started. A child ends at some time, on its own or after a signal, and keeps
its process identifier until the parent has collected its exit status (`reaped`); a signal that is sent to the number of a
reaped child goes to whoever has that number then. Time is counted in calls, so that a child may end between any two
(`Table.now`). Every operation on one child leaves the others as they are (`Touches`).
-/

namespace Children

open Function

/-- A child: when it ends if nobody interferes, how long after a SIGTERM it ends, both none for never, and whether its
exit status has been collected. -/
structure Child where
  endsAt : Option Nat
  onTerm : Option Nat
  reaped : Bool
  deriving DecidableEq, Repr

/-- The earlier of two times, none for never. -/
def earlier : Option Nat → Option Nat → Option Nat
  | none, b => b
  | a, none => a
  | some a, some b => some (min a b)

/-- The child has ended by a time. -/
def Child.ended (c : Child) (now : Nat) : Bool := c.endsAt.any (· ≤ now)

/-- Collect the exit status of a child that has ended by a time. -/
def Child.collect (c : Child) (now : Nat) : Child := { c with reaped := c.reaped || c.ended now }

/-- The children of a process in the order of their start, the time, and the SIGTERMs sent so far: the child that was
meant, and whether the number was still that of the child. -/
structure Table where
  now : Nat
  count : Nat
  child : Nat → Child
  terms : List (Nat × Bool)

namespace Table

/-- A table without children. -/
def empty : Table := ⟨0, 0, fun _ => ⟨none, none, false⟩, []⟩

/-- Time passes. -/
def tick (t : Table) : Table := { t with now := t.now + 1 }

/-- Change a child. -/
def set (t : Table) (i : Nat) (c : Child) : Table := { t with child := update t.child i c }

/-- Start a child. -/
def spawn (t : Table) (c : Child) : Table :=
  { t with now := t.now + 1, count := t.count + 1, child := update t.child t.count { c with reaped := false } }

/-- `waitpid` that does not block, unless the status is known already: has the child ended? -/
def tryWait (t : Table) (i : Nat) : Bool × Table :=
  if (t.child i).reaped || (t.child i).ended t.now then (true, (t.set i { t.child i with reaped := true }).tick)
  else (false, t.tick)

/-- `kill` with SIGTERM, by number. -/
def term (t : Table) (i : Nat) : Table :=
  let c := t.child i
  let t := { t with terms := t.terms ++ [(i, !c.reaped)] }
  if c.reaped then t.tick else (t.set i { c with endsAt := earlier c.endsAt (c.onTerm.map (t.now + ·)) }).tick

/-- `kill` with SIGKILL, unless the status is known already. -/
def kill (t : Table) (i : Nat) : Table :=
  let c := t.child i
  if c.reaped then t.tick else (t.set i { c with endsAt := earlier c.endsAt (some t.now) }).tick

/-- `waitpid` that blocks until the child has ended; it is not meant for a child that never ends. -/
def wait (t : Table) (i : Nat) : Table :=
  let c := t.child i
  ({ t with now := max t.now (c.endsAt.getD t.now) }.set i { c with reaped := true }).tick

/-- The child has ended. -/
def Ended (t : Table) (i : Nat) : Prop := (t.child i).ended t.now = true

/-- If the status of the child has been collected, it has ended. -/
def Sound (t : Table) (i : Nat) : Prop := (t.child i).reaped = true → t.Ended i

end Table

/-- A change that leaves all children but one. -/
structure Touches (i : Nat) (t t' : Table) : Prop where
  now : t.now ≤ t'.now
  count : t'.count = t.count
  others : ∀ j, j ≠ i → t'.child j = t.child j

/-! ## Rules -/

section Rules

variable {t t' t'' : Table} {i j : Nat} {c : Child}

theorem ended_iff {now : Nat} : c.ended now = true ↔ ∃ e, c.endsAt = some e ∧ e ≤ now := by
  unfold Child.ended
  cases c.endsAt <;> simp

theorem ended_mono {now now' : Nat} (h : c.ended now = true) (hle : now ≤ now') : c.ended now' = true := by
  obtain ⟨e, he, hlt⟩ := ended_iff.mp h
  exact ended_iff.mpr ⟨e, he, hlt.trans hle⟩

@[simp] theorem set_self : (t.set i c).child i = c := by simp [Table.set]

theorem set_ne (h : j ≠ i) : (t.set i c).child j = t.child j := by simp [Table.set, h]

theorem Touches.trans (h : Touches i t t') (h' : Touches i t' t'') : Touches i t t'' where
  now := h.now.trans h'.now
  count := h'.count.trans h.count
  others := fun j hj => (h'.others j hj).trans (h.others j hj)

theorem touches_tick (t : Table) : Touches i t t.tick := ⟨Nat.le_succ _, rfl, fun _ _ => rfl⟩

theorem touches_set_tick (t : Table) (c : Child) : Touches i t (t.set i c).tick :=
  ⟨Nat.le_succ _, rfl, fun _ hj => set_ne hj⟩

/-- Another child has ended as before. -/
theorem Touches.ended (h : Touches i t t') (hj : j ≠ i) (he : t.Ended j) : t'.Ended j := by
  unfold Table.Ended
  rw [h.others j hj]
  exact ended_mono he h.now

theorem Touches.sound (h : Touches i t t') (hj : j ≠ i) (hs : t.Sound j) : t'.Sound j := by
  intro hr
  rw [h.others j hj] at hr
  exact h.ended hj (hs hr)

theorem child_spawn (t : Table) (c : Child) : (t.spawn c).child t.count = { c with reaped := false } := update_self ..

theorem child_spawn_ne (c : Child) (h : i ≠ t.count) : (t.spawn c).child i = t.child i := update_of_ne h ..

theorem touches_tryWait (t : Table) (i : Nat) : Touches i t (t.tryWait i).2 := by
  unfold Table.tryWait
  split
  · exact touches_set_tick t _
  · exact touches_tick t

theorem now_tryWait (t : Table) (i : Nat) : (t.tryWait i).2.now = t.now + 1 := by
  unfold Table.tryWait
  split <;> rfl

/-- A wait that does not block collects a child that has ended. -/
theorem child_tryWait (t : Table) (i : Nat) : (t.tryWait i).2.child i = (t.child i).collect t.now := by
  unfold Table.tryWait Child.collect
  split
  · rename_i hc
    rw [hc]
    exact set_self
  · rename_i hc
    obtain ⟨hreaped, hended⟩ := Bool.or_eq_false_iff.mp (Bool.eq_false_iff.mpr hc)
    rw [hreaped, hended, Bool.or_false, ← hreaped]
    rfl

theorem terms_tryWait (t : Table) (i : Nat) : (t.tryWait i).2.terms = t.terms := by
  unfold Table.tryWait
  split <;> rfl

theorem touches_term (t : Table) (i : Nat) : Touches i t (t.term i) := by
  unfold Table.term
  dsimp only
  split
  · exact ⟨Nat.le_succ _, rfl, fun _ _ => rfl⟩
  · exact ⟨Nat.le_succ _, rfl, fun _ hj => set_ne hj⟩

theorem terms_term (t : Table) (i : Nat) : (t.term i).terms = t.terms ++ [(i, !(t.child i).reaped)] := by
  unfold Table.term
  dsimp only
  split <;> rfl

/-- A SIGTERM collects nothing. -/
theorem sound_term (hs : t.Sound i) : (t.term i).Sound i := by
  intro hr
  unfold Table.term at hr ⊢
  dsimp only at hr ⊢
  split at hr
  · rename_i hreaped
    rw [if_pos hreaped]
    exact ended_mono (hs hreaped) (Nat.le_succ _)
  · rename_i hreaped
    change (update t.child i _ i).reaped = true at hr
    rw [update_self] at hr
    exact absurd hr hreaped

/-- A child whose status has not been collected may have ended or not. -/
theorem sound_of_not_reaped (h : (t.child i).reaped = false) : t.Sound i :=
  fun hr => absurd (h.symm.trans hr) Bool.false_ne_true

/-- A child that is waited for without result has not been collected. -/
theorem tryWait_false (h : (t.tryWait i).1 = false) : (t.child i).reaped = false ∧ (t.tryWait i).2 = t.tick := by
  unfold Table.tryWait at h ⊢
  split
  · rename_i hc
    rw [if_pos hc] at h
    cases h
  · rename_i hc
    exact ⟨(Bool.or_eq_false_iff.mp (Bool.eq_false_iff.mpr hc)).1, rfl⟩

/-- A child that is waited for with a result has been collected, and it has ended. -/
theorem tryWait_true (hs : t.Sound i) (h : (t.tryWait i).1 = true) :
    ((t.tryWait i).2.child i).reaped = true ∧ (t.tryWait i).2.Ended i := by
  unfold Table.tryWait at h ⊢
  split
  · rename_i hc
    have hended : (t.child i).ended t.now = true := by
      rcases (Bool.or_eq_true _ _).mp hc with hr | he
      · exact hs hr
      · exact he
    have hself : (t.set i { t.child i with reaped := true }).tick.child i = { t.child i with reaped := true } :=
      set_self
    refine ⟨by rw [hself], ?_⟩
    unfold Table.Ended
    rw [hself]
    exact ended_mono hended (Nat.le_succ _)
  · rename_i hc
    rw [if_neg hc] at h
    cases h

/-- A SIGKILL gives a child an end, no later than now, unless its status is known. -/
theorem ended_kill (hs : t.Sound i) : (t.kill i).Ended i := by
  unfold Table.kill
  dsimp only
  split
  · rename_i hr
    exact ended_mono (hs hr) (Nat.le_succ _)
  · show (update t.child i _ i).ended (t.now + 1) = true
    rw [update_self]
    refine ended_iff.mpr ?_
    show ∃ e, earlier (t.child i).endsAt (some t.now) = some e ∧ e ≤ t.now + 1
    cases (t.child i).endsAt with
    | none => exact ⟨t.now, rfl, Nat.le_succ _⟩
    | some a => exact ⟨min a t.now, rfl, (min_le_right a _).trans (Nat.le_succ _)⟩

theorem touches_kill (t : Table) (i : Nat) : Touches i t (t.kill i) := by
  unfold Table.kill
  dsimp only
  split
  · exact touches_tick t
  · exact touches_set_tick t _

theorem terms_kill (t : Table) (i : Nat) : (t.kill i).terms = t.terms := by
  unfold Table.kill
  dsimp only
  split <;> rfl

theorem touches_wait (t : Table) (i : Nat) : Touches i t (t.wait i) :=
  ⟨(le_max_left _ _).trans (Nat.le_succ _), rfl, fun _ hj => set_ne hj⟩

/-- A child that has been waited for has been collected, and has ended if it ever does. -/
theorem wait_spec (he : t.Ended i) : ((t.wait i).child i).reaped = true ∧ (t.wait i).Ended i := by
  have hself : (t.wait i).child i = { t.child i with reaped := true } := set_self
  refine ⟨by rw [hself], ?_⟩
  unfold Table.Ended
  rw [hself]
  exact ended_mono he (touches_wait t i).now

end Rules

end Children
