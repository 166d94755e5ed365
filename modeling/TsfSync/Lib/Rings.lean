import Mathlib.Data.List.Perm.Basic

/-!
# Submission and completion rings

Entries are pushed onto a submission queue of bounded length, taken from its front by the other side, completed in any
order, and their completions popped in the order they arrived (`Rings`). An entry stays in the rings from its push until
its completion is popped: pushing adds one entry (`entries_push`), taking and completing keep the entries
(`entries_take`, `perm_complete`), popping removes one (`entries_next`). So after a push onto rings that hold nothing,
whatever the other side does, only that entry's completion can be popped and nothing stays behind (`own_of_perm`); where
something is left of an earlier operation, its completion may come first (`exists_stale_head`). A completion in the
queue is in the history of completions (`Recorded`).
-/

namespace IoRings

variable {κ ρ : Type}

/-- An entry of the submission queue: the operation it stands for and what it asks for. -/
structure Sqe (κ : Type) where
  op : Nat
  request : κ
  deriving DecidableEq, Repr

/-- An entry of the completion queue. -/
structure Cqe (κ ρ : Type) where
  sqe : Sqe κ
  result : ρ
  deriving DecidableEq, Repr

/-- The two queues, the entries between them, and every completion so far. -/
structure Rings (κ ρ : Type) where
  sq : List (Sqe κ)
  inFlight : List (Sqe κ)
  cq : List (Cqe κ ρ)
  completed : List (Cqe κ ρ)
  deriving DecidableEq, Repr

namespace Rings

/-- Rings that nothing was pushed onto. -/
def empty : Rings κ ρ := ⟨[], [], [], []⟩

/-- Push an entry; none if the submission queue is full. -/
def push (capacity : Nat) (e : Sqe κ) (r : Rings κ ρ) : Option (Rings κ ρ) :=
  if r.sq.length < capacity then some { r with sq := r.sq ++ [e] } else none

/-- The other side takes up to `n` entries. -/
def take (n : Nat) (r : Rings κ ρ) : Rings κ ρ :=
  { r with sq := r.sq.drop n, inFlight := r.inFlight ++ r.sq.take n }

/-- The completion of an operation arrives, if it is in flight. -/
def complete [DecidableEq κ] (r : Rings κ ρ) (arrival : Nat × ρ) : Rings κ ρ :=
  match r.inFlight.find? (·.op == arrival.1) with
  | none => r
  | some e =>
    { r with
      inFlight := r.inFlight.erase e
      cq := r.cq ++ [⟨e, arrival.2⟩]
      completed := r.completed ++ [⟨e, arrival.2⟩] }

/-- Completions arrive one after the other. -/
def completeAll [DecidableEq κ] (r : Rings κ ρ) (arrivals : List (Nat × ρ)) : Rings κ ρ := arrivals.foldl complete r

/-- Pop the oldest completion. -/
def next (r : Rings κ ρ) : Option (Cqe κ ρ × Rings κ ρ) :=
  match r.cq with
  | [] => none
  | c :: cq => some (c, { r with cq })

/-! ## What the rings hold -/

/-- The entries that were pushed and whose completions were not popped. -/
def entries (r : Rings κ ρ) : List (Sqe κ) := r.cq.map Cqe.sqe ++ (r.inFlight ++ r.sq)

/-- Nothing is left of any operation. -/
def Idle (r : Rings κ ρ) : Prop := r.entries = []

instance [DecidableEq κ] (r : Rings κ ρ) : Decidable r.Idle := inferInstanceAs (Decidable (r.entries = []))

/-- Completions that can be popped have happened. -/
def Recorded (r : Rings κ ρ) : Prop := ∀ c ∈ r.cq, c ∈ r.completed

variable {r r' : Rings κ ρ}

theorem recorded_empty : (empty : Rings κ ρ).Recorded := fun _ h => by cases h

theorem entries_push {capacity : Nat} {e : Sqe κ} (h : r.push capacity e = some r') :
    r'.entries = r.entries ++ [e] := by
  rw [push] at h
  split at h
  · cases h
    simp only [entries, List.append_assoc]
  · cases h

theorem Recorded.push {capacity : Nat} {e : Sqe κ} (hr : r.Recorded) (h : r.push capacity e = some r') :
    r'.Recorded := by
  rw [Rings.push] at h
  split at h
  · cases h; exact hr
  · cases h

/-- Taking keeps the entries. -/
@[simp] theorem entries_take (n : Nat) : (r.take n).entries = r.entries := by
  rw [entries, take, entries, List.append_assoc, List.take_append_drop]

theorem Recorded.take (hr : r.Recorded) (n : Nat) : (r.take n).Recorded := hr

section Complete

variable [DecidableEq κ]

@[simp] theorem completeAll_nil : r.completeAll [] = r := rfl

/-- The completion of an operation in flight. -/
theorem complete_of_find {arrival : Nat × ρ} {e : Sqe κ} (h : r.inFlight.find? (·.op == arrival.1) = some e) :
    r.complete arrival =
      { r with
        inFlight := r.inFlight.erase e
        cq := r.cq ++ [⟨e, arrival.2⟩]
        completed := r.completed ++ [⟨e, arrival.2⟩] } := by
  rw [complete, h]

/-- Completing keeps the entries. -/
theorem perm_complete (arrival : Nat × ρ) : (r.complete arrival).entries.Perm r.entries := by
  cases h : r.inFlight.find? (·.op == arrival.1) with
  | none => rw [complete, h]
  | some e =>
    have hmem : e ∈ r.inFlight := List.mem_of_find?_eq_some h
    have herase : (e :: (r.inFlight.erase e ++ r.sq)).Perm (r.inFlight ++ r.sq) :=
      (List.perm_cons_erase hmem).symm.append_right r.sq
    rw [complete_of_find h]
    simp only [entries, List.map_append, List.map_cons, List.map_nil, List.append_assoc, List.singleton_append]
    exact herase.append_left _

theorem perm_completeAll (arrivals : List (Nat × ρ)) : (r.completeAll arrivals).entries.Perm r.entries := by
  induction arrivals generalizing r with
  | nil => exact .refl _
  | cons arrival arrivals ih => exact (ih (r := r.complete arrival)).trans (perm_complete arrival)

theorem Recorded.complete (hr : r.Recorded) (arrival : Nat × ρ) : (r.complete arrival).Recorded := by
  cases h : r.inFlight.find? (·.op == arrival.1) with
  | none => rw [Rings.complete, h]; exact hr
  | some e =>
    rw [complete_of_find h]
    intro c hc
    rcases List.mem_append.mp hc with hc | hc
    · exact List.mem_append_left _ (hr c hc)
    · exact List.mem_append_right _ hc

theorem Recorded.completeAll (hr : r.Recorded) (arrivals : List (Nat × ρ)) : (r.completeAll arrivals).Recorded := by
  induction arrivals generalizing r with
  | nil => exact hr
  | cons arrival arrivals ih => exact ih (hr.complete arrival)

/-- Completions leave the submission queue. -/
@[simp] theorem sq_completeAll (arrivals : List (Nat × ρ)) : (r.completeAll arrivals).sq = r.sq := by
  induction arrivals generalizing r with
  | nil => rfl
  | cons arrival arrivals ih =>
    refine (ih (r := r.complete arrival)).trans ?_
    rw [complete]
    split <;> rfl

/-- The history of completions only grows. -/
theorem completed_completeAll {c : Cqe κ ρ} (arrivals : List (Nat × ρ)) (h : c ∈ r.completed) :
    c ∈ (r.completeAll arrivals).completed := by
  induction arrivals generalizing r with
  | nil => exact h
  | cons arrival arrivals ih =>
    refine ih (r := r.complete arrival) ?_
    rw [complete]
    split
    · exact h
    · exact List.mem_append_left _ h

end Complete

/-- Popping removes the entry whose completion it gives. -/
theorem entries_next {c : Cqe κ ρ} (h : r.next = some (c, r')) : r.entries = c.sqe :: r'.entries := by
  obtain ⟨sq, inFlight, cq, completed⟩ := r
  cases cq with
  | nil => cases h
  | cons c' cq => cases h; rfl

theorem Recorded.next {c : Cqe κ ρ} (hr : r.Recorded) (h : r.next = some (c, r')) :
    c ∈ r'.completed ∧ r'.Recorded := by
  obtain ⟨sq, inFlight, cq, completed⟩ := r
  cases cq with
  | nil => cases h
  | cons c' cq =>
    cases h
    exact ⟨hr _ List.mem_cons_self, fun d hd => hr d (List.mem_cons_of_mem _ hd)⟩

/-- On rings that hold one entry, only its completion can be popped, and nothing is left. -/
theorem own_of_perm {e : Sqe κ} {c : Cqe κ ρ} (h : (c.sqe :: r.entries).Perm [e]) : c.sqe = e ∧ r.Idle :=
  List.cons.inj (List.perm_singleton.mp h)

theorem next_of_head? {c : Cqe κ ρ} (h : r.cq.head? = some c) : r.next = some (c, { r with cq := r.cq.tail }) := by
  obtain ⟨sq, inFlight, cq, completed⟩ := r
  cases cq with
  | nil => cases h
  | cons c' cq => cases h; rfl

/-- Where something is left of earlier operations, its completion can come first after the next push. -/
theorem exists_stale_head [DecidableEq κ] {capacity : Nat} {e : Sqe κ} (answer : ρ) (hr : ¬r.Idle)
    (h : r.push capacity e = some r') : ∃ arrivals c,
      ((r'.take (r.sq.length + 1)).completeAll arrivals).cq.head? = some c ∧ c.sqe ∈ r.entries := by
  obtain ⟨sq, inFlight, cq, completed⟩ := r
  rw [push] at h
  split at h
  · cases h
    cases cq with
    | cons c cq => exact ⟨[], c, rfl, List.mem_cons_self⟩
    | nil =>
      cases hall : inFlight ++ sq with
      | nil => exact absurd hall hr
      | cons x rest =>
        have hflight : inFlight ++ (sq ++ [e]).take (sq.length + 1) = x :: (rest ++ [e]) := by
          rw [List.take_of_length_le (by simp), ← List.append_assoc, hall, List.cons_append]
        have hfind : (inFlight ++ (sq ++ [e]).take (sq.length + 1)).find? (·.op == x.op) = some x := by
          rw [hflight, List.find?_cons_of_pos (by simp)]
        refine ⟨[(x.op, answer)], ⟨x, answer⟩, ?_, ?_⟩
        · rw [completeAll, List.foldl_cons, complete_of_find (e := x) hfind]
          rfl
        · show x ∈ [] ++ (inFlight ++ sq)
          rw [hall]
          exact List.mem_cons_self
  · cases h

end Rings

end IoRings
