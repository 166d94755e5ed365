import Mathlib.Data.List.Nodup
import Mathlib.Tactic.Common

/-!
# Handles that are opened and closed

A registry hands out handles to owners and takes them back. It is the log of what it did, and a handle is the place in
the log where it was opened, so that no two are the same. A handle is live from where it is opened to where it is closed
(`live_opened_iff`, `live_closed_iff`). Closing live handles only closes none twice (`wf_closed`), and opening for owners
without a live handle gives none two of them (`exclusive_opened`).
-/

namespace Handles

variable {ω : Type}

/-- What a registry does. -/
inductive Event (ω : Type)
  | opened (handle : Nat) (owner : ω)
  | closed (handle : Nat)
  deriving DecidableEq, Repr

/-- The handle that an event takes back. -/
def Event.takenBack : Event ω → Option Nat
  | .opened _ _ => none
  | .closed handle => some handle

/-- A registry: its log. -/
abbrev Log (ω : Type) := List (Event ω)

namespace Log

variable (log : Log ω)

/-- A handle is opened, numbered by its place. -/
def opened (owner : ω) : Log ω := log ++ [.opened log.length owner]

/-- A handle is closed. -/
def closed (handle : Nat) : Log ω := log ++ [.closed handle]

/-- The handle of an owner is open. -/
def Live (handle : Nat) (owner : ω) : Prop := .opened handle owner ∈ log ∧ .closed handle ∉ log

/-- No handle is live. -/
def AllClosed : Prop := ∀ handle owner, ¬log.Live handle owner

/-- No owner has two live handles. -/
def Exclusive : Prop := ∀ owner handle handle', log.Live handle owner → log.Live handle' owner → handle = handle'

/-- Handles are places in the log with one owner, and none is closed twice. -/
structure Wf : Prop where
  numbered : ∀ handle owner, .opened handle owner ∈ log → handle < log.length
  owner : ∀ handle owner owner', .opened handle owner ∈ log → .opened handle owner' ∈ log → owner = owner'
  known : ∀ handle, .closed handle ∈ log → handle < log.length
  once : (log.filterMap Event.takenBack).Nodup

variable {log} {handle : Nat} {owner owner' : ω}

theorem mem_opened : .opened handle owner ∈ log.opened owner' ↔
    .opened handle owner ∈ log ∨ handle = log.length ∧ owner = owner' := by
  rw [opened, List.mem_append, List.mem_singleton, Event.opened.injEq]

theorem closed_mem_opened : .closed handle ∈ log.opened owner ↔ .closed handle ∈ log := by simp [opened]

theorem mem_closed {handle' : Nat} : .opened handle owner ∈ log.closed handle' ↔ .opened handle owner ∈ log := by
  simp [closed]

theorem closed_mem_closed {handle' : Nat} :
    .closed handle ∈ log.closed handle' ↔ .closed handle ∈ log ∨ handle = handle' := by simp [closed]

theorem length_opened : (log.opened owner).length = log.length + 1 := by simp [opened]

theorem length_closed : (log.closed handle).length = log.length + 1 := by simp [closed]

theorem mem_takenBack : handle ∈ log.filterMap Event.takenBack ↔ .closed handle ∈ log := by
  rw [List.mem_filterMap]
  constructor
  · rintro ⟨e, he, htaken⟩
    cases e with
    | opened handle' owner => cases htaken
    | closed handle' =>
      cases htaken
      exact he
  · exact fun h => ⟨.closed handle, h, rfl⟩

theorem wf_nil : Wf ([] : Log ω) where
  numbered := fun _ _ h => by cases h
  owner := fun _ _ _ h => by cases h
  known := fun _ h => by cases h
  once := List.nodup_nil

theorem allClosed_nil : AllClosed ([] : Log ω) := fun _ _ h => by cases h.1

theorem exclusive_of_allClosed (h : log.AllClosed) : log.Exclusive := fun owner handle _ hlive => absurd hlive (h handle owner)

/-! ## Opening -/

/-- One more handle is live. -/
theorem live_opened_iff (hw : log.Wf) :
    (log.opened owner').Live handle owner ↔ log.Live handle owner ∨ handle = log.length ∧ owner = owner' := by
  have hnew : .closed log.length ∉ log := fun h => Nat.lt_irrefl _ (hw.known _ h)
  rw [Live, Live, mem_opened, closed_mem_opened]
  constructor
  · rintro ⟨hold | hown, hclosed⟩
    · exact Or.inl ⟨hold, hclosed⟩
    · exact Or.inr hown
  · rintro (⟨hold, hclosed⟩ | ⟨rfl, rfl⟩)
    · exact ⟨Or.inl hold, hclosed⟩
    · exact ⟨Or.inr ⟨rfl, rfl⟩, hnew⟩

theorem wf_opened (hw : log.Wf) (owner : ω) : (log.opened owner).Wf where
  numbered := by
    intro handle owner' h
    rw [length_opened]
    rcases mem_opened.mp h with h | ⟨rfl, -⟩
    · exact Nat.lt_succ_of_lt (hw.numbered _ _ h)
    · exact Nat.lt_succ_self _
  owner := by
    intro handle owner₁ owner₂ h₁ h₂
    rcases mem_opened.mp h₁ with hold₁ | ⟨hnew₁, rfl⟩ <;> rcases mem_opened.mp h₂ with hold₂ | ⟨hnew₂, rfl⟩
    · exact hw.owner _ _ _ hold₁ hold₂
    · have hlt := hw.numbered _ _ hold₁
      omega
    · have hlt := hw.numbered _ _ hold₂
      omega
    · rfl
  known := by
    intro handle h
    rw [length_opened]
    exact Nat.lt_succ_of_lt (hw.known _ (closed_mem_opened.mp h))
  once := by
    have htaken : (log.opened owner).filterMap Event.takenBack = log.filterMap Event.takenBack := by
      simp [opened, Event.takenBack]
    rw [htaken]
    exact hw.once

/-- An owner without a live handle gets its only one. -/
theorem exclusive_opened (hw : log.Wf) (h : log.Exclusive) (hnone : ∀ handle, ¬log.Live handle owner) :
    (log.opened owner).Exclusive := by
  intro owner' handle handle' h₁ h₂
  rcases (live_opened_iff hw).mp h₁ with hold₁ | ⟨hnew₁, hown₁⟩ <;>
    rcases (live_opened_iff hw).mp h₂ with hold₂ | ⟨hnew₂, hown₂⟩
  · exact h owner' _ _ hold₁ hold₂
  · rw [hown₂] at hold₁
    exact absurd hold₁ (hnone _)
  · rw [hown₁] at hold₂
    exact absurd hold₂ (hnone _)
  · rw [hnew₁, hnew₂]

/-! ## Closing -/

/-- The handle is not live any more, and the others are as before. -/
theorem live_closed_iff {handle' : Nat} :
    (log.closed handle').Live handle owner ↔ log.Live handle owner ∧ handle ≠ handle' := by
  rw [Live, Live, mem_closed, closed_mem_closed, not_or, and_assoc]

theorem wf_closed (hw : log.Wf) (hlive : log.Live handle owner) : (log.closed handle).Wf where
  numbered := by
    intro handle' owner' h
    rw [length_closed]
    exact Nat.lt_succ_of_lt (hw.numbered _ _ (mem_closed.mp h))
  owner := fun handle' owner₁ owner₂ h₁ h₂ => hw.owner _ _ _ (mem_closed.mp h₁) (mem_closed.mp h₂)
  known := by
    intro handle' h
    rw [length_closed]
    rcases closed_mem_closed.mp h with h | rfl
    · exact Nat.lt_succ_of_lt (hw.known _ h)
    · exact Nat.lt_succ_of_lt (hw.numbered _ _ hlive.1)
  once := by
    have htaken : (log.closed handle).filterMap Event.takenBack = log.filterMap Event.takenBack ++ [handle] := by
      simp [closed, Event.takenBack]
    rw [htaken]
    refine hw.once.append (List.nodup_singleton _) fun h hmem hhandle => hlive.2 ?_
    rw [← List.mem_singleton.mp hhandle]
    exact mem_takenBack.mp hmem

theorem exclusive_closed (h : log.Exclusive) (handle : Nat) : (log.closed handle).Exclusive :=
  fun owner _ _ h₁ h₂ => h owner _ _ (live_closed_iff.mp h₁).1 (live_closed_iff.mp h₂).1

end Log

end Handles
