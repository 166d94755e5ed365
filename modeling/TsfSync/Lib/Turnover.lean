import Mathlib.Data.List.Find
import Mathlib.Data.List.Nodup
import TsfSync.Lib.Runs

/-!
# The first entry of a list that turns over

A list turns over when entries leave it and new ones come to its end (`Turnover`). The first entry that passes a test is
then the first as long as it is there, whatever comes and goes (`find?_turnover`), also over a run of steps (`find?_runs`).
-/

namespace StepSystem

variable {κ : Type}

/-- Some entries have left the list, and some that were not on it have come to its end. -/
def Turnover (l l' : List κ) : Prop := ∃ kept new, kept.Sublist l ∧ l' = kept ++ new ∧ ∀ c ∈ new, c ∉ l

section Lists

variable {l l' : List κ} {c : κ} {p p' : κ → Bool}

theorem Turnover.refl (l : List κ) : Turnover l l := ⟨l, [], .refl l, (List.append_nil l).symm, fun _ h => by cases h⟩

theorem turnover_append (h : c ∉ l) : Turnover l (l ++ [c]) :=
  ⟨l, [c], .refl l, rfl, fun d hd => by rw [List.mem_singleton.mp hd]; exact h⟩

theorem turnover_erase [DecidableEq κ] (l : List κ) (c : κ) : Turnover l (l.erase c) :=
  ⟨l.erase c, [], List.erase_sublist, (List.append_nil _).symm, fun _ h => by cases h⟩

/-- An entry of a part of a list without duplicates is its first that passes if it is that of the list. -/
theorem find?_sublist (hn : l'.Nodup) (hsub : l.Sublist l') (hc : c ∈ l) (h : l'.find? p = some c) :
    l.find? p = some c := by
  obtain ⟨hp, as, bs, rfl, has⟩ := List.find?_eq_some_iff_append.mp h
  obtain ⟨l₁, l₂, rfl, hsub₁, hsub₂⟩ := List.sublist_append_iff.mp hsub
  obtain ⟨-, hn₂, hdisjoint⟩ := List.nodup_append.mp hn
  obtain ⟨hcb, -⟩ := List.nodup_cons.mp hn₂
  have hc₂ : c ∈ l₂ := by
    rcases List.mem_append.mp hc with hc | hc
    · exact absurd rfl (hdisjoint c (hsub₁.subset hc) c List.mem_cons_self)
    · exact hc
  rcases List.sublist_cons_iff.mp hsub₂ with hbs | ⟨r, rfl, -⟩
  · exact absurd (hbs.subset hc₂) hcb
  · exact List.find?_eq_some_iff_append.mpr ⟨hp, l₁, r, rfl, fun d hd => has d (hsub₁.subset hd)⟩

/-- The first that passes stays the first while it is on the list. -/
theorem find?_turnover (hn : l.Nodup) (h : Turnover l l') (hp : ∀ d ∈ l, p' d = p d) (hc : c ∈ l')
    (hfind : l.find? p = some c) : l'.find? p' = some c := by
  obtain ⟨kept, new, hsub, rfl, hnew⟩ := h
  have hkept : c ∈ kept := by
    rcases List.mem_append.mp hc with hc | hc
    · exact hc
    · exact absurd (List.mem_of_find?_eq_some hfind) (hnew c hc)
  have hfirst : kept.find? p' = some c := by
    rw [List.find?_congr fun d hd => hp d (hsub.subset hd)]
    exact find?_sublist hn hsub hkept hfind
  rw [List.find?_append, hfirst, Option.some_or]

end Lists

section Runs

variable {σ A : Type} {step : A → σ → Option σ} {list : σ → List κ} {test : σ → κ → Bool} {K : A → Prop}

/-- Over a run whose steps turn the list over and leave the test of its entries, the first that passes stays the first
while it is on the list. -/
theorem find?_runs (hn : ∀ s, (list s).Nodup) (hstep : ∀ a s s', K a → step a s = some s' →
      Turnover (list s) (list s') ∧ ∀ d ∈ list s, test s' d = test s d) {c : κ} :
    ∀ {as : List A} {s s' : σ}, (∀ a ∈ as, K a) → EveryState step (c ∈ list ·) as s → runs step as s = some s' →
      (list s).find? (test s) = some c → (list s').find? (test s') = some c
  | [], _, _, _, _, h, hfind => by cases h; exact hfind
  | a :: as, s, _, has, hlisted, h, hfind => by
    obtain ⟨s₁, h₁, h₂⟩ := Option.bind_eq_some_iff.mp h
    obtain ⟨ha, hrest⟩ := List.forall_mem_cons.mp has
    obtain ⟨hturn, htest⟩ := hstep a s s₁ ha h₁
    have hlisted₁ := hlisted.2 s₁ h₁
    exact find?_runs hn hstep hrest hlisted₁ h₂ (find?_turnover (hn s) hturn htest hlisted₁.head hfind)

end Runs

end StepSystem
