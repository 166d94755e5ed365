import TsfSync.Kernel.RegistrySpec
import TsfSync.Lib.Runs

/-!
# When a card has a VIF

A card should hold a VIF exactly when a device of its wiphy is up. Bringing a device up and unregistering one keep that
(`covered_up`, `covered_unregister`); taking the captured device down keeps it only if no sibling is up, because nothing
captures the sibling (`covered_down_iff`); a new card starts without a VIF, so it is right only if nothing of its wiphy
is up (`covered_register_iff`); and the scan of the initialisation sees the initial namespace only
(`covered_scan_iff`). So over a run the property holds in every state if and only if every step meets its condition
(`hasVif_iff`).
-/

namespace TsfSync

open Function

namespace Registry

variable {r : Registry} {dev : NetDev} {w : WiphyId}

theorem covered_of_eq {r r' : Registry} (hv : r'.vifs w = r.vifs w) (hu : r'.AnyUp w ↔ r.AnyUp w) (h : r.Covered w) :
    r'.Covered w := fun vif hvif => (h vif (hv ▸ hvif)).trans hu.symm

/-- Which wiphys have an up device after one comes up. -/
theorem anyUp_setUp_true (h : r.Sound) (hdev : dev ∈ r.netdevs) :
    (r.setUp dev.id true).AnyUp w ↔ dev.wiphy = some w ∨ r.AnyUp w := by
  constructor
  · rintro ⟨d, hd, hup, hw⟩
    obtain ⟨d₀, hd₀, rfl⟩ := List.mem_map.mp hd
    split at hw
    · rename_i he
      exact Or.inl (h.eq_of_id hd₀ hdev he ▸ hw)
    · rename_i hne
      rw [if_neg hne] at hup
      exact Or.inr ⟨d₀, hd₀, hup, hw⟩
  · rintro (hw | ⟨d, hd, hup, hw⟩)
    · exact ⟨_, List.mem_map_of_mem hdev, by rw [if_pos rfl], by rw [if_pos rfl]; exact hw⟩
    · refine ⟨_, List.mem_map_of_mem hd, ?_⟩
      split
      · exact ⟨rfl, hw⟩
      · exact ⟨hup, hw⟩

/-- Which wiphys have an up device after one goes down. -/
theorem anyUp_setUp_false :
    (r.setUp dev.id false).AnyUp w ↔ ∃ d ∈ r.netdevs, d.id ≠ dev.id ∧ d.up = true ∧ d.wiphy = some w := by
  constructor
  · rintro ⟨d, hd, hup, hw⟩
    obtain ⟨d₀, hd₀, rfl⟩ := List.mem_map.mp hd
    split at hup
    · cases hup
    · rename_i hne
      rw [if_neg hne] at hw
      exact ⟨d₀, hd₀, hne, hup, hw⟩
  · rintro ⟨d, hd, hne, hup, hw⟩
    exact ⟨d, List.mem_map.mpr ⟨d, hd, if_neg hne⟩, hup, hw⟩

theorem anyUp_list (hdown : dev.up = false) : (r.list dev).AnyUp w ↔ r.AnyUp w := by
  constructor
  · rintro ⟨d, hd, hup, hw⟩
    rcases List.mem_append.mp hd with hd | hd
    · exact ⟨d, hd, hup, hw⟩
    · rw [List.mem_singleton.mp hd, hdown] at hup
      cases hup
  · rintro ⟨d, hd, hrest⟩
    exact ⟨d, List.mem_append_left _ hd, hrest⟩

theorem anyUp_unlist (h : r.Sound) (hdev : dev ∈ r.netdevs) (hdown : dev.up = false) :
    (r.unlist dev.id).AnyUp w ↔ r.AnyUp w := by
  constructor
  · rintro ⟨d, hd, hrest⟩
    exact ⟨d, (List.mem_filter.mp hd).1, hrest⟩
  · rintro ⟨d, hd, hup, hw⟩
    have hne : d.id ≠ dev.id := fun e => by rw [h.eq_of_id hd hdev e, hdown] at hup; cases hup
    exact ⟨d, List.mem_filter.mpr ⟨hd, by simpa using hne⟩, hup, hw⟩

/-- A capture leaves the cards of other wiphys. -/
theorem capture_vifs_of_ne (hw : dev.wiphy ≠ some w) : (r.capture dev).vifs w = r.vifs w := by
  unfold capture
  split
  · rfl
  · rename_i w' hw'
    exact change_ne _ fun e => hw (by rw [e]; exact hw')

/-- So does a release. -/
theorem release_vifs_of_ne (hw : dev.wiphy ≠ some w) : (r.release dev).vifs w = r.vifs w := by
  unfold release
  split
  · rfl
  · rename_i w' hw'
    exact change_ne _ fun e => hw (by rw [e]; exact hw')

/-- A device that comes up is captured or finds its card with a VIF. -/
theorem covered_up (h : r.Sound) (hc : ∀ w, r.Covered w) (hdev : dev ∈ r.netdevs) (w : WiphyId) :
    ((r.setUp dev.id true).capture { dev with up := true }).Covered w := by
  have hup : ((r.setUp dev.id true).capture { dev with up := true }).AnyUp w ↔ (r.setUp dev.id true).AnyUp w :=
    anyUp_congr capture_netdevs w
  rw [anyUp_setUp_true h hdev] at hup
  intro vif hvif
  rw [hup]
  by_cases hw : dev.wiphy = some w
  · have hcap : (r.vifs w).map (·.or (some dev.id)) = some vif := by
      have hw' : ({ dev with up := true } : NetDev).wiphy = some w := hw
      simpa [capture, hw', change, setUp] using hvif
    obtain ⟨v, -, rfl⟩ := Option.map_eq_some_iff.mp hcap
    simp [hw]
  · have hsame : r.vifs w = some vif := by
      have hother : ({ dev with up := true } : NetDev).wiphy ≠ some w := hw
      rwa [capture_vifs_of_ne hother] at hvif
    simpa [hw] using hc w vif hsame

/-- **A device that goes down** leaves the property intact if and only if it is not the captured one or no sibling of
it is up. -/
theorem covered_down_iff (h : r.Sound) (hc : ∀ w, r.Covered w) (hdev : dev ∈ r.netdevs) (hup : dev.up = true) :
    (∀ w, ((r.setUp dev.id false).release dev).Covered w) ↔
      ∀ w, r.vifs w = some (some dev.id) → ∀ d ∈ r.netdevs, d.id ≠ dev.id → d.wiphy = some w → d.up = false := by
  have hany : ∀ w, ((r.setUp dev.id false).release dev).AnyUp w ↔
      ∃ d ∈ r.netdevs, d.id ≠ dev.id ∧ d.up = true ∧ d.wiphy = some w := fun w =>
    (anyUp_congr release_netdevs w).trans anyUp_setUp_false
  constructor
  · intro hall w hv d hd hne hw
    obtain ⟨dev', hm, he, -, hw'⟩ := h.held w _ hv
    rw [h.eq_of_id hm hdev he] at hw'
    have hnone : ((r.setUp dev.id false).release dev).vifs w = some none := by
      simp [release, hw', change, setUp, hv]
    by_contra hdup
    have hsome := (hall w none hnone).mpr ((hany w).mpr ⟨d, hd, hne, by simpa using hdup, hw⟩)
    cases hsome
  · intro hcond w vif hvif
    rw [hany w]
    by_cases hw : dev.wiphy = some w
    · have hrel : (r.vifs w).map (fun v => if v = some dev.id then none else v) = some vif := by
        simpa [release, hw, change, setUp] using hvif
      obtain ⟨v, hv, rfl⟩ := Option.map_eq_some_iff.mp hrel
      by_cases hv' : v = some dev.id
      · -- the captured device went down
        subst hv'
        simp only [if_true, Option.isSome_none, Bool.false_eq_true, false_iff]
        rintro ⟨d, hd, hne, hdup, hdw⟩
        rw [hcond w hv d hd hne hdw] at hdup
        cases hdup
      · cases v with
        | none => exact absurd ((hc w none hv).mpr ⟨dev, hdev, hup, hw⟩) (by simp)
        | some id =>
          obtain ⟨d, hd, he, hdup, hdw⟩ := h.held w id hv
          simpa [hv'] using ⟨d, hd, fun e => hv' (by rw [← e, he]), hdup, hdw⟩
    · have hsame : r.vifs w = some vif := by rwa [release_vifs_of_ne hw] at hvif
      rw [hc w vif hsame]
      constructor
      · rintro ⟨d, hd, hdup, hdw⟩
        exact ⟨d, hd, fun e => hw (h.eq_of_id hd hdev e ▸ hdw), hdup, hdw⟩
      · rintro ⟨d, hd, -, hdup, hdw⟩
        exact ⟨d, hd, hdup, hdw⟩

/-- **A new device** leaves the property intact if and only if no card is made for a wiphy with an up device. -/
theorem covered_register_iff (hc : ∀ w, r.Covered w) (hdown : dev.up = false) (o : Option WiphyId) :
    (∀ w, ((r.list dev).enrol o).Covered w) ↔ ∀ w, o = some w → ¬r.AnyUp w := by
  have hany : ∀ w, ((r.list dev).enrol o).AnyUp w ↔ r.AnyUp w := fun w =>
    (anyUp_congr (enrol_netdevs o) w).trans (anyUp_list hdown)
  constructor
  · rintro hall w rfl hup
    have hsome := (hall w none (by simp [enrol, add])).mpr ((hany w).mpr hup)
    cases hsome
  · intro hcond w
    cases ho : o with
    | none => exact covered_of_eq (r := r) rfl (anyUp_list hdown) (hc w)
    | some w' =>
      subst ho
      by_cases e : w = w'
      · subst e
        intro vif hvif
        have hnone : vif = none := by simpa [enrol, add] using hvif.symm
        subst hnone
        simpa [hany w] using hcond w rfl
      · have hv : ((r.list dev).enrol (some w')).vifs w = r.vifs w := by
          unfold enrol add
          exact change_ne _ e
        exact covered_of_eq hv (hany w) (hc w)

/-- A device that is down when it leaves was not captured. -/
theorem covered_unregister (h : r.Sound) (hc : ∀ w, r.Covered w) (hdev : dev ∈ r.netdevs) (hdown : dev.up = false)
    (w : WiphyId) : (((r.unlist dev.id).release dev).dropIfLast dev).Covered w := by
  have hany : (((r.unlist dev.id).release dev).dropIfLast dev).AnyUp w ↔ r.AnyUp w :=
    (anyUp_congr dropIfLast_netdevs w).trans ((anyUp_congr release_netdevs w).trans (anyUp_unlist h hdev hdown))
  have hrel : (r.unlist dev.id).release dev = r.unlist dev.id := by
    unfold release
    split
    · rfl
    · rename_i w' hw'
      refine change_eq_self ?_
      cases hv : (r.unlist dev.id).vifs w' with
      | none => rfl
      | some vif =>
        have hne : vif ≠ some dev.id := fun e => by
          obtain ⟨d, hd, he, hdup, -⟩ := h.held w' dev.id (e ▸ hv)
          rw [h.eq_of_id hd hdev he, hdown] at hdup
          cases hdup
        simp [hne]
  rw [hrel] at hany ⊢
  intro vif hvif
  rw [hany]
  refine hc w vif ?_
  unfold dropIfLast at hvif
  split at hvif
  · exact hvif
  · rename_i w' hw'
    split at hvif
    · exact hvif
    · by_cases e : w = w'
      · subst e; simp at hvif
      · rwa [change_ne _ e] at hvif

/-- One round of the scan. -/
def scanDev (r : Registry) (dev : NetDev) : Registry := if dev.up then r.capture dev else r

@[simp] theorem scanDev_netdevs : (r.scanDev dev).netdevs = r.netdevs := by
  unfold scanDev
  split
  · exact capture_netdevs
  · rfl

/-- What a scan of some devices leaves in a card: its VIF, else the first device of its wiphy that is up. -/
theorem vifs_scan (w : WiphyId) : ∀ (devs : List NetDev) (r : Registry), (devs.foldl scanDev r).vifs w =
    (r.vifs w).map (·.or ((devs.find? fun d => d.up && d.wiphy == some w).map (·.id)))
  | [], r => by simp
  | dev :: devs, r => by
    rw [List.foldl_cons, vifs_scan w devs]
    cases hup : dev.up with
    | false => simp [scanDev, hup]
    | true =>
      by_cases hw : dev.wiphy = some w
      · simp [scanDev, hup, capture, hw, Function.comp_def]
      · have hcap : (r.capture dev).vifs w = r.vifs w := by
          unfold capture
          split
          · rfl
          · rename_i w' hw'
            exact change_ne _ fun e => hw (by rw [e]; exact hw')
        simp [scanDev, hup, hcap, hw]

theorem scan_netdevs : ∀ (devs : List NetDev) (r : Registry), (devs.foldl scanDev r).netdevs = r.netdevs
  | [], _ => rfl
  | dev :: devs, r => by rw [List.foldl_cons, scan_netdevs devs, scanDev_netdevs]

/-- **The scan** gives every card its VIF if and only if no card without one depends on a device that is not scanned. -/
theorem covered_scan_iff (h : r.Sound) {devs : List NetDev} (hsub : ∀ d ∈ devs, d ∈ r.netdevs) :
    (∀ w, (devs.foldl scanDev r).Covered w) ↔
      ∀ w, r.vifs w = some none → r.AnyUp w → ∃ d ∈ devs, d.up = true ∧ d.wiphy = some w := by
  have hany : ∀ w, (devs.foldl scanDev r).AnyUp w ↔ r.AnyUp w := anyUp_congr (scan_netdevs devs r)
  constructor
  · intro hall w hv hup
    have hvif := vifs_scan w devs r
    rw [hv] at hvif
    have hsome := (hall w _ hvif).mpr ((hany w).mpr hup)
    cases hf : devs.find? fun d => d.up && d.wiphy == some w with
    | none => simp [hf] at hsome
    | some d =>
      have hd := List.find?_some hf
      exact ⟨d, List.mem_of_find?_eq_some hf, by simpa using hd⟩
  · intro hcond w vif hvif
    rw [vifs_scan] at hvif
    obtain ⟨v, hv, rfl⟩ := Option.map_eq_some_iff.mp hvif
    rw [hany w]
    cases v with
    | some id =>
      obtain ⟨d, hd, -, hrest⟩ := h.held w id hv
      simpa using ⟨d, hd, hrest⟩
    | none =>
      rw [Option.none_or]
      constructor
      · intro hs
        obtain ⟨d, hd, hrest⟩ : ∃ d ∈ devs, d.up = true ∧ d.wiphy = some w := by simpa using hs
        exact ⟨d, hsub d hd, hrest⟩
      · intro hup
        obtain ⟨d, hd, hrest⟩ := hcond w hv hup
        simpa using ⟨d, hd, hrest⟩

end Registry

open Kernel

variable {s s' : Kernel}

/-- **A card has a usable VIF whenever one exists**, and only then. -/
def Kernel.HasVif (s : Kernel) : Prop :=
  ∀ c ∈ s.cardsList.ptrs, (s.card c).vif.isSome ↔ ∃ dev ∈ s.netdevs, dev.up = true ∧ dev.wiphy = some (s.wiphyOf c)

theorem hasVif_iff_covered (h : s.CardsOk) : s.HasVif ↔ ∀ w, s.view.Covered w := by
  constructor
  · intro hv w vif hvif
    obtain ⟨c, hc, rfl⟩ := Option.map_eq_some_iff.mp hvif
    have hw := wiphyOf_of_cardOf hc
    rw [hv c (mem_of_cardOf hc), hw]
    rfl
  · intro hcov c hc
    exact hcov (s.wiphyOf c) _ (by simp [view, h.cardOf_self hc])

/-! ## Runs -/

/-- `P` holds in every state of a run. -/
def EveryState (P : Kernel → Prop) : List RtnlStep → Kernel → Prop
  | [], s => P s
  | a :: steps, s => P s ∧ ∀ s', rtnlStep s a = some s' → EveryState P steps s'

/-- Every step of a run meets `Q` in the state it is taken from. -/
def EveryStep (Q : Kernel → RtnlStep → Prop) : List RtnlStep → Kernel → Prop
  | [], _ => True
  | a :: steps, s => ∀ s', rtnlStep s a = some s' → Q s a ∧ EveryStep Q steps s'

theorem everyState_iff_runs {P : Kernel → Prop} (steps : List RtnlStep) : ∀ s : Kernel,
    EveryState P steps s ↔ StepSystem.EveryState (fun a s => rtnlStep s a) P steps s := by
  induction steps with
  | nil => exact fun _ => Iff.rfl
  | cons a steps ih =>
    intro s
    simp only [EveryState, StepSystem.EveryState, ih]

theorem everyStep_iff_runs {Q : Kernel → RtnlStep → Prop} (steps : List RtnlStep) : ∀ s : Kernel,
    EveryStep Q steps s ↔ StepSystem.EveryStep (fun a s => rtnlStep s a) (fun a s => Q s a) steps s := by
  induction steps with
  | nil => exact fun _ => Iff.rfl
  | cons a steps ih =>
    intro s
    simp only [EveryStep, StepSystem.EveryStep, ih]

/-- Where one step keeps `P` if and only if it meets `Q`, a run that starts in `P` stays in it if and only if all its steps
meet `Q`. -/
theorem everyState_iff_everyStep {P : Kernel → Prop} {Q : Kernel → RtnlStep → Prop} (A : RtnlStep → Prop)
    (hstep : ∀ {s s' : Kernel} {a : RtnlStep}, s.Safe → P s → A a → rtnlStep s a = some s' → (P s' ↔ Q s a))
    (steps : List RtnlStep) (hA : ∀ a ∈ steps, A a) {s : Kernel} (hs : s.Safe) (hp : P s) :
    EveryState P steps s ↔ EveryStep Q steps s := by
  rw [everyState_iff_runs, everyStep_iff_runs]
  exact StepSystem.everyState_iff (fun _ _ _ => rtnlStep_safe) (fun _ _ _ => hstep) steps hA hs hp

/-- An event, as opposed to a step of the initialisation. -/
def RtnlStep.IsEvent : RtnlStep → Prop
  | .register .. | .up _ | .down _ | .unregister _ => True
  | .registerNotifier _ | .discover _ | .scan => False

/-- The condition on an event: a device that goes down is not the captured one or has no sibling that is up, and a
device that is registered adds no card for a wiphy with a device that is up. -/
def EventOk (s : Kernel) : RtnlStep → Prop
  | .down id => ∀ c ∈ s.cardsList.ptrs, (s.card c).vif = some id →
      ∀ d ∈ s.netdevs, d.id ≠ id → d.wiphy = some (s.wiphyOf c) → d.up = false
  | .register env dev => ∀ w, s.enrols env dev = some w → ∀ d ∈ s.netdevs, d.wiphy = some w → d.up = false
  | _ => True

/-- The condition on the scan: a card without a VIF has no device that is up, or one that the scan visits. -/
def ScanOk (s : Kernel) : Prop :=
  ∀ c ∈ s.cardsList.ptrs, (s.card c).vif = none → (∃ d ∈ s.netdevs, d.up = true ∧ d.wiphy = some (s.wiphyOf c)) →
    ∃ d ∈ initNetdevs s, d.up = true ∧ d.wiphy = some (s.wiphyOf c)

theorem vifs_view (h : s.CardsOk) (vif : Option DevId) (P : WiphyId → Prop) :
    (∀ w, s.view.vifs w = some vif → P w) ↔ ∀ c ∈ s.cardsList.ptrs, (s.card c).vif = vif → P (s.wiphyOf c) := by
  constructor
  · intro hw c hc hv
    exact hw _ (by simp [view, h.cardOf_self hc, hv])
  · intro hcard w hv
    obtain ⟨c, hc, rfl⟩ := Option.map_eq_some_iff.mp hv
    exact wiphyOf_of_cardOf hc ▸ hcard c (mem_of_cardOf hc) rfl

/-- The scan and the view. -/
theorem does_scan (h : s.CardsOk) :
    Does s (tsfPtpScanExistingVifs.run s).2 ((initNetdevs s).foldl Registry.scanDev s.view) := by
  have key : ∀ (devs : List NetDev) {t : Kernel}, t.CardsOk →
      Does t ((forM devs scanExistingVif : KProg Unit).run t).2 (devs.foldl Registry.scanDev t.view) := by
    intro devs
    induction devs with
    | nil => exact fun ht => Does.refl ht
    | cons dev devs ih =>
      intro t ht
      have h₁ := does_scanExistingVif dev ht
      have h₂ := ih h₁.ok
      rw [h₁.view] at h₂
      simpa [Registry.scanDev] using h₁.trans fun _ => h₂
  simpa [tsfPtpScanExistingVifs] using key (initNetdevs s) h

/-- After the scan. -/
theorem hasVif_scan_iff (h : s.Safe) : (tsfPtpScanExistingVifs.run s).2.HasVif ↔ ScanOk s := by
  have hd := does_scan h.ok
  have hsub : ∀ d ∈ initNetdevs s, d ∈ s.view.netdevs := fun d hd => (List.mem_filter.mp hd).1
  rw [hasVif_iff_covered hd.ok, hd.view, Registry.covered_scan_iff h.sound hsub]
  exact vifs_view h.ok none fun w => s.view.AnyUp w → ∃ d ∈ initNetdevs s, d.up = true ∧ d.wiphy = some w

/-- After one event. -/
theorem hasVif_step_iff {a : RtnlStep} (h : s.Safe) (hv : s.HasVif) (ha : a.IsEvent) (hstep : rtnlStep s a = some s') :
    s'.HasVif ↔ EventOk s a := by
  have hcov := (hasVif_iff_covered h.ok).mp hv
  rw [hasVif_iff_covered (rtnlStep_safe h hstep).ok]
  cases a with
  | registerNotifier env => cases ha
  | discover env => cases ha
  | scan => cases ha
  | register env dev =>
    obtain ⟨-, hdown, rfl⟩ := rtnlStep_register hstep
    rw [(does_registerNetdevice env dev h.ok).view, Registry.covered_register_iff hcov hdown]
    refine forall₂_congr fun w _ => ⟨fun hno d hd hw => ?_, ?_⟩
    · by_contra hup
      exact hno ⟨d, hd, by simpa using hup, hw⟩
    · rintro hno ⟨d, hd, hup, hw⟩
      rw [hno d hd hw] at hup
      cases hup
  | up id =>
    obtain ⟨dev, hf, -, rfl⟩ := rtnlStep_up hstep
    obtain ⟨hm, rfl⟩ := findNetdev_mem hf
    rw [(does_devOpen h.ok hf).view]
    exact iff_of_true (Registry.covered_up h.sound hcov hm) trivial
  | down id =>
    obtain ⟨dev, hf, hup, rfl⟩ := rtnlStep_down hstep
    obtain ⟨hm, rfl⟩ := findNetdev_mem hf
    rw [(does_devClose h.ok hf).view, Registry.covered_down_iff h.sound hcov hm hup]
    exact vifs_view h.ok (some dev.id) fun w => ∀ d ∈ s.netdevs, d.id ≠ dev.id → d.wiphy = some w → d.up = false
  | unregister id =>
    obtain ⟨dev, hf, hdown, rfl⟩ := rtnlStep_unregister hstep
    obtain ⟨hm, -⟩ := findNetdev_mem hf
    rw [(does_unregisterNetdevice dev h.ok).view]
    exact iff_of_true (Registry.covered_unregister h.sound hcov hm hdown) trivial

/-- Over a run of events that starts right, every state is right if and only if every event meets its condition. -/
theorem hasVif_steps_iff (steps : List RtnlStep) (he : ∀ a ∈ steps, a.IsEvent) (hs : s.Safe) (hv : s.HasVif) :
    EveryState Kernel.HasVif steps s ↔ EveryStep EventOk steps s :=
  everyState_iff_everyStep RtnlStep.IsEvent (fun hs hv ha h => hasVif_step_iff hs hv ha h) steps he hs hv

/-- **A card has a VIF whenever one exists**, in every state that events reach from the scan of the initialisation, if
and only if the scan and every event meet their conditions. -/
theorem hasVif_iff (netdevs : List NetDev) (hids : (netdevs.map (·.id)).Nodup)
    (priv : (w : WiphyId) → Option (Local w)) (init events : List RtnlStep) (he : ∀ a ∈ events, a.IsEvent)
    (hinit : rtnlSteps init (Kernel.load netdevs priv) = some s) :
    EveryState Kernel.HasVif events (tsfPtpScanExistingVifs.run s).2 ↔
      ScanOk s ∧ EveryStep EventOk events (tsfPtpScanExistingVifs.run s).2 := by
  have hs := rtnlSteps_safe init (safe_load hids priv) hinit
  have hscan := hasVif_scan_iff hs
  constructor
  · intro hall
    have hv : (tsfPtpScanExistingVifs.run s).2.HasVif := by
      cases events with
      | nil => exact hall
      | cons a events => exact hall.1
    exact ⟨hscan.mp hv, (hasVif_steps_iff events he (safe_scan hs) hv).mp hall⟩
  · rintro ⟨hok, hall⟩
    exact (hasVif_steps_iff events he (safe_scan hs) (hscan.mpr hok)).mpr hall

/-- Two devices of one wiphy are up and the one that was not captured goes down. -/
theorem hasVif_iff_run : ∃ s, rtnlSteps [.registerNotifier .accepts, .discover .accepts]
    (.load [.wlan 0 0 7 true, .wlan 1 0 7 true] fun w => some (.both w)) = some s ∧
    EveryState Kernel.HasVif [.down 1] (tsfPtpScanExistingVifs.run s).2 := by
  refine ⟨_, rfl, ?_⟩
  refine (hasVif_iff [.wlan 0 0 7 true, .wlan 1 0 7 true] (by decide) (fun w => some (.both w))
    [.registerNotifier .accepts, .discover .accepts] [.down 1] (by simp [RtnlStep.IsEvent]) rfl).mpr ⟨?_, ?_⟩
  · intro c hc hv
    obtain rfl : c = .card 0 := List.mem_singleton.mp hc
    cases hv
  · refine fun s' _ => ⟨fun c hc hv => ?_, trivial⟩
    obtain rfl : c = .card 0 := List.mem_singleton.mp hc
    cases hv

/-- Two devices of one wiphy are up and the captured one goes down: the card is left without a VIF. -/
theorem sibling_up_counterexample : ∃ s, rtnlSteps [.registerNotifier .accepts, .discover .accepts]
    (.load [.wlan 0 0 7 true, .wlan 1 0 7 true] fun w => some (.both w)) = some s ∧
    ¬EveryState Kernel.HasVif [.down 0] (tsfPtpScanExistingVifs.run s).2 := by
  refine ⟨_, rfl, fun h => ?_⟩
  have hv := (h.2 _ rfl (.card 0) List.mem_cons_self).mpr ⟨.wlan 1 0 7 true, by decide, rfl, rfl⟩
  cases hv

end TsfSync
