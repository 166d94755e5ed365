import Mathlib.Data.List.Range
import TsfSync.User.SyncProcess

/-!
# The processes that a start leaves

A start numbers the processes it starts one after another from the number of children there were, and collects none of
them (`Started`). Wherever it fails, the processes it has started are dropped on the way out, so that all of them have
ended (`CleanedUp`); every SIGTERM it sends goes to a child of its own (`start_processes`).
-/

namespace TsfSync

open User User.DaemonM Children SyncProcess FailingRun

/-! ## Starting processes -/

/-- The processes of a sync state. -/
def User.SyncState.processes : SyncState → List SyncProcess
  | .phc2sys processes => processes
  | .kernel => []
  | .ioUring .. => []

/-- Some processes have been started since `before`: they are the new children, none has been collected, and nothing has
been signalled. -/
structure Started (before : Table) (processes : List SyncProcess) (t : Table) : Prop where
  children : processes.map (·.child) = List.range' before.count processes.length
  count : t.count = before.count + processes.length
  reaped : ∀ i, before.count ≤ i → i < t.count → (t.child i).reaped = false
  terms : t.terms = before.terms

/-- Every child that has been started since `before` has ended, and what has been signalled was a child. -/
structure CleanedUp (before t : Table) : Prop where
  ended : ∀ i, before.count ≤ i → i < t.count → t.Ended i
  terms : ∃ sent, t.terms = before.terms ++ sent ∧ ∀ signal ∈ sent, signal.2 = true

section Started

variable {before t : Table} {processes : List SyncProcess}

theorem Started.refl (before : Table) : Started before [] before where
  children := rfl
  count := rfl
  reaped := fun _ hle hlt => absurd hle (Nat.not_le.mpr hlt)
  terms := rfl

theorem Started.tick (h : Started before processes t) : Started before processes t.tick := ⟨h.1, h.2, h.3, h.4⟩

theorem Started.cleanedUp (h : Started before [] t) : CleanedUp before t where
  ended := fun _ hle hlt => absurd hle (Nat.not_le.mpr (hlt.trans_eq h.count))
  terms := ⟨[], h.terms.trans (List.append_nil _).symm, fun _ hsignal => by cases hsignal⟩

/-- One more process. -/
theorem Started.spawn (h : Started before processes t) (c : Child) (name : Str) :
    Started before (processes ++ [⟨t.count, name⟩]) (t.spawn c) where
  children := by
    rw [List.map_append, h.children, List.length_append, List.length_singleton, List.range'_1_concat, h.count]
    rfl
  count := by
    rw [List.length_append, List.length_singleton, ← Nat.add_assoc, ← h.count]
    rfl
  reaped := fun i hle hlt => by
    by_cases hi : i = t.count
    · subst hi
      rw [child_spawn]
    · rw [child_spawn_ne c hi]
      have hlt : i < t.count + 1 := hlt
      exact h.reaped i hle (by omega)
  terms := h.terms

/-- Dropping the processes ends every new child. -/
theorem Started.dropEach (h : Started before processes t) : CleanedUp before (dropEach (processes.map (·.child)) t) where
  ended := fun i hle hlt => by
    rw [count_dropEach] at hlt
    refine ended_dropEach (sound_of_not_reaped (h.reaped i hle hlt)) (Or.inl ?_)
    rw [h.children, List.mem_range'_1]
    exact ⟨hle, h.count ▸ hlt⟩
  terms := h.terms ▸ terms_dropEach _ t

end Started

/-! ## A start -/

section Start

variable {W : Type} {h : Host W} {lives : Pid → W → Child} {before : Table} {E : Daemon (W × Table) → Prop}

/-- `load_tsf_ptp` keeps what the two commands keep. -/
theorem loadTsfPtp_keeps {P : W → Prop} (hmodprobe : ∀ args w, P w → P (h.modprobe args w).2)
    (hinsmod : ∀ args w, P w → P (h.insmod args w).2) (thr : UInt64) (mode : SyncMode) (primary : Option Str)
    (interval : Option UInt32) {w : W} (hw : P w) : P (h.loadTsfPtp thr mode primary interval w).2 := by
  have hfallback : ∀ args w, P w → P (if h.koExists w then
      (Host.commandResult (h.insmod args w).1, (h.insmod args w).2)
      else (.error (.modprobe (utf8 "tsf_ptp module not found via modprobe or at kernel/tsf_ptp.ko")), w)).2 := by
    intro args w hw
    split
    · exact hinsmod args w hw
    · exact hw
  unfold Host.loadTsfPtp
  split
  · exact hw
  · exact hw
  · dsimp only
    have hafter := hmodprobe (Host.loadParams thr mode primary interval) w hw
    rcases hout : h.modprobe (Host.loadParams thr mode primary interval) w with ⟨e | stderr | u, w'⟩ <;>
      rw [hout] at hafter
    · exact hfallback _ w' hafter
    · exact hfallback _ w' hafter
    · exact hafter

/-- Up to the second discovery no process is started. -/
theorem prepare_processes (o : StartOptions) :
    Ensures (fun d => Started before [] d.world.2) ((h.withChildren lives).prepare o)
      (fun _ d => Started before [] d.world.2) (fun d => CleanedUp before d.world.2) := by
  unfold Host.prepare
  refine Ensures.bind (Q := fun _ d => Started before [] d.world.2) (ensures_look fun _ hd => hd) fun cards => ?_
  refine Ensures.bind (Q := fun _ d => Started before [] d.world.2)
    (ensures_orFail (fun _ _ hd => hd) fun _ hd => hd.cleanedUp) fun cards => ?_
  unfold Host.loadIfNeeded
  split
  · refine Ensures.bind (Q := fun _ d => Started before [] d.world.2)
      (ensures_act fun d hd => loadTsfPtp_keeps (P := fun w : W × Table => Started before [] w.2) (fun _ _ hw => hw)
        (fun _ _ hw => hw) _ _ _ _ hd) fun loaded => ?_
    refine Ensures.bind (Q := fun _ d => Started before [] d.world.2)
      (ensures_orFail (fun _ _ hd => hd) fun _ hd => hd.cleanedUp) fun _ => ?_
    exact ensures_act fun d hd => hd.tick
  · exact ensures_pure fun _ hd => hd

/-- The start of one process. -/
theorem startPhc2sys_processes (primaryClock secondaryClock bin : Str) (processes : List SyncProcess) :
    Ensures (fun d => Started before processes d.world.2)
      ((h.withChildren lives).startPhc2sys primaryClock secondaryClock bin)
      (fun r d => Started before (processes ++ r.toOption.toList) d.world.2) E := by
  unfold Host.startPhc2sys Host.spawnProcess
  refine Ensures.bind (Q := fun _ d => Started before processes d.world.2) (ensures_info fun _ hd => hd) fun _ => ?_
  refine Ensures.bind (Q := fun r d => ∀ name,
    Started before (processes ++ (r.toOption.map fun pid => ⟨pid, name⟩).toList) d.world.2)
    (ensures_act fun d hd name => ?_) fun r => ?_
  · unfold Host.withChildren
    dsimp only
    rcases h.spawn bin (Host.phc2sysArgs primaryClock secondaryClock) d.world.1 with ⟨e | pid, w'⟩
    · exact (List.append_nil processes).symm ▸ hd.tick
    · exact hd.spawn _ name
  · cases r with
    | ok pid => exact ensures_pure fun _ hd => hd _
    | error e => exact ensures_pure fun _ hd => hd []

/-- Dropping a `Vec` of processes drops their children one after another. -/
theorem dropAll_children (processes : List SyncProcess) (w : W × Table) :
    (processes.foldl (fun w p => (h.withChildren lives).dropProcess p.child w) w).2 =
      dropEach (processes.map (·.child)) w.2 := by
  induction processes generalizing w with
  | nil => rfl
  | cons p rest ih => exact ih _

/-- The loop of Mode A starts processes, and drops them all if it fails. -/
theorem startAll_processes (bin : Str) (primary : WifiCard) (cards : List WifiCard) (processes : List SyncProcess) :
    Ensures (fun d => Started before processes d.world.2) ((h.withChildren lives).startAll bin primary cards processes)
      (fun processes d => Started before processes d.world.2) (fun d => CleanedUp before d.world.2) := by
  induction cards generalizing processes with
  | nil => exact ensures_pure fun _ hd => hd
  | cons card cards ih =>
    unfold Host.startAll
    split
    · exact ih processes
    · refine Ensures.bind (startPhc2sys_processes _ _ _ processes) fun r => ?_
      cases r with
      | ok proc => exact ih (processes ++ [proc])
      | error e =>
        refine Ensures.bind (Q := fun _ d => CleanedUp before d.world.2) (ensures_act fun d hd => ?_) fun _ => ?_
        · have hstarted : Started before (processes ++ []) d.world.2 := hd
          rw [List.append_nil] at hstarted
          show CleanedUp before (processes.foldl _ d.world).2
          rw [dropAll_children]
          exact hstarted.dropEach
        · exact ensures_throw fun _ hd => hd

/-- **The processes of a start**: those it has started if it succeeds, none that is still running if it fails. -/
theorem start_processes (h : Host W) (lives : Pid → W → Child) (o : StartOptions) (before : Table) :
    Ensures (fun d => Started before [] d.world.2) ((h.withChildren lives).start o)
      (fun state d => Started before state.processes d.world.2) (fun d => CleanedUp before d.world.2) := by
  unfold Host.start
  refine Ensures.bind (prepare_processes o) fun _ => ?_
  refine Ensures.bind (Q := fun _ d => Started before [] d.world.2) (ensures_look fun _ hd => hd) fun cards => ?_
  refine Ensures.bind (Q := fun _ d => Started before [] d.world.2)
    (ensures_orFail (fun _ _ hd => hd) fun _ hd => hd.cleanedUp) fun cards => ?_
  unfold Host.startSync
  dsimp only
  split
  · exact ensures_throw fun _ hd => hd.cleanedUp
  refine Ensures.bind (Q := fun _ d => Started before [] d.world.2)
    (ensures_orFail (fun _ _ hd => hd) fun _ hd => hd.cleanedUp) fun card => ?_
  refine Ensures.bind (Q := fun _ d => Started before [] d.world.2) (ensures_info fun _ hd => hd) fun _ => ?_
  unfold Host.startMode
  cases o.syncMode with
  | ptp => exact Ensures.bind (startAll_processes _ _ _ []) fun _ => ensures_pure fun _ hd => hd
  | kernel => exact ensures_pure fun _ hd => hd
  | iouring =>
    dsimp only
    split
    · refine Ensures.bind (Q := fun _ d => Started before [] d.world.2) (ensures_act fun _ hd => hd) fun _ => ?_
      refine Ensures.bind (Q := fun _ d => Started before [] d.world.2)
        (ensures_orFail (fun _ _ hd => hd) fun _ hd => hd.cleanedUp) fun _ => ?_
      exact ensures_pure fun _ hd => hd
    · exact ensures_throw fun _ hd => hd.cleanedUp

end Start

end TsfSync
