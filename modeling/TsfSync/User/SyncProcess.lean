import TsfSync.Lib.Children
import TsfSync.User.Daemon

/-!
# The processes of Mode A

`SyncProcess` of `src/ptp4l.rs` over the children of the daemon: `is_running` collects the exit status of a child that has
ended, `stop` signals it by number, and `drop` stops it if it is running. After `stop`, and after `drop`, the child has
ended, whatever it does with a SIGTERM (`stop_ended`, `drop_ended`). A daemon that starts processes on a machine does it
with its table of children (`Host.withChildren`).
-/

namespace TsfSync.User

open TsfSync Children

namespace SyncProcess

variable (child : Pid)

/-- `is_running`. -/
def isRunning (t : Table) : Bool × Table := (!(t.tryWait child).1, (t.tryWait child).2)

/-- The rounds of `stop`, each with a sleep of 100 ms if the child has not ended; has it in one of them? -/
def awaitExit : Nat → Table → Bool × Table
  | 0, t => (false, t)
  | n + 1, t => if (t.tryWait child).1 then (true, (t.tryWait child).2) else awaitExit n (t.tryWait child).2.tick

/-- `stop`. -/
def stop (t : Table) : Table :=
  let (exited, t) := awaitExit child 50 (t.term child)
  if exited then t else (t.kill child).wait child

/-- `drop`. -/
def drop (t : Table) : Table :=
  let (running, t) := isRunning child t
  if running then stop child t else t

/-! ## Specifications -/

variable {child : Pid} {t : Table}

/-- The rounds collect the child and do nothing else. -/
theorem touches_awaitExit (n : Nat) (t : Table) :
    Touches child t (awaitExit child n t).2 ∧ (awaitExit child n t).2.terms = t.terms := by
  induction n generalizing t with
  | zero => exact ⟨⟨Nat.le_refl _, rfl, fun _ _ => rfl⟩, rfl⟩
  | succ n ih =>
    unfold awaitExit
    split
    · exact ⟨touches_tryWait t _, terms_tryWait t _⟩
    · obtain ⟨htouch, hterms⟩ := ih (t.tryWait child).2.tick
      exact ⟨((touches_tryWait t _).trans (touches_tick _)).trans htouch, hterms.trans (terms_tryWait t _)⟩

/-- If the child has ended in one of the rounds, its status has been collected. -/
theorem awaitExit_spec (n : Nat) (hs : t.Sound child) : (awaitExit child n t).2.Sound child ∧
    ((awaitExit child n t).1 = true → ((awaitExit child n t).2.child child).reaped = true) := by
  induction n generalizing t with
  | zero => exact ⟨hs, fun h => by cases h⟩
  | succ n ih =>
    unfold awaitExit
    split
    · rename_i hw
      obtain ⟨hreaped, hended⟩ := tryWait_true hs hw
      exact ⟨fun _ => hended, fun _ => hreaped⟩
    · rename_i hw
      obtain ⟨hreaped, htick⟩ := tryWait_false (Bool.eq_false_iff.mpr hw)
      rw [htick]
      exact ih (sound_of_not_reaped hreaped)

/-- `stop` touches only its own child, and signals it whether it has been collected or not. -/
theorem touches_stop (child : Pid) (t : Table) :
    Touches child t (stop child t) ∧ (stop child t).terms = t.terms ++ [(child, !(t.child child).reaped)] := by
  obtain ⟨htouch, hterms⟩ := touches_awaitExit 50 (t.term child)
  have htouch := (touches_term t child).trans htouch
  have hterms := hterms.trans (terms_term t child)
  unfold stop
  dsimp only
  split
  · exact ⟨htouch, hterms⟩
  · exact ⟨(htouch.trans (touches_kill _ _)).trans (touches_wait _ _), (terms_kill _ _).trans hterms⟩

/-- After `stop` the child has been collected, and it has ended. -/
theorem stop_ended (hs : t.Sound child) :
    ((stop child t).child child).reaped = true ∧ (stop child t).Ended child := by
  obtain ⟨hsound, hexited⟩ := awaitExit_spec 50 (sound_term hs)
  unfold stop
  dsimp only
  split
  · rename_i hexit
    exact ⟨hexited hexit, hsound (hexited hexit)⟩
  · exact wait_spec (ended_kill hsound)

/-- `drop` touches only its own child, and signals it only if it has not been collected. -/
theorem touches_drop (child : Pid) (t : Table) : Touches child t (drop child t) ∧
    ((drop child t).terms = t.terms ∨
      (t.child child).reaped = false ∧ (drop child t).terms = t.terms ++ [(child, true)]) := by
  unfold drop isRunning
  dsimp only
  split
  · rename_i hrunning
    obtain ⟨hreaped, htick⟩ := tryWait_false (by simpa using hrunning)
    obtain ⟨htouch, hterms⟩ := touches_stop child t.tick
    rw [htick]
    refine ⟨(touches_tick t).trans htouch, Or.inr ⟨hreaped, ?_⟩⟩
    rw [hterms, show (t.tick.child child).reaped = false from hreaped]
    rfl
  · exact ⟨touches_tryWait t _, Or.inl (terms_tryWait t _)⟩

/-- After `drop` the child has ended. -/
theorem drop_ended (hs : t.Sound child) : (drop child t).Ended child := by
  unfold drop isRunning
  dsimp only
  split
  · rename_i hrunning
    obtain ⟨hreaped, htick⟩ := tryWait_false (by simpa using hrunning)
    rw [htick]
    exact (stop_ended (t := t.tick) (sound_of_not_reaped hreaped)).2
  · rename_i hrunning
    exact (tryWait_true hs (by simpa using hrunning)).2

/-! ## Dropping processes -/

/-- Drop children one after another. -/
def dropEach (children : List Pid) (t : Table) : Table := children.foldl (fun t child => drop child t) t

theorem count_dropEach (children : List Pid) (t : Table) : (dropEach children t).count = t.count := by
  induction children generalizing t with
  | nil => rfl
  | cons first rest ih => exact (ih (drop first t)).trans (touches_drop first t).1.count

/-- A child that is dropped, or has ended before, has ended. -/
theorem ended_dropEach {children : List Pid} (hs : t.Sound child) (h : child ∈ children ∨ t.Ended child) :
    (dropEach children t).Ended child := by
  induction children generalizing t with
  | nil => exact h.resolve_left List.not_mem_nil
  | cons first rest ih =>
    by_cases hfirst : child = first
    · subst hfirst
      have hended := drop_ended hs
      exact ih (fun _ => hended) (Or.inr hended)
    · have htouch := (touches_drop first t).1
      refine ih (htouch.sound hfirst hs) ?_
      rcases h with hmem | hended
      · exact Or.inl ((List.mem_cons.mp hmem).resolve_left hfirst)
      · exact Or.inr (htouch.ended hfirst hended)

/-- Every signal that is sent while children are dropped goes to a child of the daemon. -/
theorem terms_dropEach (children : List Pid) (t : Table) :
    ∃ sent, (dropEach children t).terms = t.terms ++ sent ∧ ∀ signal ∈ sent, signal.2 = true := by
  induction children generalizing t with
  | nil => exact ⟨[], (List.append_nil _).symm, fun _ h => by cases h⟩
  | cons first rest ih =>
    obtain ⟨sent, hterms, hown⟩ := ih (drop first t)
    rcases (touches_drop first t).2 with hfirst | ⟨-, hfirst⟩
    · exact ⟨sent, hfirst ▸ hterms, hown⟩
    · refine ⟨(first, true) :: sent, ?_, fun signal hsignal => ?_⟩
      · show (dropEach rest (drop first t)).terms = _
        rw [hterms, hfirst, List.append_assoc]
        rfl
      · rcases List.mem_cons.mp hsignal with rfl | hrest
        · rfl
        · exact hown signal hrest

end SyncProcess

/-! ## A machine with the children of the daemon -/

/-- The machine of a daemon that starts processes: a machine, and a table of the children, whose lives are `lives`. A
`SyncProcess` has the number of its child in the table. -/
def Host.withChildren {W : Type} (h : Host W) (lives : Pid → W → Child) : Host (W × Table) where
  sysfs := fun w => h.sysfs w.1
  procModules := fun w => h.procModules w.1
  module := fun w => h.module w.1
  modprobe := fun args w => ((h.modprobe args w.1).1, (h.modprobe args w.1).2, w.2)
  insmod := fun args w => ((h.insmod args w.1).1, (h.insmod args w.1).2, w.2)
  koExists := fun w => h.koExists w.1
  sleep := fun w => (h.sleep w.1, w.2.tick)
  spawn := fun bin args w =>
    match h.spawn bin args w.1 with
    | (.ok pid, w') => (.ok w.2.count, w', w.2.spawn (lives pid w'))
    | (.error e, w') => (.error e, w', w.2.tick)
  dropProcess := fun child w => (h.dropProcess child w.1, SyncProcess.drop child w.2)
  findPrimaryIndex := fun phy w => ((h.findPrimaryIndex phy w.1).1, (h.findPrimaryIndex phy w.1).2, w.2)

end TsfSync.User
