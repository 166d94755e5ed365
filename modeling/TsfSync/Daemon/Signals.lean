import TsfSync.Daemon.Processes
import TsfSync.Daemon.ModeB
import TsfSync.User.RunDaemon

/-!
# Does the daemon signal only its own children?

The checks of the loop collect a child that has ended, and its number is free from then on. `drop` asks whether the child
is running before it sends a SIGTERM; `stop` does not ask. So every SIGTERM of a run goes to a child of the daemon exactly
when no child has ended by one of its checks (`signalsOwn_iff`).
-/

namespace TsfSync

open User User.DaemonM Children SyncProcess FailingRun

/-! ## The loop -/

section Loop

variable {child : Nat}

/-- A round of checks takes a step of time for each child, and collects those that have ended by their check. -/
theorem checkEach_spec (first number : Nat) (t : Table) :
    (checkEach (List.range' first number) t).now = t.now + number ∧
    (checkEach (List.range' first number) t).count = t.count ∧
    (checkEach (List.range' first number) t).terms = t.terms ∧
    ∀ child, (checkEach (List.range' first number) t).child child =
      if first ≤ child ∧ child < first + number then (t.child child).collect (t.now + (child - first))
      else t.child child := by
  induction number generalizing first t with
  | zero => exact ⟨rfl, rfl, rfl, fun child => (if_neg (by omega)).symm⟩
  | succ number ih =>
    obtain ⟨hnow, hcount, hterms, hchild⟩ := ih (first + 1) (t.tryWait first).2
    have htouch := touches_tryWait t first
    rw [List.range'_succ]
    refine ⟨hnow.trans ?_, hcount.trans htouch.count, hterms.trans (terms_tryWait t first), fun child => ?_⟩
    · rw [now_tryWait]
      omega
    · refine (hchild child).trans ?_
      by_cases hfirst : child = first
      · subst hfirst
        rw [if_neg (by omega), if_pos (by omega), child_tryWait, Nat.sub_self, Nat.add_zero]
      · rw [htouch.others child hfirst, now_tryWait]
        by_cases hin : first + 1 ≤ child ∧ child < first + 1 + number
        · rw [if_pos hin, if_pos (by omega), show t.now + 1 + (child - (first + 1)) = t.now + (child - first) by omega]
        · rw [if_neg hin, if_neg (by omega)]

theorem check_eq (state : SyncState) (t : Table) : state.check t = checkEach (state.processes.map (·.child)) t := by
  cases state <;> rfl

theorem stopProcesses_eq (state : SyncState) (t : Table) :
    state.stopProcesses t = dropEach (state.processes.map (·.child)) (stopEach (state.processes.map (·.child)) t) := by
  cases state <;> rfl

/-- The checks signal nobody. -/
theorem terms_monitor {state : SyncState} {number : Nat} (hs : state.processes.map (·.child) = List.range' 0 number)
    (rounds : Nat) (t : Table) : (state.monitor rounds t).terms = t.terms := by
  induction rounds generalizing t with
  | zero => rfl
  | succ rounds ih =>
    refine (ih _).trans ?_
    rw [check_eq, hs]
    exact (checkEach_spec 0 number t.tick).2.2.1

/-- A child has been collected when its checks are over exactly if it had been, or if it has ended by one of them. -/
theorem reaped_monitor {state : SyncState} {number : Nat} (hs : state.processes.map (·.child) = List.range' 0 number)
    (rounds : Nat) (t : Table) (hchild : child < number) :
    ((state.monitor rounds t).child child).reaped = true ↔ (t.child child).reaped = true ∨
      ∃ round < rounds, (t.child child).ended (t.now + round * (number + 1) + 1 + child) = true := by
  induction rounds generalizing t with
  | zero =>
    refine (or_iff_left ?_).symm
    rintro ⟨round, hlt, -⟩
    exact absurd hlt (Nat.not_lt_zero round)
  | succ rounds ih =>
    obtain ⟨hnow, -, -, hspec⟩ := checkEach_spec 0 number t.tick
    have hself := hspec child
    rw [if_pos ⟨Nat.zero_le _, by omega⟩] at hself
    refine (ih (state.check t.tick)).trans ?_
    rw [check_eq, hs, hnow, hself, Nat.exists_lt_succ_left, ← or_assoc]
    refine or_congr ?_ (exists_congr fun round => and_congr_right fun _ => ?_)
    · show (_ || _) = true ↔ _
      rw [Bool.or_eq_true, Nat.zero_mul]
      rfl
    · have htime : t.tick.now + number + round * (number + 1) + 1 + child =
          t.now + (round + 1) * (number + 1) + 1 + child := by
        rw [Nat.add_mul, show t.tick.now = t.now + 1 from rfl]
        omega
      rw [htime]
      rfl

/-- `stop` signals each child, with a number that is its own if it has not been collected. -/
theorem terms_stopEach {children : List Pid} (hnodup : children.Nodup) (t : Table) :
    (stopEach children t).terms = t.terms ++ children.map fun child => (child, !(t.child child).reaped) := by
  induction children generalizing t with
  | nil => exact (List.append_nil _).symm
  | cons first rest ih =>
    obtain ⟨hfirst, hrest⟩ := List.nodup_cons.mp hnodup
    obtain ⟨htouch, hterms⟩ := touches_stop first t
    have hkept : rest.map (fun child => (child, !((stop first t).child child).reaped)) =
        rest.map fun child => (child, !(t.child child).reaped) :=
      List.map_congr_left fun child hchild => by rw [htouch.others child fun heq => hfirst (heq ▸ hchild)]
    refine (ih hrest (stop first t)).trans ?_
    rw [hterms, hkept, List.append_assoc]
    rfl

end Loop

/-! ## Whole runs -/

/-- **The daemon signals only its own children**: at each SIGTERM the number was still that of the child. -/
def SignalsOwn (t : Table) : Prop := ∀ signal ∈ t.terms, signal.2 = true

/-- No child ends by one of its checks: the check of a child in a round comes after the earlier rounds, the sleep of the
round and the checks of the children before it. -/
def OutlivesChecks (rounds : Nat) (t : Table) : Prop :=
  ∀ child < t.count, ∀ round < rounds, (t.child child).ended (t.now + round * (t.count + 1) + 1 + child) = false

section Run

variable {W : Type} {h : Host W} {lives : Pid → W → Child} {rmmod : W → CommandOutput × W} {o : StartOptions}
  {rounds : Nat} {asleep : Bool} {d d₁ : Daemon (W × Table)}

/-- A run whose start fails is that start. -/
theorem runDaemon_error {e : DaemonError} (hs : (h.withChildren lives).start o d = (.error e, d₁)) :
    h.runDaemon lives rmmod o rounds asleep d = (.error e, d₁) := by
  unfold Host.runDaemon
  exact bind_error hs

/-- The children at the end of a run whose start succeeds. -/
theorem runDaemon_ok {state : SyncState} (hs : (h.withChildren lives).start o d = (.ok state, d₁)) :
    (h.runDaemon lives rmmod o rounds asleep d).2.world.2 = state.stopProcesses
      (if asleep then (state.monitor rounds d₁.world.2).tick else state.monitor rounds d₁.world.2) := by
  unfold Host.runDaemon Host.stop
  rw [bind_ok hs, act_bind, act_bind, act_bind, act_bind]
  cases (h.unloadTsfPtp rmmod d₁.world.1).1 <;> rfl

/-- Children that had not been collected have not been by the checks exactly if they outlive them. -/
theorem outlivesChecks_iff {state : SyncState} {t : Table}
    (hs : state.processes.map (·.child) = List.range' 0 t.count)
    (hreaped : ∀ child < t.count, (t.child child).reaped = false) :
    (∀ child < t.count, ((state.monitor rounds t).child child).reaped = false) ↔ OutlivesChecks rounds t := by
  refine forall₂_congr fun child hlt => ?_
  have hmonitor := reaped_monitor hs rounds t hlt
  rw [hreaped child hlt, or_iff_right Bool.false_ne_true] at hmonitor
  rw [← Bool.not_eq_true, hmonitor]
  push Not
  exact forall₂_congr fun _ _ => Bool.eq_false_iff.symm

/-- What is signalled when children are stopped that have not been signalled. -/
theorem signalsOwn_stopProcesses {state : SyncState} {number : Nat}
    (hs : state.processes.map (·.child) = List.range' 0 number) {t : Table} (hterms : t.terms = []) :
    SignalsOwn (state.stopProcesses t) ↔ ∀ child < number, (t.child child).reaped = false := by
  have hstopped := terms_stopEach (List.nodup_range' (s := 0) (n := number)) t
  obtain ⟨sent, hdropped, hown⟩ := terms_dropEach (List.range' 0 number) (stopEach (List.range' 0 number) t)
  rw [hterms, List.nil_append] at hstopped
  rw [stopProcesses_eq, hs, SignalsOwn, hdropped, hstopped]
  constructor
  · intro hall child hchild
    have hmem : (child, !(t.child child).reaped) ∈
        (List.range' 0 number).map fun child => (child, !(t.child child).reaped) :=
      List.mem_map_of_mem (List.mem_range'_1.mpr ⟨Nat.zero_le _, by omega⟩)
    have := hall _ (List.mem_append_left _ hmem)
    simpa using this
  · intro hall signal hsignal
    rcases List.mem_append.mp hsignal with hstop | hdrop
    · obtain ⟨child, hchild, rfl⟩ := List.mem_map.mp hstop
      have hlt := (List.mem_range'_1.mp hchild).2
      simpa using hall child (by omega)
    · exact hown signal hdrop

end Run

/-- **A run signals only children of the daemon exactly when the processes it starts outlive their checks.** -/
theorem signalsOwn_iff {W : Type} (h : Host W) (lives : Pid → W → Child) (rmmod : W → CommandOutput × W)
    (o : StartOptions) (rounds : Nat) (asleep : Bool) (w : W) :
    SignalsOwn (h.runDaemon lives rmmod o rounds asleep ⟨(w, .empty), []⟩).2.world.2 ↔
      ∀ state d₁, (h.withChildren lives).start o ⟨(w, .empty), []⟩ = (.ok state, d₁) →
        OutlivesChecks rounds d₁.world.2 := by
  have hstart := start_processes h lives o .empty ⟨(w, .empty), []⟩ (Started.refl .empty)
  rcases hs : (h.withChildren lives).start o ⟨(w, .empty), []⟩ with ⟨e | state, d₁⟩
  · obtain ⟨sent, hterms, hown⟩ := (hstart.2 e d₁ hs).terms
    refine iff_of_true ?_ fun state d hd => by cases hd
    rw [runDaemon_error hs, SignalsOwn, hterms]
    exact hown
  · have hstarted := hstart.1 state d₁ hs
    have hchildren : state.processes.map (·.child) = List.range' 0 d₁.world.2.count := by
      rw [hstarted.children, hstarted.count]
      show _ = List.range' 0 (0 + _)
      rw [Nat.zero_add]
      rfl
    have hmonitored : ∀ asleep : Bool, (if asleep then (state.monitor rounds d₁.world.2).tick
        else state.monitor rounds d₁.world.2).terms = [] := fun asleep => by
      cases asleep <;> exact (terms_monitor hchildren rounds _).trans hstarted.terms
    have hreaped : ∀ child, ((if asleep then (state.monitor rounds d₁.world.2).tick
        else state.monitor rounds d₁.world.2).child child).reaped =
        ((state.monitor rounds d₁.world.2).child child).reaped := fun child => by cases asleep <;> rfl
    rw [runDaemon_ok hs, signalsOwn_stopProcesses hchildren (hmonitored asleep)]
    simp only [hreaped]
    constructor
    · intro hall state' d' hd
      cases hd
      exact (outlivesChecks_iff hchildren fun child => hstarted.reaped child (Nat.zero_le child)).mp hall
    · intro hall
      exact (outlivesChecks_iff hchildren fun child => hstarted.reaped child (Nat.zero_le child)).mpr (hall state d₁ rfl)

/-! ## A run -/

/-- A start for Mode A. -/
def StartOptions.ptp : StartOptions := ⟨auto, utf8 "phc2sys", 5000, .ptp, 10, false⟩

/-- The process ends at once, the first check collects it, and `stop` sends a SIGTERM to its number. -/
theorem signalsOwn_counterexample : ¬SignalsOwn (Host.twoRadios.runDaemon (fun _ _ => ⟨some 0, none, false⟩)
    (fun _ => (.ok (.ok ()), none)) StartOptions.ptp 1 false
    ⟨(some (Module.loadTwo .default), .empty), []⟩).2.world.2 := by
  intro hown
  have hterms : (Host.twoRadios.runDaemon (fun _ _ => ⟨some 0, none, false⟩) (fun _ => (.ok (.ok ()), none))
      StartOptions.ptp 1 false ⟨(some (Module.loadTwo .default), .empty), []⟩).2.world.2.terms = [(0, false)] := rfl
  rw [SignalsOwn, hterms] at hown
  cases hown (0, false) (List.mem_singleton.mpr rfl)

end TsfSync
