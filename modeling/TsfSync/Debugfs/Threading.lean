import Mathlib.Data.List.FinRange
import TsfSync.Debugfs.Stats
import TsfSync.Lib.Barrier

/-!
# The sync loops of `tsf-sync-debugfs`

`run_single` and `run_parallel` of `threading.rs` for `n` followers. What the debugfs files answer is given for each
cycle (`Files`); a write is what the loop gives to `write_tsf`, whose result it ignores. `run_single` goes through its
loop one cycle after the other (`Single`). In `run_parallel` the sampler, the workers and the signal handler take steps
in any order (`Parallel`); each step has at most one access to `RUNNING`, the shared `AtomicU64` or a barrier. The
deadlines and sleeps, which only delay a step, are left out; `Paced` adds those of `run_single`.
-/

namespace TsfSync.Debugfs

open Function CyclicBarrier

/-- What the reads of the master and of the followers give in each cycle, and the options about statistics. -/
structure Files (n : Nat) where
  master : Nat → Option UInt64
  follower : Fin n → Nat → Option UInt64
  statsIntervalCycles : UInt64
  rmsWarnUs : UInt64

/-- What a correction leaves: the controller, the TSF written to the follower, and the `(step, err)` returned. -/
structure Corrected (F : Type) where
  controller : Controller F
  written : Option UInt64
  result : Option (Int64 × Int64)

variable {F : Type} [F64 F] {n : Nat}

/-- `correct_follower`, given what the read of the follower gives; none if it panics. -/
def correctFollower (read : Option UInt64) (controller : Controller F) (masterTsf : UInt64) : Option (Corrected F) :=
  match read with
  | none => some ⟨controller, none, none⟩
  | some followerTsf =>
    match controller.apply masterTsf followerTsf with
    | none => none
    | some (controller, step, err) =>
      some ⟨controller, some (followerTsf.toInt64 + step).toUInt64, some (step, err)⟩

/-! ## One thread -/

/-- `run_single` at the head of its loop; `written` is what its last cycle wrote to each follower. -/
structure Single (F : Type) (n : Nat) where
  controllers : Fin n → Controller F
  stats : WelfordStats F
  cycle : UInt64
  lines : List (Line F)
  written : Fin n → Option UInt64
  panicked : Bool

namespace Single

/-- `run_single` before its first cycle. -/
def start (controllers : Fin n → Controller F) : Single F n := ⟨controllers, .new, 0, [], fun _ => none, false⟩

/-- The body of the loop over the followers. -/
def correct (reads : Fin n → Option UInt64) (masterTsf : UInt64) (s : Single F n) (i : Fin n) : Single F n :=
  if s.panicked then s
  else
    match correctFollower (reads i) (s.controllers i) masterTsf with
    | none => { s with panicked := true }
    | some c =>
      let s := { s with controllers := update s.controllers i c.controller, written := update s.written i c.written }
      match c.result with
      | some (step, err) => { s with stats := s.stats.update err step }
      | none => { s with lines := s.lines ++ [.followerCorrectionFailed i] }

/-- One cycle of the loop: a failed read of the master skips the followers, `cycle` and `check_stats`. -/
def iteration (files : Files n) (k : Nat) (s : Single F n) : Single F n :=
  let s := { s with written := fun _ => none }
  if s.panicked then s
  else
    match files.master k with
    | none => { s with lines := s.lines ++ [.masterReadFailed] }
    | some masterTsf =>
      let s := (List.finRange n).foldl (correct (files.follower · k) masterTsf) s
      if s.panicked then s
      else
        let (stats, lines) := checkStats s.stats (s.cycle + 1) files.statsIntervalCycles files.rmsWarnUs "sync"
        { s with cycle := s.cycle + 1, stats, lines := s.lines ++ lines }

/-- The loop after so many cycles. -/
def loop (files : Files n) (controllers : Fin n → Controller F) : Nat → Single F n
  | 0 => start controllers
  | k + 1 => (loop files controllers k).iteration files k

end Single

/-- `run_single` when `RUNNING` is false after so many cycles. -/
def runSingle (files : Files n) (controllers : Fin n → Controller F) (cycles : Nat) : Single F n :=
  let s := Single.loop files controllers cycles
  if s.panicked then s
  else
    let (_, stats, lines) := s.stats.printAndReset "final"
    { s with stats, lines := s.lines ++ lines }

/-! ## One thread for each follower -/

/-- Where the sampler stands: at `while RUNNING`, before the read of the master, before and at each `wait`, before
`cycle += 1`, and the same after the loop. -/
inductive SamplerPc
  | top
  | read
  | atBarrier1
  | inBarrier1 (g : Nat)
  | atBarrier2
  | inBarrier2 (g : Nat)
  | report
  | atFinalBarrier1
  | inFinalBarrier1 (g : Nat)
  | join
  | done
  deriving DecidableEq, Repr

/-- Where a worker stands: at `while RUNNING`, before and at each `wait`, before the second check of `RUNNING`, before
`mt.load`, before `correct_follower` with the value loaded; `done` and `panicked` are the ends of the thread. -/
inductive WorkerPc
  | top
  | atBarrier1
  | inBarrier1 (g : Nat)
  | recheck
  | load
  | correct (m : UInt64)
  | atBarrier2
  | inBarrier2 (g : Nat)
  | done
  | panicked
  deriving DecidableEq, Repr

/-- The thread has ended. -/
def WorkerPc.exited (pc : WorkerPc) : Bool := pc = .done ∨ pc = .panicked

/-- The sampler's own data; `published` records the shared TSF after each of its reads. -/
structure Sampler (F : Type) where
  pc : SamplerPc
  cycle : UInt64
  stats : WelfordStats F
  published : List UInt64

/-- `Worker`; `loaded` and `written` record for each round the master TSF loaded and what was written. -/
structure Worker (F : Type) where
  pc : WorkerPc
  controller : Controller F
  stats : WelfordStats F
  loaded : List UInt64
  written : List (Option UInt64)

/-- The threads of `run_parallel` and what they share; at the barriers the sampler is `none`. -/
structure Parallel (F : Type) (n : Nat) where
  running : Bool
  masterTsf : UInt64
  barrier1 : Barrier (Option (Fin n))
  barrier2 : Barrier (Option (Fin n))
  sampler : Sampler F
  worker : Fin n → Worker F
  lines : List (Line F)

/-- Who takes the next step. -/
inductive Thread (n : Nat)
  | sampler
  | worker (i : Fin n)
  | signalHandler
  deriving DecidableEq, Repr

namespace Parallel

/-- `run_parallel` when its threads begin. -/
def start (controllers : Fin n → Controller F) : Parallel F n where
  running := true
  masterTsf := 0
  barrier1 := .new (n + 1)
  barrier2 := .new (n + 1)
  sampler := ⟨.top, 0, .new, []⟩
  worker := fun i => ⟨.top, controllers i, .new, [], []⟩
  lines := []

/-- The sampler goes on at `pc`. -/
def samplerTo (pc : SamplerPc) (s : Parallel F n) : Parallel F n := { s with sampler := { s.sampler with pc } }

/-- Worker `i` goes on at `pc`. -/
def workerTo (i : Fin n) (pc : WorkerPc) (s : Parallel F n) : Parallel F n :=
  { s with worker := update s.worker i { s.worker i with pc } }

/-- The shared TSF after the sampler's next read of the master: the old one if the read fails. -/
def publish (files : Files n) (s : Parallel F n) : Parallel F n :=
  let masterTsf := (files.master s.sampler.published.length).getD s.masterTsf
  let lines := if (files.master s.sampler.published.length).isNone then [.masterReadFailed] else []
  { s with
    masterTsf
    sampler := { s.sampler with published := s.sampler.published ++ [masterTsf] }
    lines := s.lines ++ lines }

/-- The end of an iteration of the sampler's loop. -/
def report (files : Files n) (s : Parallel F n) : Parallel F n :=
  let cycle := s.sampler.cycle + 1
  let (stats, lines) := checkStats s.sampler.stats cycle files.statsIntervalCycles files.rmsWarnUs "sync"
  { s with sampler := { s.sampler with cycle, stats }, lines := s.lines ++ lines }

/-- A step of the sampler, the thread that called `run_parallel`. -/
def samplerStep (files : Files n) (s : Parallel F n) : Option (Parallel F n) :=
  match s.sampler.pc with
  | .top => some (s.samplerTo (if s.running then .read else .atFinalBarrier1))
  | .read => some ((s.publish files).samplerTo .atBarrier1)
  | .atBarrier1 =>
    some ({ s with barrier1 := s.barrier1.arrive none }.samplerTo (.inBarrier1 s.barrier1.generation))
  | .inBarrier1 g => if s.barrier1.generation ≠ g then some (s.samplerTo .atBarrier2) else none
  | .atBarrier2 =>
    some ({ s with barrier2 := s.barrier2.arrive none }.samplerTo (.inBarrier2 s.barrier2.generation))
  | .inBarrier2 g => if s.barrier2.generation ≠ g then some (s.samplerTo .report) else none
  | .report => some ((s.report files).samplerTo .top)
  | .atFinalBarrier1 =>
    some ({ s with barrier1 := s.barrier1.arrive none }.samplerTo (.inFinalBarrier1 s.barrier1.generation))
  | .inFinalBarrier1 g => if s.barrier1.generation ≠ g then some (s.samplerTo .join) else none
  | .join => if ∀ i, (s.worker i).pc.exited = true then some (s.samplerTo .done) else none
  | .done => none

/-- Worker `i` prints its statistics and ends. -/
def exitWorker (i : Fin n) (s : Parallel F n) : Parallel F n :=
  let (_, stats, lines) := (s.worker i).stats.printAndReset s!"follower-{i.val}"
  { s with worker := update s.worker i { s.worker i with pc := .done, stats }, lines := s.lines ++ lines }

/-- Worker `i` corrects its follower, or its thread panics. -/
def correctWorker (files : Files n) (i : Fin n) (m : UInt64) (s : Parallel F n) : Parallel F n :=
  let w := s.worker i
  match correctFollower (files.follower i w.written.length) w.controller m with
  | none => s.workerTo i .panicked
  | some c =>
    let stats := match c.result with
      | some (step, err) => w.stats.update err step
      | none => w.stats
    let written := w.written ++ [c.written]
    { s with worker := update s.worker i { w with pc := .atBarrier2, controller := c.controller, stats, written } }

/-- A step of worker `i`. -/
def workerStep (files : Files n) (i : Fin n) (s : Parallel F n) : Option (Parallel F n) :=
  match (s.worker i).pc with
  | .top => some (if s.running then s.workerTo i .atBarrier1 else s.exitWorker i)
  | .atBarrier1 =>
    some ({ s with barrier1 := s.barrier1.arrive (some i) }.workerTo i (.inBarrier1 s.barrier1.generation))
  | .inBarrier1 g => if s.barrier1.generation ≠ g then some (s.workerTo i .recheck) else none
  | .recheck => some (if s.running then s.workerTo i .load else s.exitWorker i)
  | .load =>
    let w := s.worker i
    let loaded := w.loaded ++ [s.masterTsf]
    some { s with worker := update s.worker i { w with pc := .correct s.masterTsf, loaded } }
  | .correct m => some (s.correctWorker files i m)
  | .atBarrier2 =>
    some ({ s with barrier2 := s.barrier2.arrive (some i) }.workerTo i (.inBarrier2 s.barrier2.generation))
  | .inBarrier2 g => if s.barrier2.generation ≠ g then some (s.workerTo i .top) else none
  | .done => none
  | .panicked => none

/-- A step of `run_parallel`; the handler writes `RUNNING` once. -/
def step (files : Files n) : Thread n → Parallel F n → Option (Parallel F n)
  | .sampler, s => s.samplerStep files
  | .worker i, s => s.workerStep files i
  | .signalHandler, s => if s.running then some { s with running := false } else none

end Parallel

/-! ## One follower -/

/-- One follower, whose TSF is 900 in every cycle, with these reads of the master. -/
def lateFollower (master : Nat → Option UInt64) : Files 1 := ⟨master, fun _ _ => some 900, 0, 0⟩

/-- The controller of the default options. -/
def lateController : Fin 1 → Controller Float := fun _ => .new 1_000_000 200 false

/-- Its worker. -/
def lateWorker : Thread 1 := .worker ⟨0, Nat.one_pos⟩

end TsfSync.Debugfs
