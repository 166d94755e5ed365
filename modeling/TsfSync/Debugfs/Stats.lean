import TsfSync.Debugfs.Control

/-!
# The statistics of `tsf-sync-debugfs`

`WelfordStats` of `stats.rs`, and what the loops write to the log and to standard error.
-/

namespace TsfSync.Debugfs

open F64

/-- `WelfordStats`. -/
structure WelfordStats (F : Type) where
  n : UInt64
  mean : F
  m2 : F
  maxAbsErr : Int64
  maxAbsStep : Int64

/-- `i64::unsigned_abs`. -/
def unsignedAbs (x : Int64) : UInt64 := if x < 0 then (-x).toUInt64 else x.toUInt64

/-- Lines that the loops print: `[{label}] n={n} mean={mean}µs rms={rms}µs max_err={}µs max_step={}µs` and the warnings
`RMS above threshold`, `master read failed` and `follower correction failed`. -/
inductive Line (F : Type)
  | stats (label : String) (stats : WelfordStats F) (rms : F)
  | rmsAboveThreshold (rmsUs threshold : UInt64)
  | masterReadFailed
  | followerCorrectionFailed (follower : Nat)

namespace WelfordStats

variable {F : Type} [F64 F]

/-- `WelfordStats::new`. -/
def new : WelfordStats F := ⟨0, lit 0, lit 0, 0, 0⟩

/-- `WelfordStats::update`. -/
def update (s : WelfordStats F) (err step : Int64) : WelfordStats F :=
  let n := s.n + 1
  let x : F := ofI64 err
  let delta := x - s.mean
  let mean := s.mean + delta / ofU64 n
  let delta2 := x - mean
  let absErr := (unsignedAbs err).toInt64
  let absStep := (unsignedAbs step).toInt64
  { n, mean, m2 := s.m2 + delta * delta2,
    maxAbsErr := if s.maxAbsErr < absErr then absErr else s.maxAbsErr,
    maxAbsStep := if s.maxAbsStep < absStep then absStep else s.maxAbsStep }

/-- `WelfordStats::rms`. -/
def rms (s : WelfordStats F) : F := if s.n = 0 then lit 0 else sqrt (s.m2 / ofU64 s.n)

/-- `WelfordStats::print_and_reset`: the RMS, the accumulators reset, and what it prints. -/
def printAndReset (s : WelfordStats F) (label : String) : F × WelfordStats F × List (Line F) :=
  (s.rms, .new, if 0 < s.n then [.stats label s s.rms] else [])

end WelfordStats

variable {F : Type} [F64 F]

/-- The statistics after some observations `(err, step)`. -/
def observed (obs : List (Int64 × Int64)) : WelfordStats F := obs.foldl (fun s o => s.update o.1 o.2) .new

theorem observed_append (obs : List (Int64 × Int64)) (o : Int64 × Int64) :
    (observed (obs ++ [o]) : WelfordStats F) = (observed obs).update o.1 o.2 := by
  rw [observed, List.foldl_append]
  rfl

/-- `check_stats`: the statistics afterwards and what it prints. -/
def checkStats (stats : WelfordStats F) (cycle statsIntervalCycles rmsWarnUs : UInt64) (label : String) :
    WelfordStats F × List (Line F) :=
  if 0 < statsIntervalCycles ∧ cycle % statsIntervalCycles = 0 then
    let (rms, stats, printed) := stats.printAndReset label
    let warned :=
      if 0 < rmsWarnUs ∧ gt rms (ofU64 rmsWarnUs) = true then [.rmsAboveThreshold (toU64 rms) rmsWarnUs] else []
    (stats, printed ++ warned)
  else (stats, [])

end TsfSync.Debugfs
