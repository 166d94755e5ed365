import Mathlib.Tactic.Common
import TsfSync.Lib.Retry

/-!
# Sleeping to a deadline

`sleep_until` of `rt.rs` over the results that the kernel gives to its calls of `clock_nanosleep`. Where the C library
makes the call its result is a positive errno; `raw_clock_nanosleep` of `asm/syscall.rs` hands on what the `syscall`
instruction leaves in `rax`, which is negative. The loop tests for `EINTR`, so on x86_64 it ends with the first result,
also where a signal has interrupted the sleep (`sleepUntil_iff`).
-/

namespace TsfSync.Debugfs

open Retry

/-- An error number of the kernel: `1` to `MAX_ERRNO`. -/
structure KernelErrno where
  val : Nat
  pos : 0 < val
  le_max : val ≤ 4095
deriving DecidableEq

/-- `EINTR`. -/
def KernelErrno.eintr : KernelErrno := ⟨4, by decide, by decide⟩

/-- How the kernel ends a `clock_nanosleep`. -/
inductive SleepResult
  | slept
  | failed (errno : KernelErrno)
deriving DecidableEq

/-- A signal has interrupted the sleep. -/
abbrev SleepResult.interrupted : SleepResult := .failed .eintr

/-- The architectures that `do_clock_nanosleep` tells apart. -/
inductive Arch
  | x86_64
  | other
deriving DecidableEq

/-- `libc::EINTR`. -/
def eintr : Int32 := 4

/-- What a system call leaves in `rax`. -/
def rax : SleepResult → Int64
  | .slept => 0
  | .failed errno => Int64.ofInt (-errno.val)

/-- `raw_clock_nanosleep`. -/
def rawClockNanosleep (result : SleepResult) : Int32 := (rax result).toInt32

/-- `libc::clock_nanosleep`: a positive errno. -/
def libcClockNanosleep : SleepResult → Int32
  | .slept => 0
  | .failed errno => Int32.ofNat errno.val

/-- `do_clock_nanosleep`. -/
def doClockNanosleep : Arch → SleepResult → Int32
  | .x86_64 => rawClockNanosleep
  | .other => libcClockNanosleep

/-- The loop of `sleep_until` goes on after a result. -/
def triesAgain (arch : Arch) (result : SleepResult) : Bool :=
  let ret := doClockNanosleep arch result
  !(ret = 0 || ret ≠ eintr)

/-- `sleep_until`: the result that it returns after and those of later calls; none if it has not returned. -/
def sleepUntil (arch : Arch) (results : List SleepResult) : Option (SleepResult × List SleepResult) :=
  retry (triesAgain arch) results

/-! ## Which results make the loop go on -/

theorem triesAgain_iff (arch : Arch) (result : SleepResult) :
    triesAgain arch result = true ↔ doClockNanosleep arch result = eintr := by
  simp only [triesAgain, Bool.not_eq_true', Bool.or_eq_false_iff, decide_eq_false_iff_not, not_not]
  refine ⟨And.right, fun h => ⟨?_, h⟩⟩
  rw [h]
  decide

/-- Where the C library makes the call an interrupted sleep is tried again. -/
theorem triesAgain_other (result : SleepResult) : triesAgain .other result = decide (result = .interrupted) := by
  rw [Bool.eq_iff_iff, triesAgain_iff, decide_eq_true_eq]
  cases result with
  | slept => decide
  | failed errno =>
    have hval : (Int32.ofNat errno.val = eintr) ↔ errno.val = 4 := by
      have hle := errno.le_max
      rw [← Int32.toInt_inj, Int32.toInt_ofNat_of_lt (by omega)]
      have hfour : eintr.toInt = 4 := rfl
      omega
    rw [SleepResult.interrupted, SleepResult.failed.injEq, KernelErrno.mk.injEq]
    exact hval

/-- The result of the system call is never a positive errno. -/
theorem triesAgain_x86_64 (result : SleepResult) : triesAgain .x86_64 result = false := by
  rw [Bool.eq_false_iff, Ne, triesAgain_iff]
  cases result with
  | slept => decide
  | failed errno =>
    intro h
    have hpos := errno.pos
    have hle := errno.le_max
    have hret : (Int32.ofInt (-errno.val)).toInt = -errno.val := Int32.toInt_ofInt_of_le (by omega) (by omega)
    have hval := congrArg Int32.toInt h
    have hfour : eintr.toInt = 4 := rfl
    rw [doClockNanosleep, rawClockNanosleep, rax, Int64.toInt32_ofInt, hret, hfour] at hval
    omega

/-! ## What the loop does -/

/-- The loop returns after the first result that is no interruption, and only there. -/
def SleepsToDeadline (arch : Arch) (results : List SleepResult) : Prop :=
  ∀ result left, sleepUntil arch results = some (result, left) ↔
    ∃ interruptions, results = interruptions ++ result :: left ∧ (∀ r ∈ interruptions, r = .interrupted) ∧
      result ≠ .interrupted

/-- Said as a loop that tries again after interruptions. -/
theorem sleepsToDeadline_iff_retry (arch : Arch) (results : List SleepResult) : SleepsToDeadline arch results ↔
    sleepUntil arch results = retry (fun r => decide (r = .interrupted)) results := by
  have hspec : ∀ result left, retry (fun r => decide (r = SleepResult.interrupted)) results = some (result, left) ↔
      ∃ interruptions, results = interruptions ++ result :: left ∧ (∀ r ∈ interruptions, r = .interrupted) ∧
        result ≠ .interrupted := by
    intro result left
    rw [retry_eq_some_iff]
    simp only [decide_eq_true_eq, decide_eq_false_iff_not, ne_eq]
  constructor
  · intro h
    exact Option.ext fun x => (h x.1 x.2).trans (hspec x.1 x.2).symm
  · intro h result left
    rw [h, hspec]

/-- **`sleep_until` sleeps to the deadline if and only if** the C library makes the call, or its first call is not
interrupted. -/
theorem sleepUntil_iff (arch : Arch) (results : List SleepResult) :
    SleepsToDeadline arch results ↔ arch ≠ .x86_64 ∨ results.head? ≠ some .interrupted := by
  rw [sleepsToDeadline_iff_retry, sleepUntil, retry_eq_iff]
  cases arch with
  | other =>
    refine iff_of_true (fun r _ => triesAgain_other r) (Or.inl ?_)
    decide
  | x86_64 =>
    simp only [triesAgain_x86_64, Bool.false_and, ne_eq, not_true_eq_false, false_or]
    have hdrop : results.dropWhile (fun _ => false) = results := by cases results <;> rfl
    rw [hdrop]
    cases results with
    | nil => simp
    | cons r rs => simp

/-- A signal arrives during the first sleep: on x86_64 the loop returns before the deadline. -/
theorem sleepUntil_counterexample :
    sleepUntil .x86_64 [.interrupted, .slept] = some (.interrupted, [.slept]) ∧
      ¬SleepsToDeadline .x86_64 [.interrupted, .slept] := by
  have hrun : sleepUntil .x86_64 [.interrupted, .slept] = some (.interrupted, [.slept]) := by decide
  refine ⟨hrun, fun h => ?_⟩
  obtain ⟨-, -, -, hdone⟩ := (h _ _).mp hrun
  exact hdone rfl

end TsfSync.Debugfs
