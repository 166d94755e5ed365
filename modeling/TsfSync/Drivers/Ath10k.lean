import TsfSync.Kernel.Clock
import TsfSync.Lib.Threads

/-!
# Reading the TSF of ath10k

`ath10k_ptp_gettime64` and what it calls, from the ath10k patch: under `conf_mutex` it sends the firmware a stats request
and waits up to 500 ms for `ath10k_ptp_tsf_event`, which stores the TSF and completes `tsf_read_complete`. The firmware
is part of the state: the requests that it accepted and did not answer, the answers that it gave, and the events that
have stored their value but not yet called `complete`. Whether WMI accepts the `n`-th request is a parameter. What a call
went through (`Sent`) is kept beside its result.
-/

namespace TsfSync.Drivers

open TsfSync LockProg

/-- What became of the request of a call. -/
inductive Sent
  | noVdev
  | refused (ret : Int32)
  | timedOut (req : Nat)
  | completed (req : Nat)
  deriving DecidableEq, Repr

/-- A finished `ath10k_ptp_gettime64`: what it returns, the time it stores, and what became of its request. -/
structure GettimeCall where
  ret : Int32
  ts : Timespec64
  sent : Sent
  deriving DecidableEq, Repr

/-- The part of `struct ath10k` that reading the TSF uses, the firmware, and the calls so far. -/
structure Ath10k where
  ptpVdevId : Int32
  tsfReadComplete : UInt32
  tsfReadValue : UInt64
  requests : Nat
  outstanding : List Nat
  answering : List Nat
  answers : List (Nat × UInt64)
  calls : List GettimeCall
  deriving DecidableEq, Repr

/-- `conf_mutex`. -/
inductive Ath10kLock
  | confMutex
  deriving DecidableEq, Repr

/-- A function of the driver. -/
abbrev Ath10kProg := Prog Ath10k Ath10kLock

namespace Ath10k

/-- `ath10k_ptp_init`. -/
def init : Ath10k := ⟨-1, 0, 0, 0, [], [], [], []⟩

/-- `reinit_completion`. -/
def reinitCompletion (ar : Ath10k) : Ath10k := { ar with tsfReadComplete := 0 }

/-- `complete`; the count stays at `UINT_MAX`. -/
def complete (ar : Ath10k) : Ath10k :=
  { ar with
    tsfReadComplete :=
      if ar.tsfReadComplete = 0xFFFFFFFF then ar.tsfReadComplete else ar.tsfReadComplete + 1 }

/-- A wait takes one completion off the count. -/
def takeCompletion (ar : Ath10k) : Ath10k :=
  if ar.tsfReadComplete = 0 ∨ ar.tsfReadComplete = 0xFFFFFFFF then ar
  else { ar with tsfReadComplete := ar.tsfReadComplete - 1 }

/-- The firmware is sent a stats request, which it accepts if WMI returns 0. -/
def request (ret : Int32) (ar : Ath10k) : Ath10k :=
  { ar with
    requests := ar.requests + 1
    outstanding := if ret = 0 then ar.outstanding ++ [ar.requests] else ar.outstanding }

/-- The first half of `ath10k_ptp_tsf_event`, when the firmware answers a request that it has not answered yet. -/
def storeAnswer (req : Nat) (tsf : UInt64) (ar : Ath10k) : Ath10k :=
  if req ∈ ar.outstanding then
    { ar with
      tsfReadValue := tsf
      outstanding := ar.outstanding.erase req
      answering := ar.answering ++ [req]
      answers := ar.answers ++ [(req, tsf)] }
  else ar

/-- The second half of `ath10k_ptp_tsf_event`, after its first. -/
def completeAnswer (req : Nat) (ar : Ath10k) : Ath10k :=
  if req ∈ ar.answering then { ar.complete with answering := ar.answering.erase req } else ar

/-- A call has its result. -/
def finish (call : GettimeCall) (ar : Ath10k) : Ath10k := { ar with calls := ar.calls ++ [call] }

end Ath10k

section

variable (wmi : Nat → Int32)

/-- `ath10k_wmi_request_stats`: what it returns, and the number of the request. -/
def ath10kWmiRequestStats : Ath10kProg (Int32 × Nat) :=
  .act (fun ar => ar.request (wmi ar.requests)) fun ar => pure (wmi ar.requests, ar.requests)

/-- `wait_for_completion_timeout`: it returns 0 if it ends before the completion. -/
def waitForCompletionTimeout : Ath10kProg Bool := .act Ath10k.takeCompletion fun ar => pure (ar.tsfReadComplete != 0)

/-- `ath10k_ptp_read_tsf`. -/
def ath10kPtpReadTsf : Ath10kProg (UInt64 × Sent) := do
  let ptpVdevId ← Prog.read Ath10k.ptpVdevId
  if ptpVdevId < 0 then
    return (0, .noVdev)
  Prog.modify Ath10k.reinitCompletion
  let (ret, req) ← ath10kWmiRequestStats wmi
  if ret ≠ 0 then
    return (0, .refused ret)
  let completed ← waitForCompletionTimeout
  if !completed then
    return (0, .timedOut req)
  let tsf ← Prog.read Ath10k.tsfReadValue
  return (tsf, .completed req)

/-- `ns_to_timespec64((s64)tsf * NSEC_PER_USEC)`. -/
def timeOfTsf (tsf : UInt64) : Timespec64 := nsToTimespec64 (tsf.toInt64 * 1000)

/-- `ath10k_ptp_gettime64`; its result is settled when it drops the mutex. -/
def ath10kPtpGettime64 : Ath10kProg (Int32 × Timespec64) := do
  Prog.acquire .confMutex
  let (tsf, sent) ← ath10kPtpReadTsf wmi
  Prog.modify (Ath10k.finish ⟨0, timeOfTsf tsf, sent⟩)
  Prog.release .confMutex
  return (0, timeOfTsf tsf)

/-- `ath10k_ptp_tsf_event`, called for a response to a request. -/
def ath10kPtpTsfEvent (req : Nat) (tsf : UInt64) : Ath10kProg Unit := do
  Prog.modify (Ath10k.storeAnswer req tsf)
  Prog.modify (Ath10k.completeAnswer req)

/-- What a thread does: it reads the clock, handles a response of the firmware, or sets `ptp_vdev_id`, as
`ath10k_ptp_start` and `ath10k_ptp_remove` do. -/
inductive Ath10kOp
  | gettime64
  | tsfEvent (req : Nat) (tsf : UInt64)
  | setVdevId (id : Int32)
  deriving DecidableEq, Repr

def Ath10kOp.run : Ath10kOp → Ath10kProg Unit
  | .gettime64 => do let _ ← ath10kPtpGettime64 wmi
  | .tsfEvent req tsf => ath10kPtpTsfEvent req tsf
  | .setVdevId id => Prog.modify fun ar => { ar with ptpVdevId := id }

/-- A thread that does one thing after another. -/
def ath10kThread (ops : List Ath10kOp) : Ath10kProg Unit := forM ops (Ath10kOp.run wmi)

end

end TsfSync.Drivers
