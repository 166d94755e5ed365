import TsfSync.Kernel.Clock
import TsfSync.Kernel.Lookup

/-!
# The PTP clock operations of a card without a VIF

The operations write their result through a pointer, so that the caller's memory is state of the program too: here it
stands beside the module's (`tsfPtpGettimeInto`, `tsfPtpGetcrosststampInto`), and where no VIF is up it stays as it is.
The four operations then fail alike (`FailsClean`), but for `tsf_ptp_adjtime`, whose filter comes before the look at the
VIF: a delta that the filter skips is reported as applied (`failsClean_iff`).
-/

namespace TsfSync

open LockProg MachineWord

/-! ## The output arguments -/

/-- `*out = f(*out)` of a function with an output argument. -/
def writeOut {τ : Type} (f : τ → τ) : Prog (Kernel × τ) LockId Unit := Prog.modify fun s => (s.1, f s.2)

@[simp] theorem run_writeOut {τ : Type} (f : τ → τ) (s : Kernel × τ) : (writeOut f).run s = ((), s.1, f s.2) := rfl

/-- `tsf_ptp_gettime(info, ts)`. -/
def tsfPtpGettimeInto (card : CardPtr) : Prog (Kernel × Timespec64) LockId (Except Errno Unit) := do
  (mutexLock (.card card)).besides
  let k ← (readCard card).besides
  match k.vif with
  | none =>
    (mutexUnlock (.card card)).besides
    return .error .ENODEV
  | some vif =>
    (mutexLock (.wiphy k.hw.wiphy)).besides
    let tsfUsec ← (tsfPtpCallGetTsf card vif).besides
    (mutexUnlock (.wiphy k.hw.wiphy)).besides
    (mutexUnlock (.card card)).besides
    writeOut fun _ => nsToTimespec64 (tsfToNs tsfUsec)
    return .ok ()

/-- `tsf_ptp_getcrosststamp(info, cts)`, which writes the fields one after the other. -/
def tsfPtpGetcrosststampInto (card : CardPtr) :
    Prog (Kernel × SystemDeviceCrosststamp) LockId (Except Errno Unit) := do
  (mutexLock (.card card)).besides
  let k ← (readCard card).besides
  match k.vif with
  | none =>
    (mutexUnlock (.card card)).besides
    return .error .ENODEV
  | some vif =>
    (mutexLock (.wiphy k.hw.wiphy)).besides
    let sysMonoraw ← (Prog.read (·.ktimeRaw)).besides
    writeOut fun cts => { cts with sysMonoraw }
    let tsfUsec ← (tsfPtpCallGetTsf card vif).besides
    let sysRealtime ← (Prog.read (·.ktimeReal)).besides
    writeOut fun cts => { cts with sysRealtime }
    (mutexUnlock (.wiphy k.hw.wiphy)).besides
    (mutexUnlock (.card card)).besides
    writeOut fun cts => { cts with device := tsfToNs tsfUsec }
    return .ok ()

/-- What an output argument holds after a call. -/
def outAfter {τ : Type} (out : τ) : Except Errno τ → τ
  | .ok value => value
  | .error _ => out

/-- `tsf_ptp_gettime` writes the time that it reads, where it reads one. -/
theorem run_gettimeInto (card : CardPtr) (s : Kernel) (ts : Timespec64) : (tsfPtpGettimeInto card).run (s, ts) =
    (((tsfPtpGettime card).run s).1.map fun _ => (), ((tsfPtpGettime card).run s).2,
      outAfter ts ((tsfPtpGettime card).run s).1) := by
  cases h : (s.card card).vif with
  | none => simp [tsfPtpGettimeInto, tsfPtpGettime, h, outAfter, Except.map]
  | some vif => simp [tsfPtpGettimeInto, tsfPtpGettime, h, outAfter, Except.map]

/-- `tsf_ptp_getcrosststamp` writes the three times, where it reads the card's. -/
theorem run_getcrosststampInto (card : CardPtr) (s : Kernel) (cts : SystemDeviceCrosststamp) :
    (tsfPtpGetcrosststampInto card).run (s, cts) =
      (((tsfPtpGetcrosststamp card).run s).1.map fun _ => (), ((tsfPtpGetcrosststamp card).run s).2,
        outAfter cts ((tsfPtpGetcrosststamp card).run s).1) := by
  cases h : (s.card card).vif with
  | none => simp [tsfPtpGetcrosststampInto, tsfPtpGetcrosststamp, h, outAfter, Except.map]
  | some vif => simp [tsfPtpGetcrosststampInto, tsfPtpGetcrosststamp, h, outAfter, Except.map]

/-! ## The four operations -/

/-- An operation of `struct ptp_clock_info`, with the argument that it reads. -/
inductive ClockOp
  | gettime
  | settime (ts : Timespec64)
  | adjtime (deltaNs : Int64)
  | getcrosststamp

namespace ClockOp

/-- What an operation writes through its pointer. -/
def Out : ClockOp → Type
  | gettime => Timespec64
  | settime _ => Unit
  | adjtime _ => Unit
  | getcrosststamp => SystemDeviceCrosststamp

/-- The function behind the operation. -/
def prog (card : CardPtr) : (op : ClockOp) → Prog (Kernel × op.Out) LockId (Except Errno Unit)
  | gettime => tsfPtpGettimeInto card
  | settime ts => (tsfPtpSettime card ts).besides
  | adjtime deltaNs => (tsfPtpAdjtime card deltaNs).besides
  | getcrosststamp => tsfPtpGetcrosststampInto card

/-- The operation is an adjustment that the threshold filter skips. -/
def filtered (threshold : UInt32) : ClockOp → Bool
  | gettime => false
  | settime _ => false
  | adjtime deltaNs => belowThreshold threshold deltaNs
  | getcrosststamp => false

end ClockOp

/-- A function reports `-ENODEV`; it calls no driver and changes no counter, nor anything else of the module, leaves its
output as it is and drops the locks that it has taken. -/
structure FailsClean {τ : Type} (p : Prog (Kernel × τ) LockId (Except Errno Unit)) (s : Kernel) (out : τ) : Prop where
  error : (p.run (s, out)).1 = .error .ENODEV
  state : (p.run (s, out)).2.1 = s
  output : (p.run (s, out)).2.2 = out
  released : ∀ l, (p.trace (s, out)).count (.take l) = (p.trace (s, out)).count (.drop l)

section NoVif

variable {s : Kernel} {card : CardPtr}

variable (card) in
/-- A function that takes the lock of the card, finds nothing and lets it go. -/
theorem failsClean_of_run {τ : Type} {p : Prog (Kernel × τ) LockId (Except Errno Unit)} {out : τ}
    (hrun : p.run (s, out) = (.error .ENODEV, s, out))
    (htrace : p.trace (s, out) = [.take (.card card), .drop (.card card)]) : FailsClean p s out := by
  refine ⟨by rw [hrun], by rw [hrun], by rw [hrun], ?_⟩
  intro l
  rw [htrace]
  by_cases h : l = .card card
  · simp [h]
  · have hne : LockId.card card ≠ l := fun e => h e.symm
    simp [hne]

theorem failsClean_gettime (h : (s.card card).vif = none) (ts : Timespec64) :
    FailsClean (tsfPtpGettimeInto card) s ts := by
  apply failsClean_of_run card
  · simp [tsfPtpGettimeInto, h]
  · simp [tsfPtpGettimeInto, h]

theorem failsClean_settime (h : (s.card card).vif = none) (ts : Timespec64) :
    FailsClean (tsfPtpSettime card ts).besides s () := by
  apply failsClean_of_run card
  · simp [tsfPtpSettime, h]
  · simp [tsfPtpSettime, h]

theorem failsClean_adjtime (h : (s.card card).vif = none) {deltaNs : Int64}
    (hb : belowThreshold s.adjtimeThresholdNs deltaNs = false) :
    FailsClean (tsfPtpAdjtime card deltaNs).besides s () := by
  apply failsClean_of_run card
  · simp [tsfPtpAdjtime, hb, h]
  · simp [tsfPtpAdjtime, hb, h]

theorem failsClean_getcrosststamp (h : (s.card card).vif = none) (cts : SystemDeviceCrosststamp) :
    FailsClean (tsfPtpGetcrosststampInto card) s cts := by
  apply failsClean_of_run card
  · simp [tsfPtpGetcrosststampInto, h]
  · simp [tsfPtpGetcrosststampInto, h]

/-- An adjustment that the filter skips succeeds. -/
theorem adjtime_filtered (s : Kernel) (card : CardPtr) {deltaNs : Int64}
    (hb : belowThreshold s.adjtimeThresholdNs deltaNs = true) : (tsfPtpAdjtime card deltaNs).run s = (.ok (), s.skipped) := by
  simp [tsfPtpAdjtime, hb]

/-- So it does not fail. -/
theorem not_failsClean_of_filtered {deltaNs : Int64} (hb : belowThreshold s.adjtimeThresholdNs deltaNs = true) :
    ¬FailsClean (tsfPtpAdjtime card deltaNs).besides s () := by
  intro hclean
  have herror := hclean.error
  rw [Prog.run_besides, adjtime_filtered s card hb] at herror
  cases herror

/-- **An operation of a card without a VIF fails cleanly exactly if** it is no adjustment that the threshold filter
skips. -/
theorem failsClean_iff (h : (s.card card).vif = none) (op : ClockOp) (out : op.Out) :
    FailsClean (op.prog card) s out ↔ op.filtered s.adjtimeThresholdNs = false := by
  cases op with
  | gettime => exact iff_of_true (failsClean_gettime h out) rfl
  | settime ts => exact iff_of_true (failsClean_settime h ts) rfl
  | adjtime deltaNs =>
    constructor
    · intro hclean
      rw [Bool.eq_false_iff]
      intro hb
      exact not_failsClean_of_filtered hb hclean
    · intro hb
      exact failsClean_adjtime h hb
  | getcrosststamp => exact iff_of_true (failsClean_getcrosststamp h out) rfl

end NoVif

/-- A card without a VIF. -/
def Card.down (wiphy : WiphyId) (tsf : UInt64) : Card := { Card.upWith wiphy tsf with vif := none }

/-- An adjustment by 10 µs of a card without a VIF. -/
theorem failsClean_iff_far : FailsClean (tsfPtpAdjtime (.card 0) 10000).besides (.withCards [.down 0 100]) () := by
  have hvif : ((Kernel.withCards [.down 0 100]).card (.card 0)).vif = none := rfl
  exact (failsClean_iff hvif (.adjtime 10000) ()).mpr (by decide)

/-- One by 1 µs is reported as a success and counted as skipped. -/
theorem failsClean_counterexample :
    (tsfPtpAdjtime (.card 0) 1000).run (.withCards [.down 0 100]) = (.ok (), (Kernel.withCards [.down 0 100]).skipped) ∧
      ¬FailsClean (tsfPtpAdjtime (.card 0) 1000).besides (.withCards [.down 0 100]) () := by
  have hb : belowThreshold (Kernel.withCards [.down 0 100]).adjtimeThresholdNs 1000 = true := by decide
  exact ⟨adjtime_filtered _ _ hb, not_failsClean_of_filtered hb⟩

end TsfSync
