import TsfSync.Drivers.Ath10k
import TsfSync.Drivers.Realtek
import TsfSync.Lib.Atomic

/-!
# The PTP clocks of the register-based drivers

The patches for ath9k, mt76, rtw88 and rtw89 give a device a PTP clock of its own. Its operations take the mutex of the
device and then go through several registers: the two halves of the counter (Realtek), or the pair `UTTR0`, `UTTR1` that
`TCR` latches to the counter or from it, on a device that has to be awake (mt792x). What the drivers have outside the
patches (`Ath9kHw`, `Mt76Hw`) is taken as a parameter that does what is documented of it. With counters that do not go on
by themselves each operation is one access to the counter of its device, whatever other threads do to this device or to
another (`register_calls_atomic`).
-/

namespace TsfSync.Drivers

open TsfSync LockProg Function

variable {Power α β : Type}

/-! ## The devices -/

/-- What the drivers access of a device: the TSF counter, the pair `UTTR1`, `UTTR0`, and what runtime power management
keeps of it. -/
structure Regs (Power : Type) where
  tsf : UInt64
  uttr : UInt64
  power : Power
  deriving DecidableEq, Repr

/-- The devices by their number, and the clocks of the system. -/
structure Machine (Power : Type) where
  regs : Nat → Regs Power
  ktimeRaw : Int64
  ktimeReal : Int64

/-- A function of a driver; the lock of a device is its mutex. -/
abbrev DriverProg (Power : Type) := Prog (Machine Power) Nat

/-- A change of one device. -/
def Machine.change (d : Nat) (f : Regs Power → Regs Power) (s : Machine Power) : Machine Power :=
  { s with regs := update s.regs d (f (s.regs d)) }

/-- A look at one device. -/
def peek (d : Nat) (f : Regs Power → β) : DriverProg Power β := Prog.read fun s => f (s.regs d)

/-- `EOPNOTSUPP`. -/
def eopnotsupp : Int32 := 95

/-! ## The operations, by what reads and writes the TSF -/

section Skeleton

variable (d : Nat) (readTsf : DriverProg Power UInt64) (writeTsf : UInt64 → DriverProg Power Unit)

/-- `gettime64`. -/
def clockGettime64 : DriverProg Power (Except Int32 Timespec64) := do
  Prog.acquire d
  let tsf ← readTsf
  Prog.release d
  return .ok (timeOfTsf tsf)

/-- `settime64`. -/
def clockSettime64 (ts : Timespec64) : DriverProg Power (Except Int32 Unit) := do
  let tsf := (timespec64ToNs ts).toUInt64 / 1000
  Prog.acquire d
  writeTsf tsf
  Prog.release d
  return .ok ()

/-- `adjtime`. -/
def clockAdjtime (deltaNs : Int64) : DriverProg Power (Except Int32 Unit) := do
  let deltaUsec := deltaNs / nsecPerUsec
  Prog.acquire d
  let tsf ← readTsf
  writeTsf (tsf + deltaUsec.toUInt64)
  Prog.release d
  return .ok ()

end Skeleton

/-! ## Realtek -/

section Realtek

variable (regs : SplitCounter.Registers) (d : Nat)

/-- A 32-bit read. -/
def rtwRead32 (addr : Nat) : DriverProg Power UInt32 := peek d fun r => SplitCounter.shown regs addr r.tsf

/-- A 32-bit write. -/
def rtwWrite32 (addr : Nat) (v : UInt32) : DriverProg Power Unit :=
  Prog.modify (Machine.change d fun r => { r with tsf := SplitCounter.put regs addr v r.tsf })

/-- `rtw88_read_tsf` and `rtw89_ptp_read_tsf`, among other threads. -/
def rtwReadTsf : DriverProg Power UInt64 := do
  let hi ← rtwRead32 regs d regs.high
  let lo ← rtwRead32 regs d regs.low
  let hi2 ← rtwRead32 regs d regs.high
  if hi ≠ hi2 then
    let lo ← rtwRead32 regs d regs.low
    return SplitCounter.join hi2 lo
  else
    return SplitCounter.join hi lo

/-- `rtw88_write_tsf` and `rtw89_ptp_write_tsf`, among other threads. -/
def rtwWriteTsf (tsf : UInt64) : DriverProg Power Unit := do
  rtwWrite32 regs d regs.low (SplitCounter.lowHalf (tsf &&& 0xFFFFFFFF))
  rtwWrite32 regs d regs.high (SplitCounter.highHalf tsf)

end Realtek

/-! ## MediaTek -/

section Mt76

/-- The registers of mt792x that the TSF goes through. -/
inductive LponReg
  | tcr
  | uttr0
  | uttr1
  deriving DecidableEq, Repr

/-- What is set in `MT_LPON_TCR`. -/
inductive TcrBits
  | swMode
  | swWrite
  deriving DecidableEq, Repr

/-- What mt76 has for its registers and for runtime power management outside its patches. -/
structure Mt76Hw (Power : Type) where
  connacPmWake : Nat → DriverProg Power Unit
  connacPmUnref : Nat → DriverProg Power Unit
  rr : Nat → LponReg → DriverProg Power UInt32
  wr : Nat → LponReg → UInt32 → DriverProg Power Unit
  set : Nat → LponReg → TcrBits → DriverProg Power Unit

/-- `struct mt76_ptp_ops`. -/
structure Mt76PtpOps (Power : Type) where
  tsfRead : Option (Nat → DriverProg Power UInt64)
  tsfWrite : Option (Nat → UInt64 → DriverProg Power Unit)

variable (mdev : Mt76Hw Power) (d : Nat)

/-- `mt792x_ptp_tsf_read`. -/
def mt792xPtpTsfRead : DriverProg Power UInt64 := do
  mdev.connacPmWake d
  mdev.set d .tcr .swMode
  let lo ← mdev.rr d .uttr0
  let hi ← mdev.rr d .uttr1
  mdev.connacPmUnref d
  return SplitCounter.join hi lo

/-- `mt792x_ptp_tsf_write`. -/
def mt792xPtpTsfWrite (timestamp : UInt64) : DriverProg Power Unit := do
  mdev.connacPmWake d
  mdev.wr d .uttr0 (SplitCounter.lowHalf timestamp)
  mdev.wr d .uttr1 (SplitCounter.highHalf timestamp)
  mdev.set d .tcr .swWrite
  mdev.connacPmUnref d

/-- `mt792x_ptp_ops`. -/
def mt792xPtpOps : Mt76PtpOps Power := ⟨some (mt792xPtpTsfRead mdev), some (mt792xPtpTsfWrite mdev)⟩

variable (ptpOps : Option (Mt76PtpOps Power))

/-- `mt76_ptp_gettime64`. -/
def mt76PtpGettime64 : DriverProg Power (Except Int32 Timespec64) :=
  match ptpOps.bind Mt76PtpOps.tsfRead with
  | none => return .error (-eopnotsupp)
  | some tsfRead => clockGettime64 d (tsfRead d)

/-- `mt76_ptp_settime64`. -/
def mt76PtpSettime64 (ts : Timespec64) : DriverProg Power (Except Int32 Unit) :=
  match ptpOps.bind Mt76PtpOps.tsfWrite with
  | none => return .error (-eopnotsupp)
  | some tsfWrite => clockSettime64 d (tsfWrite d) ts

/-- `mt76_ptp_adjtime`. -/
def mt76PtpAdjtime (deltaNs : Int64) : DriverProg Power (Except Int32 Unit) :=
  match ptpOps.bind Mt76PtpOps.tsfRead, ptpOps.bind Mt76PtpOps.tsfWrite with
  | some tsfRead, some tsfWrite => clockAdjtime d (tsfRead d) (tsfWrite d) deltaNs
  | _, _ => return .error (-eopnotsupp)

/-- `mt76_ptp_getcrosststamp`. -/
def mt76PtpGetcrosststamp : DriverProg Power (Except Int32 SystemDeviceCrosststamp) :=
  match ptpOps.bind Mt76PtpOps.tsfRead with
  | none => return .error (-eopnotsupp)
  | some tsfRead => do
    Prog.acquire d
    let sysMonoraw ← Prog.read Machine.ktimeRaw
    let tsf ← tsfRead d
    let sysRealtime ← Prog.read Machine.ktimeReal
    Prog.release d
    return .ok ⟨tsf.toInt64 * 1000, sysRealtime, sysMonoraw⟩

end Mt76

/-! ## The clocks of a machine -/

/-- The driver of a device; one of mt76 has `ptp_ops` or not. -/
inductive Chip
  | ath9k
  | mt76 (hasPtpOps : Bool)
  | rtw88
  | rtw89
  deriving DecidableEq, Repr

/-- What ath9k has for the TSF outside its patch. -/
structure Ath9kHw (Power : Type) where
  gettsf64 : Nat → DriverProg Power UInt64
  settsf64 : Nat → UInt64 → DriverProg Power Unit

/-- `dev->ptp_ops` of a device of mt76. -/
def ptpOpsOf (mdev : Mt76Hw Power) (hasPtpOps : Bool) : Option (Mt76PtpOps Power) :=
  if hasPtpOps then some (mt792xPtpOps mdev) else none

/-- An operation of the PTP clock of a device. -/
inductive ClockCall
  | gettime64 (d : Nat)
  | settime64 (d : Nat) (ts : Timespec64)
  | adjtime (d : Nat) (deltaNs : Int64)
  | adjfine (d : Nat) (scaledPpm : Int64)
  | getcrosststamp (d : Nat)

namespace ClockCall

/-- What an operation answers. -/
def Answer : ClockCall → Type
  | gettime64 _ => Except Int32 Timespec64
  | settime64 _ _ => Except Int32 Unit
  | adjtime _ _ => Except Int32 Unit
  | adjfine _ _ => Except Int32 Unit
  | getcrosststamp _ => Except Int32 SystemDeviceCrosststamp

variable (chips : Nat → Chip) (hw : Ath9kHw Power) (mdev : Mt76Hw Power)

/-- The function of the driver that is called; without a `getcrosststamp` the PTP core answers. -/
def code : (call : ClockCall) → DriverProg Power call.Answer
  | gettime64 d =>
    match chips d with
    | .ath9k => clockGettime64 d (hw.gettsf64 d)
    | .mt76 hasPtpOps => mt76PtpGettime64 d (ptpOpsOf mdev hasPtpOps)
    | .rtw88 => clockGettime64 d (rtwReadTsf rtw88Registers d)
    | .rtw89 => clockGettime64 d (rtwReadTsf rtw89Registers d)
  | settime64 d ts =>
    match chips d with
    | .ath9k => clockSettime64 d (hw.settsf64 d) ts
    | .mt76 hasPtpOps => mt76PtpSettime64 d (ptpOpsOf mdev hasPtpOps) ts
    | .rtw88 => clockSettime64 d (rtwWriteTsf rtw88Registers d) ts
    | .rtw89 => clockSettime64 d (rtwWriteTsf rtw89Registers d) ts
  | adjtime d deltaNs =>
    match chips d with
    | .ath9k => clockAdjtime d (hw.gettsf64 d) (hw.settsf64 d) deltaNs
    | .mt76 hasPtpOps => mt76PtpAdjtime d (ptpOpsOf mdev hasPtpOps) deltaNs
    | .rtw88 => clockAdjtime d (rtwReadTsf rtw88Registers d) (rtwWriteTsf rtw88Registers d) deltaNs
    | .rtw89 => clockAdjtime d (rtwReadTsf rtw89Registers d) (rtwWriteTsf rtw89Registers d) deltaNs
  | adjfine _ _ => return .ok ()
  | getcrosststamp d =>
    match chips d with
    | .mt76 hasPtpOps => mt76PtpGetcrosststamp d (ptpOpsOf mdev hasPtpOps)
    | _ => return .error (-eopnotsupp)

end ClockCall

/-! ## The operations, without locks -/

/-- Programs that access the devices. -/
abbrev RegsProg (Power : Type) := Prog (Nat → Regs Power) Empty

/-- What runtime power management makes of what it keeps of a device when the device is woken and when it is let go, and
whether the device is awake. -/
structure PowerManagement (Power : Type) where
  woken : Power → Power
  released : Power → Power
  awake : Power → Prop

/-- A device whose counter has been accessed and is `tsf` now; mt792x leaves it in `UTTR0` and `UTTR1`, and has been woken
and let go. -/
def Chip.accessed (pm : PowerManagement Power) (chip : Chip) (tsf : UInt64) (r : Regs Power) : Regs Power :=
  match chip with
  | .mt76 _ => ⟨tsf, tsf, pm.released (pm.woken r.power)⟩
  | _ => { r with tsf }

/-- The driver reaches the counter. -/
def Chip.hasTsf : Chip → Bool
  | .mt76 hasPtpOps => hasPtpOps
  | _ => true

/-- The driver has a `getcrosststamp`, and reaches the counter. -/
def Chip.hasCrosststamp : Chip → Bool
  | .mt76 hasPtpOps => hasPtpOps
  | _ => false

/-- One action on a device: what it gives, and how the device is then. -/
def accessDevice (d : Nat) (f : Regs Power → α × Regs Power) : RegsProg Power (Except Int32 α) :=
  .act (fun t => update t d (f (t d)).2) fun t => .ret (.ok (f (t d)).1)

section Spec

variable (chips : Nat → Chip) (pm : PowerManagement Power)

/-- An operation as one action. -/
def ClockCall.spec (s₀ : Machine Power) : (call : ClockCall) → RegsProg Power call.Answer
  | gettime64 d =>
    if (chips d).hasTsf then accessDevice d fun r => (timeOfTsf r.tsf, (chips d).accessed pm r.tsf r)
    else return .error (-eopnotsupp)
  | settime64 d ts =>
    if (chips d).hasTsf then
      accessDevice d fun r => ((), (chips d).accessed pm ((timespec64ToNs ts).toUInt64 / 1000) r)
    else return .error (-eopnotsupp)
  | adjtime d deltaNs =>
    if (chips d).hasTsf then
      accessDevice d fun r =>
        ((), (chips d).accessed pm (r.tsf + (deltaNs / nsecPerUsec).toUInt64) ((chips d).accessed pm r.tsf r))
    else return .error (-eopnotsupp)
  | adjfine _ _ => return .ok ()
  | getcrosststamp d =>
    if (chips d).hasCrosststamp then
      accessDevice d fun r => (⟨r.tsf.toInt64 * 1000, s₀.ktimeReal, s₀.ktimeRaw⟩, (chips d).accessed pm r.tsf r)
    else return .error (-eopnotsupp)

end Spec

/-! ## Inside a critical section -/

/-- A device is protected by its mutex; the clocks of the system stand still. -/
def regsLayout (s₀ : Machine Power) : Layout (Machine Power) Nat (Regs Power) Nat where
  part := fun d s => s.regs d
  of := some
  ok := fun s => s.ktimeRaw = s₀.ktimeRaw ∧ s.ktimeReal = s₀.ktimeReal
  unique := by
    rintro l l' d ⟨⟩ ⟨⟩
    rfl

theorem of_mutex {s₀ : Machine Power} (d : Nat) : (regsLayout s₀).of d = some d := rfl

section Within

variable {s₀ : Machine Power} {d : Nat} {r : Regs Power} {regs : SplitCounter.Registers} {tsf : UInt64}

theorem within_peek {f : Regs Power → β} : Within (regsLayout s₀) d (peek d f) r (f r) r := by
  apply within_read
  rintro s - rfl
  rfl

theorem within_change {f : Regs Power → Regs Power} {r' : Regs Power} (hf : f r = r') :
    Within (regsLayout s₀) d (Prog.modify (Machine.change d f) : DriverProg Power Unit) r () r' := by
  apply within_modify
  rintro s hs rfl
  exact ⟨hs, fun e he => update_of_ne he _ _, (update_self _ _ _).trans hf⟩

/-- The Realtek reader finds the upper half unchanged. -/
theorem within_rtwReadTsf : Within (regsLayout s₀) d (rtwReadTsf regs d) r r.tsf r := by
  refine within_bind within_peek (within_bind within_peek (within_bind within_peek ?_))
  rw [SplitCounter.shown_high, SplitCounter.shown_low, if_neg (not_not.mpr rfl), SplitCounter.join_halves]
  exact within_pure _

theorem within_rtwWriteTsf : Within (regsLayout s₀) d (rtwWriteTsf regs d tsf) r () { r with tsf } := by
  refine within_bind (within_change rfl) (within_change ?_)
  rw [SplitCounter.put_low, SplitCounter.put_high, SplitCounter.lowHalf_join, lowHalf_and, SplitCounter.join_halves]

/-- Alone, with the counter at rest, these are the accesses to a running counter. -/
theorem run_rtwReadTsf (s : Machine Power) :
    ((rtwReadTsf regs d).run s).1 = (readTsf regs (fun _ => 0) ⟨(s.regs d).tsf, []⟩).1 := by
  have hrest : ∀ dev addr, (afterRead (fun _ => 0) addr dev).counter = dev.counter := by
    intro dev addr
    simp [afterRead, SplitCounter.Device.next]
  rw [readTsf_run]
  simp only [hrest, if_true, SplitCounter.join_halves]
  simp [rtwReadTsf, rtwRead32, peek, SplitCounter.join_halves]

theorem run_rtwWriteTsf (s : Machine Power) : (((rtwWriteTsf regs d tsf).run s).2.regs d).tsf =
    (writeTsf regs (fun _ => 0) tsf ⟨(s.regs d).tsf, []⟩).2.counter := by
  rw [counter_writeTsf]
  simp [rtwWriteTsf, rtwWrite32, Machine.change, SplitCounter.lowHalf_join, lowHalf_and]

/-- What ath9k has outside its patch reads the counter of the device and writes it, and touches nothing else. -/
structure Ath9kHw.Documented (hw : Ath9kHw Power) : Prop where
  gettsf64 : ∀ s₀ d r, Within (regsLayout s₀) d (hw.gettsf64 d) r r.tsf r
  settsf64 : ∀ s₀ d r tsf, Within (regsLayout s₀) d (hw.settsf64 d tsf) r () { r with tsf }

/-- What mt76 has outside its patches: `mt76_connac_pm_wake` wakes the device and `mt76_connac_pm_unref` lets it go, and of
a device that is awake `UTTR0` and `UTTR1` can be read and written, `MT_LPON_TCR_SW_MODE` latches the counter to them and
`MT_LPON_TCR_SW_WRITE` latches them to the counter. They touch nothing else. -/
structure Mt76Hw.Documented (mdev : Mt76Hw Power) (pm : PowerManagement Power) : Prop where
  connacPmWake : ∀ s₀ d r, Within (regsLayout s₀) d (mdev.connacPmWake d) r () { r with power := pm.woken r.power }
  awake : ∀ p, pm.awake (pm.woken p)
  connacPmUnref : ∀ s₀ d r, Within (regsLayout s₀) d (mdev.connacPmUnref d) r () { r with power := pm.released r.power }
  rrUttr0 : ∀ s₀ d r, pm.awake r.power →
    Within (regsLayout s₀) d (mdev.rr d .uttr0) r (SplitCounter.lowHalf r.uttr) r
  rrUttr1 : ∀ s₀ d r, pm.awake r.power →
    Within (regsLayout s₀) d (mdev.rr d .uttr1) r (SplitCounter.highHalf r.uttr) r
  wrUttr0 : ∀ s₀ d r v, pm.awake r.power → Within (regsLayout s₀) d (mdev.wr d .uttr0 v) r ()
    { r with uttr := SplitCounter.join (SplitCounter.highHalf r.uttr) v }
  wrUttr1 : ∀ s₀ d r v, pm.awake r.power → Within (regsLayout s₀) d (mdev.wr d .uttr1 v) r ()
    { r with uttr := SplitCounter.join v (SplitCounter.lowHalf r.uttr) }
  setSwMode : ∀ s₀ d r, pm.awake r.power →
    Within (regsLayout s₀) d (mdev.set d .tcr .swMode) r () { r with uttr := r.tsf }
  setSwWrite : ∀ s₀ d r, pm.awake r.power →
    Within (regsLayout s₀) d (mdev.set d .tcr .swWrite) r () { r with tsf := r.uttr }

section Mt792x

variable {mdev : Mt76Hw Power} {pm : PowerManagement Power}

theorem within_mt792xPtpTsfRead (hmt : mdev.Documented pm) : Within (regsLayout s₀) d (mt792xPtpTsfRead mdev d) r r.tsf
    ⟨r.tsf, r.tsf, pm.released (pm.woken r.power)⟩ := by
  have hawake := hmt.awake r.power
  refine within_bind (hmt.connacPmWake ..) (within_bind (hmt.setSwMode _ _ _ hawake) ?_)
  refine within_bind (hmt.rrUttr0 _ _ _ hawake) (within_bind (hmt.rrUttr1 _ _ _ hawake) ?_)
  refine within_bind (hmt.connacPmUnref ..) ?_
  rw [SplitCounter.join_halves]
  exact within_pure _

theorem within_mt792xPtpTsfWrite (hmt : mdev.Documented pm) : Within (regsLayout s₀) d (mt792xPtpTsfWrite mdev d tsf) r ()
    ⟨tsf, tsf, pm.released (pm.woken r.power)⟩ := by
  have hawake := hmt.awake r.power
  refine within_bind (hmt.connacPmWake ..) (within_bind (hmt.wrUttr0 _ _ _ _ hawake) ?_)
  refine within_bind (hmt.wrUttr1 _ _ _ _ hawake) ?_
  rw [SplitCounter.lowHalf_join, SplitCounter.join_halves]
  exact within_bind (hmt.setSwWrite _ _ _ hawake) (hmt.connacPmUnref ..)

end Mt792x

end Within

/-! ## The operations -/

section Operations

variable {s₀ : Machine Power} {chip : Chip} {pm : PowerManagement Power} {mdev : Mt76Hw Power} {d : Nat}
  {readTsf : DriverProg Power UInt64} {writeTsf : UInt64 → DriverProg Power Unit}

/-- The critical section of an operation. -/
theorem atomically_accessDevice {p : DriverProg Power (Except Int32 α)} {f : Regs Power → α × Regs Power}
    (hp : ∀ r, Atomically (regsLayout s₀) (some (d, r, (f r).2)) p (pure (.ok (f r).1))) :
    Atomically (regsLayout s₀) none (Prog.acquire d >>= fun _ => p) (accessDevice d f) :=
  atomically_section (f := fun _ => p) (g := fun r => (f r).2)
    (k := fun r => (pure (.ok (f r).1) : RegsProg Power (Except Int32 α))) (of_mutex d) hp

/-- What reads and writes the counter of a device, inside a critical section. -/
structure Serves (s₀ : Machine Power) (chip : Chip) (pm : PowerManagement Power) (d : Nat)
    (readTsf : DriverProg Power UInt64) (writeTsf : UInt64 → DriverProg Power Unit) : Prop where
  read : ∀ r, Within (regsLayout s₀) d readTsf r r.tsf (chip.accessed pm r.tsf r)
  write : ∀ r tsf, Within (regsLayout s₀) d (writeTsf tsf) r () (chip.accessed pm tsf r)

theorem Serves.gettime64 (h : Serves s₀ chip pm d readTsf writeTsf) :
    Atomically (regsLayout s₀) none (clockGettime64 d readTsf)
      (accessDevice d fun r => (timeOfTsf r.tsf, chip.accessed pm r.tsf r)) := by
  apply atomically_accessDevice
  intro r
  exact atomically_within_bind (h.read r) (atomically_end_bind (of_mutex d) (atomically_pure _))

theorem Serves.settime64 (h : Serves s₀ chip pm d readTsf writeTsf) (ts : Timespec64) :
    Atomically (regsLayout s₀) none (clockSettime64 d writeTsf ts)
      (accessDevice d fun r => ((), chip.accessed pm ((timespec64ToNs ts).toUInt64 / 1000) r)) := by
  apply atomically_accessDevice
  intro r
  exact atomically_within_bind (h.write r _) (atomically_end_bind (of_mutex d) (atomically_pure _))

theorem Serves.adjtime (h : Serves s₀ chip pm d readTsf writeTsf) (deltaNs : Int64) :
    Atomically (regsLayout s₀) none (clockAdjtime d readTsf writeTsf deltaNs) (accessDevice d fun r =>
      ((), chip.accessed pm (r.tsf + (deltaNs / nsecPerUsec).toUInt64) (chip.accessed pm r.tsf r))) := by
  apply atomically_accessDevice
  intro r
  refine atomically_within_bind (h.read r) (atomically_within_bind (h.write _ _) ?_)
  exact atomically_end_bind (of_mutex d) (atomically_pure _)

/-- The cross timestamp of mt76 looks at the clocks of the system before and after the counter. -/
theorem Serves.getcrosststamp (h : Serves s₀ chip pm d (mt792xPtpTsfRead mdev d) (mt792xPtpTsfWrite mdev d)) :
    Atomically (regsLayout s₀) none (mt76PtpGetcrosststamp d (some (mt792xPtpOps mdev))) (accessDevice d fun r =>
      (⟨r.tsf.toInt64 * 1000, s₀.ktimeReal, s₀.ktimeRaw⟩, chip.accessed pm r.tsf r)) := by
  apply atomically_accessDevice
  intro r
  refine atomically_within_bind (within_read fun s hs _ => hs.1) ?_
  refine atomically_within_bind (h.read r) (atomically_within_bind (within_read fun s hs _ => hs.2) ?_)
  exact atomically_end_bind (of_mutex d) (atomically_pure _)

/-! Each driver serves its devices. -/

theorem serves_ath9k {hw : Ath9kHw Power} (hhw : hw.Documented) :
    Serves s₀ .ath9k pm d (hw.gettsf64 d) (hw.settsf64 d) :=
  ⟨fun r => hhw.gettsf64 s₀ d r, fun r tsf => hhw.settsf64 s₀ d r tsf⟩

theorem serves_mt792x (hmt : mdev.Documented pm) :
    Serves s₀ (.mt76 true) pm d (mt792xPtpTsfRead mdev d) (mt792xPtpTsfWrite mdev d) :=
  ⟨fun _ => within_mt792xPtpTsfRead hmt, fun _ _ => within_mt792xPtpTsfWrite hmt⟩

theorem serves_rtw88 : Serves s₀ .rtw88 pm d (rtwReadTsf rtw88Registers d) (rtwWriteTsf rtw88Registers d) :=
  ⟨fun _ => within_rtwReadTsf, fun _ _ => within_rtwWriteTsf⟩

theorem serves_rtw89 : Serves s₀ .rtw89 pm d (rtwReadTsf rtw89Registers d) (rtwWriteTsf rtw89Registers d) :=
  ⟨fun _ => within_rtwReadTsf, fun _ _ => within_rtwWriteTsf⟩

end Operations

/-! ## Threads that call the clocks -/

section Threads

variable {s₀ : Machine Power} {chips : Nat → Chip} {hw : Ath9kHw Power} {mdev : Mt76Hw Power}
  {pm : PowerManagement Power}

theorem atomically_clockCall (hhw : hw.Documented) (hmt : mdev.Documented pm) (call : ClockCall) :
    Atomically (regsLayout s₀) none (call.code chips hw mdev) (call.spec chips pm s₀) := by
  cases call with
  | gettime64 d =>
    simp only [ClockCall.code, ClockCall.spec]
    cases chips d with
    | ath9k => exact (serves_ath9k hhw).gettime64
    | mt76 hasPtpOps => cases hasPtpOps with
      | false => exact atomically_pure _
      | true => exact (serves_mt792x hmt).gettime64
    | rtw88 => exact serves_rtw88.gettime64
    | rtw89 => exact serves_rtw89.gettime64
  | settime64 d ts =>
    simp only [ClockCall.code, ClockCall.spec]
    cases chips d with
    | ath9k => exact (serves_ath9k hhw).settime64 ts
    | mt76 hasPtpOps => cases hasPtpOps with
      | false => exact atomically_pure _
      | true => exact (serves_mt792x hmt).settime64 ts
    | rtw88 => exact serves_rtw88.settime64 ts
    | rtw89 => exact serves_rtw89.settime64 ts
  | adjtime d deltaNs =>
    simp only [ClockCall.code, ClockCall.spec]
    cases chips d with
    | ath9k => exact (serves_ath9k hhw).adjtime deltaNs
    | mt76 hasPtpOps => cases hasPtpOps with
      | false => exact atomically_pure _
      | true => exact (serves_mt792x hmt).adjtime deltaNs
    | rtw88 => exact serves_rtw88.adjtime deltaNs
    | rtw89 => exact serves_rtw89.adjtime deltaNs
  | adjfine d scaledPpm => exact atomically_pure (.ok () : Except Int32 Unit)
  | getcrosststamp d =>
    simp only [ClockCall.code, ClockCall.spec]
    cases chips d with
    | mt76 hasPtpOps => cases hasPtpOps with
      | false => exact atomically_pure _
      | true => exact (serves_mt792x hmt).getcrosststamp
    | ath9k | rtw88 | rtw89 => exact atomically_pure _

/-- **The register-based drivers are atomic**: whatever threads call the clocks of any devices and under every schedule,
threads whose operations are single accesses can take some of the steps, in their order, and then have been answered the
same, see every device whose mutex is free as it is, and have ended if the others have. -/
theorem register_calls_atomic {ι : Type} [DecidableEq ι] {clients : ι → Client ClockCall ClockCall.Answer}
    {sched : List ι} {pool : Pool ι (Machine Power) Nat} (hhw : hw.Documented) (hmt : mdev.Documented pm)
    (hrun : Pool.runs sched (.start (fun i => (clients i).prog (ClockCall.code chips hw mdev)) s₀) = some pool) :
    ∃ sched' pool', List.Sublist sched' sched ∧
      Pool.runs sched' (.start (fun i => (clients i).prog (ClockCall.spec chips pm s₀)) s₀.regs) = some pool' ∧
      (∀ d, pool.holder d = none → pool'.state d = pool.state.regs d) ∧
      (∀ i, pool.prog i = .ret () → pool'.prog i = .ret ()) ∧
      ((∀ i, pool.prog i = .ret ()) → pool'.state = pool.state.regs) := by
  have hclients : ∀ i, Atomically (regsLayout s₀) none ((clients i).prog (ClockCall.code chips hw mdev))
      ((clients i).prog (ClockCall.spec chips pm s₀)) := fun i => atomically_client (atomically_clockCall hhw hmt) (clients i)
  obtain ⟨sched', pool', hsub, hruns, hfree, hret, hall⟩ := Pool.atomic hclients ⟨rfl, rfl⟩ hrun
  refine ⟨sched', pool', hsub, hruns, fun d hd => hfree d ?_, hret, hall⟩
  rintro l ⟨⟩
  exact hd

/-- A Realtek device and one of mt76. -/
def twoChips (d : Nat) : Chip := if d = 0 then .rtw88 else .mt76 true

/-- Their counters at 100 and 500. -/
def twoDevices : Machine Nat := ⟨fun d => if d = 0 then ⟨100, 0, 0⟩ else ⟨500, 0, 0⟩, 0, 0⟩

/-- The counter of ath9k, read and written at once. -/
def plainHw : Ath9kHw Nat :=
  ⟨fun d => peek d Regs.tsf, fun d tsf => Prog.modify (Machine.change d fun r => { r with tsf })⟩

/-- A device is awake while it has been woken more often than let go. -/
def counting : PowerManagement Nat := ⟨(· + 1), (· - 1), (· ≠ 0)⟩

/-- A device that counts how often it is woken; while it sleeps its registers read as all ones and ignore writes. -/
def countingHw : Mt76Hw Nat where
  connacPmWake := fun d => Prog.modify (Machine.change d fun r => { r with power := r.power + 1 })
  connacPmUnref := fun d => Prog.modify (Machine.change d fun r => { r with power := r.power - 1 })
  rr := fun d reg => peek d fun r =>
    if r.power = 0 then 0xFFFFFFFF else
      match reg with
      | .tcr => 0
      | .uttr0 => SplitCounter.lowHalf r.uttr
      | .uttr1 => SplitCounter.highHalf r.uttr
  wr := fun d reg v => Prog.modify (Machine.change d fun r =>
    if r.power = 0 then r else
      match reg with
      | .tcr => r
      | .uttr0 => { r with uttr := SplitCounter.join (SplitCounter.highHalf r.uttr) v }
      | .uttr1 => { r with uttr := SplitCounter.join v (SplitCounter.lowHalf r.uttr) })
  set := fun d reg bits => Prog.modify (Machine.change d fun r =>
    if r.power = 0 then r else
      match reg, bits with
      | .tcr, .swMode => { r with uttr := r.tsf }
      | .tcr, .swWrite => { r with tsf := r.uttr }
      | _, _ => r)

theorem documented_countingHw : countingHw.Documented counting where
  connacPmWake := fun _ _ _ => within_change rfl
  awake := fun p => Nat.succ_ne_zero p
  connacPmUnref := fun _ _ _ => within_change rfl
  rrUttr0 := fun _ _ _ h => within_read (by rintro s - rfl; exact if_neg h)
  rrUttr1 := fun _ _ _ h => within_read (by rintro s - rfl; exact if_neg h)
  wrUttr0 := fun _ _ _ _ h => within_change (if_neg h)
  wrUttr1 := fun _ _ _ _ h => within_change (if_neg h)
  setSwMode := fun _ _ _ h => within_change (if_neg h)
  setSwWrite := fun _ _ _ h => within_change (if_neg h)

/-- A thread that sets the second device to what the first shows, and one that shifts both. -/
def setterAndShifter : Bool → Client ClockCall ClockCall.Answer
  | true => .ask (.gettime64 0) fun
    | .ok ts => .ask (.settime64 1 ts) fun _ => .done
    | .error _ => .done
  | false => .ask (.adjtime 0 20000) fun _ => .ask (.adjtime 1 30000) fun _ => .done

/-- A schedule on which the two take turns. -/
def registerTurns : List Bool :=
  List.replicate 5 true ++ List.replicate 3 false ++ List.replicate 4 true ++ List.replicate 4 false ++
    List.replicate 3 true ++ List.replicate 12 false

theorem register_calls_atomic_run : ∃ sched' pool', List.Sublist sched' registerTurns ∧
    Pool.runs sched' (.start (fun i => (setterAndShifter i).prog (ClockCall.spec twoChips counting twoDevices))
      twoDevices.regs) = some pool' ∧ (pool'.state 0).tsf = 120 ∧ (pool'.state 1).tsf = 130 := by
  have hhw : plainHw.Documented := ⟨fun _ _ _ => within_peek, fun _ _ _ _ => within_change rfl⟩
  obtain ⟨pool, hrun, hended, h₀, h₁⟩ : ∃ pool, Pool.runs registerTurns
      (.start (fun i => (setterAndShifter i).prog (ClockCall.code twoChips plainHw countingHw)) twoDevices) = some pool ∧
      (∀ i, pool.prog i = .ret ()) ∧ (pool.state.regs 0).tsf = 120 ∧ (pool.state.regs 1).tsf = 130 :=
    ⟨_, rfl, by rintro (_ | _) <;> rfl, rfl, rfl⟩
  obtain ⟨sched', pool', hsub, hruns, -, -, hall⟩ := register_calls_atomic hhw documented_countingHw hrun
  rw [← hall hended] at h₀ h₁
  exact ⟨sched', pool', hsub, hruns, h₀, h₁⟩

end Threads

end TsfSync.Drivers
