import TsfSync.Kernel.Filter
import TsfSync.Lib.SplitCounter

/-!
# The TSF registers of rtw88 and rtw89

Both Realtek patches read and write the running TSF in two halves, with the same code over their own registers. The
reader looks at the upper half before and after the lower one and reads again if it changed, and so returns the counter at
one of its reads of the lower half (`read_tsf_torn_free`). The writer has no such guard: between its two writes the lower
half may overflow into the upper half that it replaces next (`write_tsf_exact_iff`). The calls hold the mutex of the
device, so nothing else comes between the accesses.
-/

namespace TsfSync.Drivers

open TsfSync SplitCounter MachineWord

/-! ## The drivers -/

section

variable (regs : Registers) (delay : Nat → Nat)

/-- The high-low-high read sequence. -/
def readTsf : StateM Device UInt64 := do
  let mut hi ← read32 regs delay regs.high
  let mut lo ← read32 regs delay regs.low
  let hi2 ← read32 regs delay regs.high
  if hi ≠ hi2 then
    lo ← read32 regs delay regs.low
    hi := hi2
  return join hi lo

/-- The low half, then the high half. -/
def writeTsf (tsf : UInt64) : StateM Device Unit := do
  write32 regs delay regs.low (lowHalf (tsf &&& 0xFFFFFFFF))
  write32 regs delay regs.high (highHalf tsf)

/-- `settime64`: `div_u64(timespec64_to_ns(ts), NSEC_PER_USEC)` is written. -/
def settime64 (ts : Timespec64) : StateM Device Int32 := do
  writeTsf regs delay ((timespec64ToNs ts).toUInt64 / 1000)
  return 0

/-- `adjtime`: the TSF is read, and written with `div_s64(delta_ns, NSEC_PER_USEC)` added. -/
def adjtime (deltaNs : Int64) : StateM Device Int32 := do
  let deltaUsec := deltaNs / nsecPerUsec
  let tsf ← readTsf regs delay
  writeTsf regs delay (tsf + deltaUsec.toUInt64)
  return 0

end

/-- `REG_TSFTR_LOW` and `REG_TSFTR_HIGH`. -/
def rtw88Registers : Registers := ⟨0x0560, 0x0564, by decide⟩

/-- `R_AX_TSFTR_LOW_P0` and `R_AX_TSFTR_HIGH_P0`. -/
def rtw89Registers : Registers := ⟨0xC438, 0xC43C, by decide⟩

/-- `rtw88_read_tsf`. -/
def rtw88ReadTsf : (Nat → Nat) → StateM Device UInt64 := readTsf rtw88Registers

/-- `rtw88_write_tsf`. -/
def rtw88WriteTsf : (Nat → Nat) → UInt64 → StateM Device Unit := writeTsf rtw88Registers

/-- `rtw88_ptp_settime64`. -/
def rtw88PtpSettime64 : (Nat → Nat) → Timespec64 → StateM Device Int32 := settime64 rtw88Registers

/-- `rtw88_ptp_adjtime`. -/
def rtw88PtpAdjtime : (Nat → Nat) → Int64 → StateM Device Int32 := adjtime rtw88Registers

/-- `rtw89_ptp_read_tsf`. -/
def rtw89PtpReadTsf : (Nat → Nat) → StateM Device UInt64 := readTsf rtw89Registers

/-- `rtw89_ptp_write_tsf`. -/
def rtw89PtpWriteTsf : (Nat → Nat) → UInt64 → StateM Device Unit := writeTsf rtw89Registers

/-- `rtw89_ptp_settime64`. -/
def rtw89PtpSettime64 : (Nat → Nat) → Timespec64 → StateM Device Int32 := settime64 rtw89Registers

/-- `rtw89_ptp_adjtime`. -/
def rtw89PtpAdjtime : (Nat → Nat) → Int64 → StateM Device Int32 := adjtime rtw89Registers

/-! ## Reading -/

section

variable (regs : Registers) (delay : Nat → Nat)

/-- The device after a read of a register. -/
def afterRead (addr : Nat) (d : Device) : Device := d.accessed delay addr (d.next delay)

theorem read32_high (d : Device) : read32 regs delay regs.high d =
    (highHalf (afterRead delay regs.high d).counter, afterRead delay regs.high d) := by
  rw [read32, shown_high]
  rfl

theorem read32_low (d : Device) : read32 regs delay regs.low d =
    (lowHalf (afterRead delay regs.low d).counter, afterRead delay regs.low d) := by
  rw [read32, shown_low]
  rfl

/-- What a read of the TSF returns, and the accesses that it makes. -/
theorem readTsf_run (d : Device) :
    let d₁ := afterRead delay regs.high d
    let d₂ := afterRead delay regs.low d₁
    let d₃ := afterRead delay regs.high d₂
    let d₄ := afterRead delay regs.low d₃
    readTsf regs delay d =
      if highHalf d₁.counter = highHalf d₃.counter then (join (highHalf d₁.counter) (lowHalf d₂.counter), d₃)
      else (join (highHalf d₃.counter) (lowHalf d₄.counter), d₄) := by
  intro d₁ d₂ d₃ d₄
  simp only [readTsf, bind, StateT.bind, pure, read32_high, read32_low]
  by_cases h : highHalf d₁.counter = highHalf d₃.counter
  · rw [if_pos h, if_neg (not_not.mpr h)]
    rfl
  · rw [if_neg h, if_pos h]
    simp only [StateT.bind, read32_low]
    rfl

end

/-- A read that takes less than `2^32` ticks returns the counter at one of its reads of the lower half. -/
def TornFree (regs : Registers) (call : UInt64 × Device) : Prop :=
  call.2.elapsed < 2 ^ 32 → ∃ a ∈ call.2.log, a.addr = regs.low ∧ a.counter = call.1

theorem readTsf_tornFree (regs : Registers) (delay : Nat → Nat) (counter : UInt64) :
    TornFree regs (readTsf regs delay ⟨counter, []⟩) := by
  let d₁ := afterRead delay regs.high ⟨counter, []⟩
  let d₂ := afterRead delay regs.low d₁
  let d₃ := afterRead delay regs.high d₂
  let d₄ := afterRead delay regs.low d₃
  have h₂ : d₂.counter = d₁.counter + UInt64.ofNat (delay 1) := rfl
  have h₃ : d₃.counter = d₁.counter + UInt64.ofNat (delay 1 + delay 2) := by
    rw [UInt64.ofNat_add, ← UInt64.add_assoc]
    rfl
  have h₄ : d₄.counter = d₃.counter + UInt64.ofNat (delay 3) := rfl
  have hrun := readTsf_run regs delay ⟨counter, []⟩
  change readTsf regs delay ⟨counter, []⟩ = if highHalf d₁.counter = highHalf d₃.counter then
    (join (highHalf d₁.counter) (lowHalf d₂.counter), d₃) else
    (join (highHalf d₃.counter) (lowHalf d₄.counter), d₄) at hrun
  rw [hrun]
  split
  · rename_i hsame
    intro (hticks : delay 1 + (delay 2 + 0) < 2 ^ 32)
    refine ⟨⟨regs.low, delay 1, d₂.counter⟩, ?_, rfl, ?_⟩
    · exact List.mem_cons_of_mem _ List.mem_cons_self
    · rw [h₃] at hsame
      rw [h₂]
      exact (join_of_no_carry hsame hticks).symm
  · rename_i hcarry
    intro (hticks : delay 1 + (delay 2 + (delay 3 + 0)) < 2 ^ 32)
    refine ⟨⟨regs.low, delay 3, d₄.counter⟩, ?_, rfl, ?_⟩
    · exact List.mem_append_right _ List.mem_cons_self
    · rw [h₃] at hcarry
      rw [h₄, h₃]
      exact (join_of_carry hcarry (by omega)).symm

/-- **Neither Realtek driver reads a torn TSF.** -/
theorem read_tsf_torn_free (delay : Nat → Nat) (counter : UInt64) :
    TornFree rtw88Registers (rtw88ReadTsf delay ⟨counter, []⟩) ∧
      TornFree rtw89Registers (rtw89PtpReadTsf delay ⟨counter, []⟩) :=
  ⟨readTsf_tornFree rtw88Registers delay counter, readTsf_tornFree rtw89Registers delay counter⟩

/-- The lower half overflows between the first two reads, and is read again. -/
theorem read_tsf_torn_free_carry : ∃ a ∈ (rtw88ReadTsf (fun _ => 1) ⟨0xFFFFFFFE, []⟩).2.log,
    a.addr = rtw88Registers.low ∧ a.counter = (rtw88ReadTsf (fun _ => 1) ⟨0xFFFFFFFE, []⟩).1 :=
  (read_tsf_torn_free (fun _ => 1) 0xFFFFFFFE).1 (by decide)

/-! ## Writing -/

/-- Right after the second write the counter is the target and the ticks since the first. -/
def WritesExactly (target : UInt64) (d : Device) : Prop := d.counter = target + UInt64.ofNat d.lastElapsed

section

variable (regs : Registers) (delay : Nat → Nat)

theorem lowHalf_and (tsf : UInt64) : lowHalf (tsf &&& 0xFFFFFFFF) = lowHalf tsf := by
  have hmask : (0xFFFFFFFF : UInt64).toNat = 2 ^ 32 - 1 := rfl
  rw [← UInt32.toNat_inj, toNat_lowHalf, toNat_lowHalf, UInt64.toNat_and, hmask, Nat.and_two_pow_sub_one_eq_mod,
    Nat.mod_mod]

theorem counter_writeTsf (target : UInt64) (d : Device) : (writeTsf regs delay target d).2.counter =
    join (highHalf target) (lowHalf (join (highHalf (d.next delay)) (lowHalf target) +
      UInt64.ofNat (delay (d.log.length + 1)))) := by
  simp only [writeTsf, lowHalf_and, bind, StateT.bind, write32, put_low, put_high, counter_accessed, Device.next,
    length_log_accessed]

theorem lastElapsed_writeTsf (target : UInt64) (d : Device) :
    (writeTsf regs delay target d).2.lastElapsed = delay (d.log.length + 1) := by
  simp only [writeTsf, bind, StateT.bind, write32, lastElapsed_accessed, length_log_accessed]

/-- A write is exact exactly if the lower half of the target does not overflow before the upper half is written. -/
theorem writesExactly_iff (target : UInt64) (d : Device) (ht : delay (d.log.length + 1) < 2 ^ 32) :
    WritesExactly target (writeTsf regs delay target d).2 ↔
      target.toNat % 2 ^ 32 + delay (d.log.length + 1) < 2 ^ 32 := by
  rw [WritesExactly, counter_writeTsf, lastElapsed_writeTsf]
  exact put_halves_iff target ht

theorem settime64_writesExactly_iff (ts : Timespec64) (d : Device) (ht : delay (d.log.length + 1) < 2 ^ 32) :
    WritesExactly ((timespec64ToNs ts).toUInt64 / 1000) (settime64 regs delay ts d).2 ↔
      ((timespec64ToNs ts).toUInt64 / 1000).toNat % 2 ^ 32 + delay (d.log.length + 1) < 2 ^ 32 :=
  writesExactly_iff regs delay _ d ht

/-- `adjtime` writes the TSF that it read and the delta in whole microseconds. -/
theorem adjtime_run (deltaNs : Int64) (d : Device) : (adjtime regs delay deltaNs d).2 =
    (writeTsf regs delay (addDeltaNs (readTsf regs delay d).1 deltaNs) (readTsf regs delay d).2).2 := rfl

/-- The clock has been moved by a delta, truncated to microseconds, from the TSF that was read, up to the ticks that
elapsed between the two writes. -/
def MovesBy (deltaNs : Int64) (tsf : UInt64) (d : Device) : Prop :=
  (d.counter.toNat : Int) = (tsf.toNat + deltaNs.toInt.tdiv 1000 + d.lastElapsed) % 2 ^ 64

/-- To move the clock is to write the sum exactly. -/
theorem movesBy_iff (deltaNs : Int64) (tsf : UInt64) (d : Device) :
    MovesBy deltaNs tsf d ↔ WritesExactly (addDeltaNs tsf deltaNs) d := by
  have hsum := toNat_addDeltaNs tsf deltaNs
  have hlt := d.counter.toNat_lt
  rw [MovesBy, WritesExactly, ← UInt64.toNat_inj, toNat_add_ofNat]
  omega

theorem adjtime_movesBy_iff (deltaNs : Int64) (d : Device) (ht : delay ((readTsf regs delay d).2.log.length + 1) < 2 ^ 32) :
    MovesBy deltaNs (readTsf regs delay d).1 (adjtime regs delay deltaNs d).2 ↔
      ((readTsf regs delay d).1.toNat + deltaNs.toInt.tdiv 1000) % 2 ^ 32 +
        delay ((readTsf regs delay d).2.log.length + 1) < 2 ^ 32 := by
  have hsum := toNat_addDeltaNs (readTsf regs delay d).1 deltaNs
  rw [movesBy_iff, adjtime_run, writesExactly_iff regs delay _ _ ht]
  omega

end

/-- Where less than `2^32` ticks elapse between its two register writes, a write of a TSF is exact exactly if the lower
half of the target does not overflow in them. -/
def ExactUnlessCarry (write : (Nat → Nat) → UInt64 → StateM Device Unit) (delay : Nat → Nat) (target : UInt64)
    (d : Device) : Prop :=
  delay (d.log.length + 1) < 2 ^ 32 →
    (WritesExactly target (write delay target d).2 ↔ target.toNat % 2 ^ 32 + delay (d.log.length + 1) < 2 ^ 32)

/-- Where less than `2^32` ticks elapse between its two register writes, an adjustment moves the clock exactly if the
lower half of the TSF that it reads and the delta do not overflow in them. -/
def MovesUnlessCarry (read : (Nat → Nat) → StateM Device UInt64) (adjtime : (Nat → Nat) → Int64 → StateM Device Int32)
    (delay : Nat → Nat) (deltaNs : Int64) (d : Device) : Prop :=
  delay ((read delay d).2.log.length + 1) < 2 ^ 32 →
    (MovesBy deltaNs (read delay d).1 (adjtime delay deltaNs d).2 ↔
      ((read delay d).1.toNat + deltaNs.toInt.tdiv 1000) % 2 ^ 32 + delay ((read delay d).2.log.length + 1) < 2 ^ 32)

/-- **When the Realtek drivers write a TSF exactly**, and when they move the clock by the delta that is asked for. -/
theorem write_tsf_exact_iff (delay : Nat → Nat) (target : UInt64) (deltaNs : Int64) (d : Device) :
    (ExactUnlessCarry rtw88WriteTsf delay target d ∧ ExactUnlessCarry rtw89PtpWriteTsf delay target d) ∧
      MovesUnlessCarry rtw88ReadTsf rtw88PtpAdjtime delay deltaNs d ∧
      MovesUnlessCarry rtw89PtpReadTsf rtw89PtpAdjtime delay deltaNs d :=
  ⟨⟨writesExactly_iff rtw88Registers delay target d, writesExactly_iff rtw89Registers delay target d⟩,
    adjtime_movesBy_iff rtw88Registers delay deltaNs d, adjtime_movesBy_iff rtw89Registers delay deltaNs d⟩

/-- A target whose lower half has room for the tick between the writes. -/
theorem write_tsf_exact_room : WritesExactly 0xFFFFFFFE (rtw88WriteTsf (fun _ => 1) 0xFFFFFFFE ⟨0, []⟩).2 :=
  ((write_tsf_exact_iff (fun _ => 1) 0xFFFFFFFE 0 ⟨0, []⟩).1.1 (by decide)).mpr (by decide)

/-- One tick between the writes of a target whose lower half is full: the carry goes into the upper half that is
replaced, and the counter is `2^32` behind. -/
theorem write_tsf_counterexample :
    (rtw88WriteTsf (fun _ => 1) 0xFFFFFFFF ⟨0, []⟩).2.counter = 0 ∧
      ¬WritesExactly 0xFFFFFFFF (rtw88WriteTsf (fun _ => 1) 0xFFFFFFFF ⟨0, []⟩).2 := by
  refine ⟨by decide, ?_⟩
  unfold WritesExactly
  decide

end TsfSync.Drivers
