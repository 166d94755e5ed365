import Mathlib.Algebra.BigOperators.Group.List.Basic
import Mathlib.Data.Int.ModEq

/-!
# A running counter behind two registers

A 64-bit counter that a device keeps running and shows in two 32-bit registers. Before its `n`-th access `delay n` ticks
elapse; a read gives the half of its register at that instant, and a write replaces it and leaves the other half alone.
The device logs the accesses. Halves read at different instants make a value of the counter only if no carry lies
between them (`join_of_no_carry`), and a half written late loses a carry into it (`put_halves_iff`).
-/

namespace SplitCounter

/-! ## Halves -/

/-- The lower half. -/
def lowHalf (c : UInt64) : UInt32 := c.toUInt32

/-- The upper half. -/
def highHalf (c : UInt64) : UInt32 := (c >>> 32).toUInt32

/-- `((u64)hi << 32) | lo`. -/
def join (hi lo : UInt32) : UInt64 := hi.toUInt64 <<< 32 ||| lo.toUInt64

theorem toNat_lowHalf (c : UInt64) : (lowHalf c).toNat = c.toNat % 2 ^ 32 := UInt64.toNat_toUInt32 c

theorem toNat_highHalf (c : UInt64) : (highHalf c).toNat = c.toNat / 2 ^ 32 := by
  have hlt := c.toNat_lt
  have hshift : (c >>> 32).toNat = c.toNat / 2 ^ 32 := by
    rw [UInt64.toNat_shiftRight, Nat.shiftRight_eq_div_pow]
    rfl
  rw [highHalf, UInt64.toNat_toUInt32, hshift, Nat.mod_eq_of_lt (by omega)]

theorem toNat_join (hi lo : UInt32) : (join hi lo).toNat = hi.toNat * 2 ^ 32 + lo.toNat := by
  have hhi : hi.toNat < 2 ^ 32 := hi.toNat_lt
  have hlo : lo.toNat < 2 ^ 32 := lo.toNat_lt
  have hshift : (hi.toUInt64 <<< 32).toNat = hi.toNat <<< 32 := by
    have hfits : hi.toNat <<< 32 < 2 ^ 64 := by
      rw [Nat.shiftLeft_eq]
      omega
    rw [UInt64.toNat_shiftLeft, UInt32.toNat_toUInt64]
    exact Nat.mod_eq_of_lt hfits
  rw [join, UInt64.toNat_or, hshift, UInt32.toNat_toUInt64, ← Nat.shiftLeft_add_eq_or_of_lt hlo, Nat.shiftLeft_eq]

theorem join_halves (c : UInt64) : join (highHalf c) (lowHalf c) = c := by
  rw [← UInt64.toNat_inj, toNat_join, toNat_highHalf, toNat_lowHalf]
  omega

theorem lowHalf_join (hi lo : UInt32) : lowHalf (join hi lo) = lo := by
  have hlo := lo.toNat_lt
  rw [← UInt32.toNat_inj, toNat_lowHalf, toNat_join]
  omega

/-- The counter some ticks later. -/
theorem toNat_add_ofNat (c : UInt64) (t : Nat) : (c + UInt64.ofNat t).toNat = (c.toNat + t) % 2 ^ 64 := by
  rw [UInt64.toNat_add, UInt64.toNat_ofNat', Nat.add_mod_mod]

/-! ## The device -/

/-- Where the device shows the halves. -/
structure Registers where
  low : Nat
  high : Nat
  ne : low ≠ high

/-- An access: the register, the ticks since the access before it, and the counter at the instant. -/
structure Access where
  addr : Nat
  elapsed : Nat
  counter : UInt64
  deriving DecidableEq, Repr

/-- The counter after the last access, and the accesses so far. -/
structure Device where
  counter : UInt64
  log : List Access
  deriving DecidableEq, Repr

/-- The ticks from the first access to the last. -/
def Device.elapsed (d : Device) : Nat := (d.log.tail.map Access.elapsed).sum

/-- The ticks between the last two accesses. -/
def Device.lastElapsed (d : Device) : Nat := (d.log.getLast?.map Access.elapsed).getD 0

variable (regs : Registers) (delay : Nat → Nat)

/-- The counter at the next access. -/
def Device.next (d : Device) : UInt64 := d.counter + UInt64.ofNat (delay d.log.length)

/-- The device after an access that leaves the counter at `c`. -/
def Device.accessed (d : Device) (addr : Nat) (c : UInt64) : Device :=
  ⟨c, d.log ++ [⟨addr, delay d.log.length, d.next delay⟩]⟩

/-- What a register shows. -/
def shown (addr : Nat) (c : UInt64) : UInt32 :=
  if addr = regs.low then lowHalf c else if addr = regs.high then highHalf c else 0

/-- The counter after a register has been written. -/
def put (addr : Nat) (v : UInt32) (c : UInt64) : UInt64 :=
  if addr = regs.low then join (highHalf c) v else if addr = regs.high then join v (lowHalf c) else c

/-- A 32-bit read of a register. -/
def read32 (addr : Nat) : StateM Device UInt32 := fun d =>
  (shown regs addr (d.next delay), d.accessed delay addr (d.next delay))

/-- A 32-bit write of a register. -/
def write32 (addr : Nat) (v : UInt32) : StateM Device Unit := fun d =>
  ((), d.accessed delay addr (put regs addr v (d.next delay)))

@[simp] theorem length_log_accessed (d : Device) (addr : Nat) (c : UInt64) :
    (d.accessed delay addr c).log.length = d.log.length + 1 := by simp [Device.accessed]

@[simp] theorem counter_accessed (d : Device) (addr : Nat) (c : UInt64) : (d.accessed delay addr c).counter = c := rfl

@[simp] theorem lastElapsed_accessed (d : Device) (addr : Nat) (c : UInt64) :
    (d.accessed delay addr c).lastElapsed = delay d.log.length := by simp [Device.lastElapsed, Device.accessed]

@[simp] theorem shown_low (c : UInt64) : shown regs regs.low c = lowHalf c := if_pos rfl

@[simp] theorem shown_high (c : UInt64) : shown regs regs.high c = highHalf c := by
  rw [shown, if_neg regs.ne.symm, if_pos rfl]

@[simp] theorem put_low (v : UInt32) (c : UInt64) : put regs regs.low v c = join (highHalf c) v := if_pos rfl

@[simp] theorem put_high (v : UInt32) (c : UInt64) : put regs regs.high v c = join v (lowHalf c) := by
  rw [put, if_neg regs.ne.symm, if_pos rfl]

/-! ## Carries -/

section Carries

variable {c : UInt64} {s t u : Nat}

/-- An upper half that reads the same before and after less than `2^32` ticks is that of every instant between. -/
theorem join_of_no_carry (h : highHalf c = highHalf (c + UInt64.ofNat (s + t))) (hticks : s + t < 2 ^ 32) :
    join (highHalf c) (lowHalf (c + UInt64.ofNat s)) = c + UInt64.ofNat s := by
  have hlt := c.toNat_lt
  have hhigh := congrArg UInt32.toNat h
  rw [toNat_highHalf, toNat_highHalf, toNat_add_ofNat] at hhigh
  rw [← UInt64.toNat_inj, toNat_join, toNat_highHalf, toNat_lowHalf, toNat_add_ofNat]
  omega

/-- An upper half that has just taken a carry is that of every instant until `2^32` ticks from before the carry. -/
theorem join_of_carry (h : highHalf c ≠ highHalf (c + UInt64.ofNat s)) (hticks : s + t < 2 ^ 32) :
    join (highHalf (c + UInt64.ofNat s)) (lowHalf (c + UInt64.ofNat s + UInt64.ofNat t)) =
      c + UInt64.ofNat s + UInt64.ofNat t := by
  have hlt := c.toNat_lt
  have hsum := toNat_add_ofNat c s
  rw [Ne, ← UInt32.toNat_inj, toNat_highHalf, toNat_highHalf, hsum] at h
  rw [← UInt64.toNat_inj, toNat_join, toNat_highHalf, toNat_lowHalf, toNat_add_ofNat _ t, hsum]
  -- the lower half has begun again and counts less than `s`
  have hlow : (c.toNat + s) % 2 ^ 64 % 2 ^ 32 + t < 2 ^ 32 := by omega
  have hmod : (c.toNat + s) % 2 ^ 64 < 2 ^ 64 := Nat.mod_lt _ (by decide)
  generalize (c.toNat + s) % 2 ^ 64 = sum at hlow hmod ⊢
  clear h hsum
  omega

/-- The lower half written first and the upper half `t` ticks later: the counter is the target and the ticks exactly if
the lower half does not overflow in between. -/
theorem put_halves_iff (target : UInt64) (ht : t < 2 ^ 32) :
    join (highHalf target) (lowHalf (join (highHalf c) (lowHalf target) + UInt64.ofNat t)) = target + UInt64.ofNat t ↔
      target.toNat % 2 ^ 32 + t < 2 ^ 32 := by
  have hlt := target.toNat_lt
  have hlow : (join (highHalf c) (lowHalf target) + UInt64.ofNat t).toNat % 2 ^ 32 =
      (target.toNat % 2 ^ 32 + t) % 2 ^ 32 := by
    rw [toNat_add_ofNat, toNat_join, toNat_lowHalf]
    omega
  rw [← UInt64.toNat_inj, toNat_join, toNat_highHalf, toNat_lowHalf, hlow, toNat_add_ofNat]
  omega

end Carries

end SplitCounter
