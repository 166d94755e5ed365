import Mathlib.Data.Fin.VecNotation
import TsfSync.Lib.Bytes

/-!
# 128-bit registers

The `__m128i` of SSE as sixteen bytes, lowest first, and the `_mm_*` operations that read it as bytes, as signed and
unsigned 16-bit lanes or as 32-bit lanes. A register made of 16-bit lanes has these lanes (`lane16s_of16`), and one made
of 32-bit lanes their bytes (`of32_apply`).
-/

namespace Simd

open ByteCodec

/-- `__m128i`: its bytes, lowest first. -/
abbrev M128 := Fin 16 → UInt8

/-- The lowest byte of an integer. -/
def byte (x : Int) : UInt8 := UInt8.ofNat (x % 256).toNat

/-- A byte read as a signed one. -/
def signed8 (b : UInt8) : Int := (b.toNat : Int).bmod 256

/-- The two bytes of a 16-bit lane. -/
def lowByte (i : Fin 8) : Fin 16 := ⟨2 * i, by omega⟩

@[inherit_doc lowByte] def highByte (i : Fin 8) : Fin 16 := ⟨2 * i + 1, by omega⟩

/-- The two 16-bit lanes of a 32-bit lane. -/
def lowLane (i : Fin 4) : Fin 8 := ⟨2 * i, by omega⟩

@[inherit_doc lowLane] def highLane (i : Fin 4) : Fin 8 := ⟨2 * i + 1, by omega⟩

/-- The bytes of a 32-bit lane. -/
def laneByte (i b : Fin 4) : Fin 16 := ⟨4 * i + b, by omega⟩

/-- The bytes of the lower half. -/
def halfByte (i : Fin 8) : Fin 16 := ⟨i, by omega⟩

/-- An unsigned 16-bit lane. -/
def lane16 (a : M128) (i : Fin 8) : Nat := (a (lowByte i)).toNat + 256 * (a (highByte i)).toNat

/-- A signed 16-bit lane. -/
def lane16s (a : M128) (i : Fin 8) : Int := (lane16 a i : Int).bmod 65536

/-- The register with the given 16-bit lanes. -/
def of16 (f : Fin 8 → Int) : M128 := fun i => byte (f ⟨i / 2, by omega⟩ / 256 ^ (i.val % 2))

/-- The register with the given 32-bit lanes. -/
def of32 (f : Fin 4 → Int) : M128 := fun i => byte (f ⟨i / 4, by omega⟩ / 256 ^ (i.val % 4))

/-- Saturation to a signed 16-bit integer. -/
def saturate16 (x : Int) : Int := max (-32768) (min x 32767)

/-! ## Intrinsics -/

/-- `_mm_loadu_si128` of sixteen bytes in memory. -/
def loaduSi128 (mem : List UInt8) : M128 := fun i => mem.getD i 0

/-- `_mm_set1_epi8`. -/
def set1Epi8 (x : Int) : M128 := fun _ => byte x

/-- `_mm_set_epi8`, whose first argument is the highest byte. -/
def setEpi8 (e : Fin 16 → Int) : M128 := fun i => byte (e i.rev)

/-- `_mm_set_epi16`, whose first argument is the highest lane. -/
def setEpi16 (e : Fin 8 → Int) : M128 := of16 fun i => e i.rev

/-- `_mm_and_si128`. -/
def andSi128 (a b : M128) : M128 := fun i => a i &&& b i

/-- `_mm_cmpgt_epi8`: all ones where a byte of `a` is greater as a signed one. -/
def cmpgtEpi8 (a b : M128) : M128 := fun i => if signed8 (b i) < signed8 (a i) then 0xFF else 0

/-- `_mm_add_epi8`. -/
def addEpi8 (a b : M128) : M128 := fun i => a i + b i

/-- `_mm_maddubs_epi16`: unsigned bytes of `a` times signed bytes of `b`, neighbours added with saturation. -/
def maddubsEpi16 (a b : M128) : M128 := of16 fun i =>
  saturate16 ((a (lowByte i)).toNat * signed8 (b (lowByte i)) + (a (highByte i)).toNat * signed8 (b (highByte i)))

/-- `_mm_madd_epi16`: signed lanes multiplied, neighbours added. -/
def maddEpi16 (a b : M128) : M128 := of32 fun i =>
  lane16s a (lowLane i) * lane16s b (lowLane i) + lane16s a (highLane i) * lane16s b (highLane i)

/-- `_mm_shuffle_epi8`: each byte of the mask selects a byte of `a`, or `0` where its highest bit is set. -/
def shuffleEpi8 (a mask : M128) : M128 := fun i =>
  if 0x80 ≤ mask i then 0 else a ⟨(mask i).toNat % 16, Nat.mod_lt _ (by decide)⟩

/-- `_mm_cvtsi128_si64`: the lower half. -/
def cvtsi128Si64 (a : M128) : Int64 :=
  (UInt64.ofNat (decodeLE (List.ofFn fun i => a (halfByte i)))).toInt64

/-! ## Lanes -/

/-- What holds of each of the 256 bytes. -/
theorem forall_byte {P : UInt8 → Prop} (h : ∀ n < 256, P (UInt8.ofNat n)) (b : UInt8) : P b := by
  have hb := h b.toNat b.toNat_lt
  rwa [UInt8.ofNat_toNat] at hb

theorem toNat_byte (x : Int) : ((byte x).toNat : Int) = x % 256 := by
  have h : (x % 256).toNat < 256 := by omega
  rw [byte, UInt8.toNat_ofNat_of_lt' h]
  omega

/-- The bytes of a register made of 16-bit lanes. -/
theorem of16_apply (f : Fin 8 → Int) (i : Fin 16) :
    ((of16 f i).toNat : Int) = f ⟨i / 2, by omega⟩ / 256 ^ (i.val % 2) % 256 := toNat_byte _

/-- The bytes of a register made of 32-bit lanes. -/
theorem of32_apply (f : Fin 4 → Int) (k b : Fin 4) :
    ((of32 f (laneByte k b)).toNat : Int) = f k / 256 ^ b.val % 256 := by
  have hlane : (⟨(4 * k.val + b) / 4, by omega⟩ : Fin 4) = k := Fin.ext (by dsimp only; omega)
  have hbyte : (4 * k.val + b.val) % 4 = b := by omega
  rw [of32, toNat_byte]
  show f ⟨(4 * k.val + b) / 4, _⟩ / 256 ^ ((4 * k.val + b.val) % 4) % 256 = _
  rw [hlane, hbyte]

/-- A register made of 16-bit lanes has these lanes, modulo `2^16`. -/
theorem lane16_of16 (f : Fin 8 → Int) (i : Fin 8) : (lane16 (of16 f) i : Int) = f i % 65536 := by
  have hlow : (⟨2 * i.val / 2, by omega⟩ : Fin 8) = i := Fin.ext (Nat.mul_div_cancel_left i.val (by decide))
  have hhigh : (⟨(2 * i.val + 1) / 2, by omega⟩ : Fin 8) = i := Fin.ext (by dsimp only; omega)
  have hodd : (2 * i.val + 1) % 2 = 1 := by omega
  rw [lane16, Nat.cast_add, Nat.cast_mul, of16_apply, of16_apply, lowByte, highByte]
  dsimp only
  rw [hlow, hhigh, hodd, Nat.mul_mod_right, pow_zero, pow_one, Int.ediv_one]
  omega

/-- A signed 16-bit integer is found again from its unsigned reading. -/
theorem bmod_emod_of_fits {x : Int} (h : -32768 ≤ x ∧ x < 32768) : (x % 65536).bmod 65536 = x := by
  rw [Int.bmod_def]
  omega

/-- Signed lanes that fit are kept. -/
theorem lane16s_of16 {f : Fin 8 → Int} {i : Fin 8} (h : -32768 ≤ f i ∧ f i < 32768) : lane16s (of16 f) i = f i := by
  show (lane16 (of16 f) i : Int).bmod 65536 = f i
  rw [lane16_of16 f i]
  exact bmod_emod_of_fits h

end Simd
