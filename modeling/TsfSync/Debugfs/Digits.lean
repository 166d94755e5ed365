import Mathlib.Algebra.BigOperators.Fin
import TsfSync.Debugfs.Hex

/-!
# The numbers that hex text spells

What `parse_hex_16_ssse3` and `parse_hex_scalar` should return, said without their loops: the value of a digit, the
digits behind the whitespace and the prefix of a buffer (`spelled`) and the number that digits spell (`hexValue`). Over
sixteen digits the SIMD parser returns that number (`parseHex16Ssse3_value`). The scalar parser does so for numbers
below `2^64` only: `checked_shl` does not see what it shifts out (`parseHexScalar_exact_iff`).
-/

namespace TsfSync.Debugfs

open Simd

/-! ## Digits -/

/-- The value of a hex digit of either case. -/
def digitValue (b : UInt8) : Nat :=
  if b ≤ 0x39 then b.toNat - 0x30 else if b ≤ 0x46 then b.toNat - 0x41 + 10 else b.toNat - 0x61 + 10

/-- The hex digits of a buffer: behind leading whitespace and a prefix, as far as they go. -/
def spelled (buf : List UInt8) : List Nat :=
  ((skipPrefix (buf.dropWhile isAsciiWhitespace)).takeWhile isAsciiHexdigit).map digitValue

theorem nibble_eq_digitValue : ∀ b, ∀ n ∈ nibble b, n.toNat = digitValue b :=
  forall_nibble (fun b n => n.toNat = digitValue b) (by decide +kernel)

/-- A hex digit is one that the parsers take for a nibble. -/
theorem exists_nibble {b : UInt8} (h : isAsciiHexdigit b = true) : ∃ n, nibble b = some n ∧ n.toNat = digitValue b := by
  rw [← isSome_nibble] at h
  obtain ⟨n, hn⟩ := Option.isSome_iff_exists.mp h
  exact ⟨n, hn, nibble_eq_digitValue b n hn⟩

theorem digitValue_lt {b : UInt8} (h : isAsciiHexdigit b = true) : digitValue b < 16 := by
  obtain ⟨n, hn, hval⟩ := exists_nibble h
  rw [← hval]
  exact nibble_lt b n hn

theorem skipWhitespace_eq (buf : List UInt8) : skipWhitespace buf = buf.dropWhile isAsciiWhitespace := by
  induction buf with
  | nil => rfl
  | cons b bs ih =>
    rw [skipWhitespace, List.dropWhile_cons, ih]

theorem hexRun_eq (buf : List UInt8) : hexRun buf = (buf.takeWhile isAsciiHexdigit).map digitValue := by
  induction buf with
  | nil => rfl
  | cons b bs ih =>
    rw [hexRun, List.takeWhile_cons, ← isSome_nibble]
    cases hn : nibble b with
    | none => rfl
    | some n =>
      simp only [Option.isSome_some, if_true, List.map_cons]
      rw [← ih, nibble_eq_digitValue b n hn]

/-- The scalar parser reads the digits that are spelled. -/
theorem hexRun_skip (buf : List UInt8) : hexRun (skipPrefix (skipWhitespace buf)) = spelled buf := by
  rw [skipWhitespace_eq, hexRun_eq, spelled]

/-! ## Sixteen digits -/

/-- The number that digits spell, as a sum over the positions. -/
theorem hexValue_ofFn {n : Nat} (d : Fin n → Nat) : hexValue (List.ofFn d) = ∑ i : Fin n, d i * 16 ^ (n - 1 - i.val) := by
  induction n with
  | zero => rfl
  | succ n ih =>
    have hsingle : hexValue [d 0] = d 0 := by simp [hexValue]
    rw [List.ofFn_succ, ← List.singleton_append, hexValue_append, hsingle, List.length_ofFn, ih, Fin.sum_univ_succ]
    refine congrArg₂ (· + ·) rfl (Finset.sum_congr rfl fun i _ => ?_)
    have hexp : n + 1 - 1 - i.succ.val = n - 1 - i.val := by
      rw [Fin.val_succ]
      omega
    rw [hexp]

/-- **The SIMD parser computes base 16**, for sixteen hex digits of either case. -/
theorem parseHex16Ssse3_value (hex : Vector UInt8 16) (h : ∀ i : Fin 16, isAsciiHexdigit hex[i] = true) :
    (parseHex16Ssse3 hex.toList).toNat = ∑ i : Fin 16, digitValue hex[i] * 16 ^ (15 - i.val) := by
  have hlt : ∀ i : Fin 16, digitValue hex[i] < 16 := fun i => digitValue_lt (h i)
  have hget : ∀ i : Fin 16, hex.toList.getD i.val 0 = hex[i] := fun i => by
    rw [List.getD_eq_getElem?_getD, List.getElem?_eq_getElem (by simp)]
    simp
  have hnibble : ∀ i : Fin 16, ∃ n, nibble (hex.toList.getD i.val 0) = some n ∧ n.toNat = digitValue hex[i] := fun i => by
    rw [hget]
    exact exists_nibble (h i)
  have hmem : ∀ d ∈ List.ofFn fun i : Fin 16 => digitValue hex[i], d < 16 := fun d hd => by
    obtain ⟨i, rfl⟩ := (List.mem_ofFn' _ _).mp hd
    exact hlt i
  have hbound := hexValue_lt hmem
  rw [List.length_ofFn] at hbound
  have hparse := parseHex16Ssse3_eq hlt hnibble
  have hpow : (16 : Nat) ^ 16 = 2 ^ 64 := rfl
  rw [hpow] at hbound
  rw [hparse, UInt64.toNat_ofNat', Nat.mod_eq_of_lt hbound, hexValue_ofFn]

/-- `aAbBcCdDeEfF0123`. -/
def mixedCase : Vector UInt8 16 :=
  #v[0x61, 0x41, 0x62, 0x42, 0x63, 0x43, 0x64, 0x44, 0x65, 0x45, 0x66, 0x46, 0x30, 0x31, 0x32, 0x33]

theorem parseHex16Ssse3_mixedCase : (parseHex16Ssse3 mixedCase.toList).toNat = 0xAABBCCDDEEFF0123 :=
  (parseHex16Ssse3_value mixedCase (by decide)).trans (by decide)

/-! ## Digits of any number -/

/-- A parser's result for a buffer is the number that the buffer spells; none if it spells none or one from `2^64` on. -/
def ReturnsSpelled (buf : List UInt8) (result : Option UInt64) : Prop :=
  ∀ v, result = some v ↔ spelled buf ≠ [] ∧ hexValue (spelled buf) < 2 ^ 64 ∧ v.toNat = hexValue (spelled buf)

/-- The scalar parser returns the number that is spelled, modulo `2^64`, unless it counts no digits. -/
theorem parseHexScalar_spelled (buf : List UInt8) : parseHexScalar buf =
    if (spelled buf).length % 2 ^ 32 = 0 then none else some (UInt64.ofNat (hexValue (spelled buf))) := by
  have hcount : UInt32.ofNat (spelled buf).length = 0 ↔ (spelled buf).length % 2 ^ 32 = 0 := by
    rw [← UInt32.toNat_inj, UInt32.toNat_ofNat']
    rfl
  rw [parseHexScalar_eq, hexRun_skip]
  simp only [hcount]

/-- **The scalar parser is exact if and only if** the buffer spells no number, or one below `2^64` with a count of digits
that the `u32` does not wrap to `0`, or a larger one with a count that it does. -/
theorem parseHexScalar_exact_iff (buf : List UInt8) : ReturnsSpelled buf (parseHexScalar buf) ↔
    spelled buf = [] ∨ (hexValue (spelled buf) < 2 ^ 64 ↔ (spelled buf).length % 2 ^ 32 ≠ 0) := by
  rw [parseHexScalar_spelled]
  by_cases hempty : spelled buf = []
  · refine iff_of_true (fun v => ?_) (Or.inl hempty)
    simp [hempty]
  · rw [or_iff_right hempty]
    by_cases hcount : (spelled buf).length % 2 ^ 32 = 0
    · rw [if_pos hcount]
      constructor
      · intro hexact
        refine iff_of_false (fun hlt => ?_) (not_not.mpr hcount)
        have hnone := (hexact (UInt64.ofNat (hexValue (spelled buf)))).mpr
          ⟨hempty, hlt, UInt64.toNat_ofNat_of_lt' hlt⟩
        cases hnone
      · intro hbound v
        exact iff_of_false (by simp) fun hv => hbound.mp hv.2.1 hcount
    · rw [if_neg hcount]
      constructor
      · intro hexact
        exact iff_of_true ((hexact _).mp rfl).2.1 hcount
      · intro hbound v
        have hlt := hbound.mpr hcount
        have hv : v.toNat = hexValue (spelled buf) ↔ some (UInt64.ofNat (hexValue (spelled buf))) = some v := by
          rw [Option.some.injEq, ← UInt64.toNat_inj, UInt64.toNat_ofNat_of_lt' hlt]
          exact eq_comm
        rw [hv]
        exact ⟨fun h => ⟨hempty, hlt, h⟩, fun h => h.2.2⟩

/-- `0x10000000000000000`: the leading digit is shifted out, and the parser returns `0`. -/
theorem parseHexScalar_counterexample :
    let buf : List UInt8 := [0x30, 0x78, 0x31] ++ List.replicate 16 0x30
    parseHexScalar buf = some 0 ∧ ¬ReturnsSpelled buf (parseHexScalar buf) := by
  intro buf
  have hzero : parseHexScalar buf = some 0 := by decide
  refine ⟨hzero, fun hexact => ?_⟩
  have hlt := ((hexact 0).mp hzero).2.1
  revert hlt
  decide

end TsfSync.Debugfs
