import Mathlib.Data.Nat.Digits.Lemmas
import TsfSync.Lib.Simd

/-!
# Hex digits to a TSF

`parse_hex_scalar`, `parse_hex_16_ssse3` and `parse_hex_auto` of `asm/hex.rs`. A `u64` shifted past its end loses its
upper digits, so the scalar parser returns the value of the last sixteen digits of a run; the SIMD parser returns that of
the first sixteen, and `parse_hex_auto` uses it also where more digits follow. The two agree unless that makes a
difference (`parseHexAuto_eq_iff`).
-/

namespace TsfSync.Debugfs

open Simd

/-! ## The scalar parser -/

/-- `u8::is_ascii_whitespace`. -/
def isAsciiWhitespace (b : UInt8) : Bool := b = 0x20 || b = 0x09 || b = 0x0A || b = 0x0C || b = 0x0D

/-- `u8::is_ascii_hexdigit`. -/
def isAsciiHexdigit (b : UInt8) : Bool :=
  (0x30 ≤ b && b ≤ 0x39) || (0x61 ≤ b && b ≤ 0x66) || (0x41 ≤ b && b ≤ 0x46)

/-- `u64::checked_shl`: none from a shift by 64 bits on, whatever is shifted out. -/
def checkedShl (x : UInt64) (n : UInt32) : Option UInt64 := if n < 64 then some (x <<< n.toUInt64) else none

/-- The value of a hex digit, as `parse_hex_scalar` matches it: `0` to `9`, `a` to `f`, `A` to `F`. -/
def nibble (b : UInt8) : Option UInt8 :=
  if 0x30 ≤ b ∧ b ≤ 0x39 then some (b - 0x30)
  else if 0x61 ≤ b ∧ b ≤ 0x66 then some (b - 0x61 + 10)
  else if 0x41 ≤ b ∧ b ≤ 0x46 then some (b - 0x41 + 10)
  else none

/-- A buffer that begins with `0x` or `0X`. -/
def hasPrefix (buf : List UInt8) : Bool := buf[0]? = some 0x30 && (buf[1]? = some 0x78 || buf[1]? = some 0x58)

/-- Leading whitespace is skipped. -/
def skipWhitespace : List UInt8 → List UInt8
  | [] => []
  | b :: bs => if isAsciiWhitespace b then skipWhitespace bs else b :: bs

/-- A prefix is skipped. -/
def skipPrefix (buf : List UInt8) : List UInt8 := if 1 < buf.length ∧ hasPrefix buf then buf.drop 2 else buf

/-- The loop over the digits, with `val` and the `u32` that counts them. -/
def digitLoop : List UInt8 → UInt64 → UInt32 → Option (UInt64 × UInt32)
  | [], val, digits => some (val, digits)
  | b :: bs, val, digits =>
    match nibble b with
    | none => some (val, digits)
    | some nibble =>
      match checkedShl val 4 with
      | none => none
      | some shifted => digitLoop bs (shifted ||| nibble.toUInt64) (digits + 1)

/-- `parse_hex_scalar`. -/
def parseHexScalar (buf : List UInt8) : Option UInt64 :=
  match digitLoop (skipPrefix (skipWhitespace buf)) 0 0 with
  | none => none
  | some (val, digits) => if digits = 0 then none else some val

/-! ## The SIMD parser -/

/-- `mul_16_1`. -/
def mul16_1 : M128 := setEpi8 ![1, 16, 1, 16, 1, 16, 1, 16, 1, 16, 1, 16, 1, 16, 1, 16]

/-- `mul_256_1`. -/
def mul256_1 : M128 := setEpi16 ![1, 256, 1, 256, 1, 256, 1, 256]

/-- `shuffle`. -/
def shuffle : M128 := setEpi8 ![-1, -1, -1, -1, -1, -1, -1, -1, 1, 0, 5, 4, 9, 8, 13, 12]

/-- The nibbles of sixteen bytes in ASCII. -/
def nibbles (input : M128) : M128 :=
  let lowNibble := andSi128 input (set1Epi8 0x0F)
  let isLetter := cmpgtEpi8 input (set1Epi8 0x39)
  let letterAdj := andSi128 isLetter (set1Epi8 9)
  addEpi8 lowNibble letterAdj

/-- `parse_hex_16_ssse3` of sixteen bytes. -/
def parseHex16Ssse3 (hex : List UInt8) : UInt64 :=
  let bytes := maddubsEpi16 (nibbles (loaduSi128 hex)) mul16_1
  let words := maddEpi16 bytes mul256_1
  let packed := shuffleEpi8 words shuffle
  (cvtsi128Si64 packed).toUInt64

/-- `parse_hex_auto`, on a CPU that has SSSE3 or not. -/
def parseHexAuto (hasSsse3 : Bool) (buf : List UInt8) : Option UInt64 :=
  if 19 ≤ buf.length ∧ hasPrefix buf ∧ hasSsse3 then
    let hexSlice := (buf.drop 2).take 16
    if hexSlice.all isAsciiHexdigit then some (parseHex16Ssse3 hexSlice) else parseHexScalar buf
  else parseHexScalar buf

/-! ## Runs of digits -/

/-- The values of the hex digits at the front of a buffer. -/
def hexRun : List UInt8 → List Nat
  | [] => []
  | b :: bs =>
    match nibble b with
    | none => []
    | some nibble => nibble.toNat :: hexRun bs

/-- The number that hex digits spell, highest digit first. -/
def hexValue (digits : List Nat) : Nat := Nat.ofDigits 16 digits.reverse

theorem hexValue_append (ds es : List Nat) : hexValue (ds ++ es) = hexValue ds * 16 ^ es.length + hexValue es := by
  rw [hexValue, List.reverse_append, Nat.ofDigits_append, List.length_reverse, hexValue, hexValue]
  ring

/-- What holds of each byte and its nibble. -/
theorem forall_nibble (P : UInt8 → UInt8 → Prop) [∀ b n, Decidable (P b n)]
    (h : ∀ k < 256, (nibble (UInt8.ofNat k)).all (fun n => decide (P (UInt8.ofNat k) n)) = true) :
    ∀ b, ∀ n ∈ nibble b, P b n := by
  intro b n hn
  have hall := forall_byte (P := fun b => (nibble b).all (fun n => decide (P b n)) = true) h b
  exact of_decide_eq_true ((Option.all_eq_true _ _).mp hall n hn)

theorem nibble_lt : ∀ b, ∀ n ∈ nibble b, n.toNat < 16 :=
  forall_nibble (fun _ n => n.toNat < 16) (by decide +kernel)

theorem lt_of_mem_hexRun : ∀ {bs : List UInt8} {d : Nat}, d ∈ hexRun bs → d < 16
  | [], _, h => by cases h
  | b :: bs, d, h => by
    unfold hexRun at h
    cases hn : nibble b with
    | none => rw [hn] at h; cases h
    | some n =>
      rw [hn] at h
      rcases List.mem_cons.mp h with rfl | h
      · exact nibble_lt b n hn
      · exact lt_of_mem_hexRun h

theorem isSome_nibble : ∀ b, (nibble b).isSome = isAsciiHexdigit b := forall_byte (by decide +kernel)

/-- The SIMD computation of a nibble: the lower half of the byte, and 9 more for a letter. -/
theorem simd_nibble : ∀ b, ∀ n ∈ nibble b,
    (b &&& byte 0x0F) + ((if signed8 (byte 0x39) < signed8 b then 0xFF else 0) &&& byte 9) = n :=
  forall_nibble (fun b n => (b &&& byte 0x0F) + ((if signed8 (byte 0x39) < signed8 b then 0xFF else 0) &&& byte 9) = n)
    (by decide +kernel)

/-- The run goes as far as its digits do. -/
theorem nibble_of_hexRun : ∀ {bs : List UInt8} {i d : Nat}, (hexRun bs)[i]? = some d →
    ∃ b n, bs[i]? = some b ∧ nibble b = some n ∧ n.toNat = d
  | [], _, _, h => by cases h
  | b :: bs, i, d, h => by
    unfold hexRun at h
    cases hn : nibble b with
    | none => rw [hn] at h; cases h
    | some n =>
      rw [hn] at h
      cases i with
      | zero => exact ⟨b, n, rfl, hn, Option.some.inj h⟩
      | succ i =>
        obtain ⟨b', n', hb, hn', hd⟩ := nibble_of_hexRun h
        exact ⟨b', n', hb, hn', hd⟩

/-- Bytes that are all digits are in the run. -/
theorem le_length_hexRun : ∀ (bs : List UInt8) {k : Nat}, k ≤ bs.length →
    (k ≤ (hexRun bs).length ↔ (bs.take k).all isAsciiHexdigit = true)
  | _, 0, _ => by simp
  | [], k + 1, h => by cases h
  | b :: bs, k + 1, h => by
    have ih := le_length_hexRun bs (k := k) (by simpa using h)
    rw [List.take_succ_cons, List.all_cons, Bool.and_eq_true, ← ih, ← isSome_nibble, hexRun]
    cases nibble b <;> simp

theorem length_hexRun_le : ∀ bs : List UInt8, (hexRun bs).length ≤ bs.length
  | [] => Nat.le_refl _
  | b :: bs => by
    have ih := length_hexRun_le bs
    unfold hexRun
    cases nibble b with
    | none => exact Nat.zero_le _
    | some n => exact Nat.succ_le_succ ih

/-! ## What the parsers compute -/

/-- A `u64` shifted by a nibble and filled up. -/
theorem toNat_shift_or (val : UInt64) {n : UInt8} (hn : n.toNat < 16) :
    (val <<< 4 ||| n.toUInt64).toNat = (val.toNat * 16 + n.toNat) % 2 ^ 64 := by
  have hor : val.toNat <<< 4 ||| n.toNat = val.toNat * 16 + n.toNat := by
    rw [← Nat.shiftLeft_add_eq_or_of_lt (by simpa using hn), Nat.shiftLeft_eq]
  have hlt : n.toNat < 2 ^ 64 := by omega
  rw [UInt64.toNat_or, UInt64.toNat_shiftLeft, UInt8.toNat_toUInt64, ← hor, Nat.or_mod_two_pow, Nat.mod_eq_of_lt hlt]
  rfl

theorem ofNat_eq_iff (a b : Nat) : UInt64.ofNat a = UInt64.ofNat b ↔ a ≡ b [MOD 2 ^ 64] := by
  rw [← UInt64.toNat_inj, UInt64.toNat_ofNat', UInt64.toNat_ofNat']
  rfl

theorem checkedShl_four (val : UInt64) : checkedShl val 4 = some (val <<< 4) := rfl

/-- The loop over the digits appends the run to its value and counts it. -/
theorem digitLoop_eq : ∀ (bs : List UInt8) (val : UInt64) (digits : UInt32), digitLoop bs val digits =
    some (UInt64.ofNat (val.toNat * 16 ^ (hexRun bs).length + hexValue (hexRun bs)),
      digits + UInt32.ofNat (hexRun bs).length)
  | [], val, digits => by simp [digitLoop, hexRun, hexValue]
  | b :: bs, val, digits => by
    unfold digitLoop hexRun
    cases hn : nibble b with
    | none => simp [hexValue]
    | some n =>
      have hcount : digits + 1 + UInt32.ofNat (hexRun bs).length = digits + UInt32.ofNat ((hexRun bs).length + 1) := by
        rw [UInt32.ofNat_add, UInt32.add_assoc, UInt32.add_comm 1]
        rfl
      have hcons := hexValue_append [n.toNat] (hexRun bs)
      have hsingle : hexValue [n.toNat] = n.toNat := by simp [hexValue]
      rw [List.singleton_append, hsingle] at hcons
      dsimp only
      rw [checkedShl_four]
      dsimp only
      rw [digitLoop_eq bs, hcount, toNat_shift_or val (nibble_lt b n hn), List.length_cons, hcons]
      refine congrArg some (Prod.ext ((ofNat_eq_iff _ _).mpr ?_) rfl)
      calc (val.toNat * 16 + n.toNat) % 2 ^ 64 * 16 ^ (hexRun bs).length + hexValue (hexRun bs)
          ≡ (val.toNat * 16 + n.toNat) * 16 ^ (hexRun bs).length + hexValue (hexRun bs) [MOD 2 ^ 64] :=
            ((Nat.mod_modEq _ _).mul_right _).add_right _
        _ = val.toNat * 16 ^ ((hexRun bs).length + 1) +
            (n.toNat * 16 ^ (hexRun bs).length + hexValue (hexRun bs)) := by ring

theorem parseHexScalar_eq (buf : List UInt8) : parseHexScalar buf =
    let run := hexRun (skipPrefix (skipWhitespace buf))
    if UInt32.ofNat run.length = 0 then none else some (UInt64.ofNat (hexValue run)) := by
  rw [parseHexScalar, digitLoop_eq]
  simp

section Ssse3

variable {input : M128} {d : Fin 16 → Nat}

/-- The nibbles of digits are their values. -/
theorem toNat_nibbles {i : Fin 16} {n : UInt8} (h : nibble (input i) = some n) : nibbles input i = n :=
  simd_nibble (input i) n h

/-- `PMADDUBSW` makes pairs of digits. -/
theorem lane_pairs {N : M128} (hN : ∀ i, (N i).toNat = d i) (hd : ∀ i, d i < 16) (j : Fin 8) :
    lane16s (maddubsEpi16 N mul16_1) j = 16 * d (lowByte j) + d (highByte j) := by
  have heven : ∀ j : Fin 8, signed8 (mul16_1 (lowByte j)) = 16 := by decide
  have hodd : ∀ j : Fin 8, signed8 (mul16_1 (highByte j)) = 1 := by decide
  have hlow := hd (lowByte j)
  have hhigh := hd (highByte j)
  have hpair : ∀ j : Fin 8, ((N (lowByte j)).toNat : Int) * signed8 (mul16_1 (lowByte j)) +
      (N (highByte j)).toNat * signed8 (mul16_1 (highByte j)) = 16 * d (lowByte j) + d (highByte j) := fun j => by
    rw [heven, hodd, hN, hN]
    omega
  rw [maddubsEpi16, lane16s_of16] <;> rw [hpair, saturate16] <;> omega

/-- `PMADDWD` makes fours of digits, in the lower half of each 32-bit lane. -/
theorem bytes_quads {bytes : M128} {p : Fin 8 → Nat} (hp : ∀ j, lane16s bytes j = p j) (k : Fin 4) (b : Fin 4) :
    ((maddEpi16 bytes mul256_1 (laneByte k b)).toNat : Int) =
      (256 * p (lowLane k) + p (highLane k)) / 256 ^ b.val % 256 := by
  have heven : ∀ k : Fin 4, lane16s mul256_1 (lowLane k) = 256 := by decide
  have hodd : ∀ k : Fin 4, lane16s mul256_1 (highLane k) = 1 := by decide
  rw [maddEpi16, of32_apply, heven, hodd, hp, hp, mul_one, mul_comm (p _ : Int) 256]

/-- Bytes below `2^16` spell the number they are cut from. -/
theorem bytes_add {q low high rest : Nat} (hq : q < 65536) (hlow : (low : Int) = q % 256)
    (hhigh : (high : Int) = q / 256 % 256) : low + 256 * (high + 256 * rest) = q + 65536 * rest := by
  omega

/-- `PSHUFB` puts the lower halves of the 32-bit lanes together, the last lane lowest. -/
theorem gathered {words : M128} {q : Fin 4 → Nat} (hq : ∀ k, q k < 65536)
    (hw : ∀ k b : Fin 4, ((words (laneByte k b)).toNat : Int) = (q k : Int) / 256 ^ b.val % 256) :
    ByteCodec.decodeLE (List.ofFn fun i => shuffleEpi8 words shuffle (halfByte i)) =
      q 3 + 65536 * (q 2 + 65536 * (q 1 + 65536 * q 0)) := by
  have hlow : ∀ k : Fin 4, ((words (laneByte k 0)).toNat : Int) = (q k : Int) % 256 := fun k => by
    simpa using hw k 0
  have hhigh : ∀ k : Fin 4, ((words (laneByte k 1)).toNat : Int) = (q k : Int) / 256 % 256 := fun k => by
    simpa using hw k 1
  have hbytes : List.ofFn (fun i => shuffleEpi8 words shuffle (halfByte i)) =
      [words 12, words 13, words 8, words 9, words 4, words 5, words 0, words 1] := rfl
  have h0 : (words 0).toNat + 256 * ((words 1).toNat + 256 * 0) = q 0 := bytes_add (hq 0) (hlow 0) (hhigh 0)
  have h1 : (words 4).toNat + 256 * ((words 5).toNat + 256 * q 0) = q 1 + 65536 * q 0 :=
    bytes_add (hq 1) (hlow 1) (hhigh 1)
  have h2 : (words 8).toNat + 256 * ((words 9).toNat + 256 * (q 1 + 65536 * q 0)) = q 2 + 65536 * (q 1 + 65536 * q 0) :=
    bytes_add (hq 2) (hlow 2) (hhigh 2)
  have h3 : (words 12).toNat + 256 * ((words 13).toNat + 256 * (q 2 + 65536 * (q 1 + 65536 * q 0))) =
      q 3 + 65536 * (q 2 + 65536 * (q 1 + 65536 * q 0)) := bytes_add (hq 3) (hlow 3) (hhigh 3)
  rw [hbytes]
  simp only [ByteCodec.decodeLE]
  rw [h0, h1, h2, h3]

/-- **The SIMD parser returns the value of sixteen digits.** -/
theorem parseHex16Ssse3_eq {hex : List UInt8} (hd : ∀ i, d i < 16)
    (h : ∀ i : Fin 16, ∃ n, nibble (hex.getD i 0) = some n ∧ n.toNat = d i) :
    parseHex16Ssse3 hex = UInt64.ofNat (hexValue (List.ofFn d)) := by
  have hN : ∀ i, (nibbles (loaduSi128 hex) i).toNat = d i := fun i => by
    obtain ⟨n, hn, hval⟩ := h i
    rw [toNat_nibbles hn, hval]
  let p : Fin 8 → Nat := fun j => 16 * d (lowByte j) + d (highByte j)
  let q : Fin 4 → Nat := fun k => 256 * p (lowLane k) + p (highLane k)
  have hp : ∀ j, lane16s (maddubsEpi16 (nibbles (loaduSi128 hex)) mul16_1) j = p j := fun j => by
    rw [lane_pairs hN hd]
    push_cast [p]
    rfl
  have hpq : ∀ j, p j < 256 := fun j => by
    have h1 := hd (lowByte j)
    have h2 := hd (highByte j)
    show 16 * _ + _ < 256
    omega
  have hq : ∀ k, q k < 65536 := fun k => by
    have h1 := hpq (lowLane k)
    have h2 := hpq (highLane k)
    show 256 * _ + _ < 65536
    omega
  have hw : ∀ k b : Fin 4, ((maddEpi16 (maddubsEpi16 (nibbles (loaduSi128 hex)) mul16_1) mul256_1
      (laneByte k b)).toNat : Int) = (q k : Int) / 256 ^ b.val % 256 := fun k b => by
    rw [bytes_quads hp]
    push_cast [q]
    rfl
  have hvalue : hexValue (List.ofFn d) = q 3 + 65536 * (q 2 + 65536 * (q 1 + 65536 * q 0)) := by
    have hlist : List.ofFn d = [d 0, d 1, d 2, d 3, d 4, d 5, d 6, d 7, d 8, d 9, d 10, d 11, d 12, d 13, d 14, d 15] :=
      rfl
    have h0 : q 0 = 256 * (16 * d 0 + d 1) + (16 * d 2 + d 3) := rfl
    have h1 : q 1 = 256 * (16 * d 4 + d 5) + (16 * d 6 + d 7) := rfl
    have h2 : q 2 = 256 * (16 * d 8 + d 9) + (16 * d 10 + d 11) := rfl
    have h3 : q 3 = 256 * (16 * d 12 + d 13) + (16 * d 14 + d 15) := rfl
    simp only [hexValue, hlist, h0, h1, h2, h3, List.reverse_cons, List.reverse_nil, List.nil_append, List.cons_append,
      Nat.ofDigits_cons, Nat.ofDigits_nil]
    ring
  rw [parseHex16Ssse3, cvtsi128Si64, UInt64.toUInt64_toInt64, gathered hq hw, hvalue]

end Ssse3

/-! ## When the parsers agree -/

/-- A run that both parsers read alike: one of at most sixteen digits, or one whose first sixteen are its last sixteen
and whose length the counter of the scalar parser does not wrap to `0`. -/
def ReadAlike (run : List Nat) : Prop :=
  run.length ≤ 16 ∨ run.length % 2 ^ 32 ≠ 0 ∧ run.take 16 = run.drop (run.length - 16)

theorem hexValue_lt {ds : List Nat} (hd : ∀ d ∈ ds, d < 16) : hexValue ds < 16 ^ ds.length := by
  have h := Nat.ofDigits_lt_base_pow_length (b := 16) (l := ds.reverse) (by decide) fun d hd' =>
    hd d (List.mem_reverse.mp hd')
  rwa [List.length_reverse] at h

theorem hexValue_inj {ds es : List Nat} (hlen : ds.length = es.length) (hd : ∀ d ∈ ds, d < 16)
    (he : ∀ d ∈ es, d < 16) (h : hexValue ds = hexValue es) : ds = es :=
  List.reverse_injective (Nat.ofDigits_inj_of_len_eq (by decide) (by simpa using hlen)
    (fun d hd' => hd d (List.mem_reverse.mp hd')) (fun d he' => he d (List.mem_reverse.mp he')) h)

/-- The first sixteen digits have the value of all, modulo `2^64`, if and only if they are the last sixteen. -/
theorem value_take_iff {run : List Nat} (hd : ∀ d ∈ run, d < 16) (hlen : 16 ≤ run.length) :
    UInt64.ofNat (hexValue (run.take 16)) = UInt64.ofNat (hexValue run) ↔ run.take 16 = run.drop (run.length - 16) := by
  have hpow : (16 : Nat) ^ 16 = 2 ^ 64 := rfl
  have hfirst : (run.take 16).length = 16 := by rw [List.length_take]; omega
  have hlast : (run.drop (run.length - 16)).length = 16 := by rw [List.length_drop]; omega
  have hdf : ∀ d ∈ run.take 16, d < 16 := fun d h => hd d (List.mem_of_mem_take h)
  have hdl : ∀ d ∈ run.drop (run.length - 16), d < 16 := fun d h => hd d (List.mem_of_mem_drop h)
  have hsplit := hexValue_append (run.take (run.length - 16)) (run.drop (run.length - 16))
  rw [List.take_append_drop, hlast, hpow] at hsplit
  have hmod : hexValue run ≡ hexValue (run.drop (run.length - 16)) [MOD 2 ^ 64] := by
    rw [hsplit, Nat.ModEq, Nat.mul_add_mod_self_right]
  have hltf := hexValue_lt hdf
  have hltl := hexValue_lt hdl
  rw [hfirst, hpow] at hltf
  rw [hlast, hpow] at hltl
  rw [ofNat_eq_iff]
  constructor
  · intro h
    have heq := h.trans hmod
    rw [Nat.ModEq, Nat.mod_eq_of_lt hltf, Nat.mod_eq_of_lt hltl] at heq
    exact hexValue_inj (hfirst.trans hlast.symm) hdf hdl heq
  · intro h
    rw [h]
    exact hmod.symm

/-- Behind a prefix both parsers start at its end. -/
theorem skip_of_hasPrefix {buf : List UInt8} (h : hasPrefix buf = true) :
    skipPrefix (skipWhitespace buf) = buf.drop 2 := by
  match buf, h with
  | b :: c :: bs, h =>
    have hb : b = 0x30 := by
      rw [hasPrefix, Bool.and_eq_true, decide_eq_true_eq] at h
      exact Option.some.inj h.1
    have hskip : skipWhitespace (b :: c :: bs) = b :: c :: bs := by
      rw [hb, skipWhitespace]
      rfl
    rw [hskip, skipPrefix, if_pos ⟨by simp, h⟩]
  | [b], h => simp [hasPrefix] at h

/-- The SIMD parser on the digits behind a prefix. -/
theorem parseHex16Ssse3_run {bs : List UInt8} (h : 16 ≤ (hexRun bs).length) :
    parseHex16Ssse3 (bs.take 16) = UInt64.ofNat (hexValue ((hexRun bs).take 16)) := by
  let d : Fin 16 → Nat := fun i => (hexRun bs)[i.val]
  have hlist : List.ofFn d = (hexRun bs).take 16 := by
    refine List.ext_getElem (by rw [List.length_ofFn, List.length_take]; omega) fun i h1 h2 => ?_
    rw [List.getElem_ofFn, List.getElem_take]
  rw [← hlist]
  refine parseHex16Ssse3_eq (fun i => lt_of_mem_hexRun (List.getElem_mem _)) fun i => ?_
  obtain ⟨b, n, hb, hn, hval⟩ := nibble_of_hexRun (List.getElem?_eq_getElem (l := hexRun bs) (i := i.val) (by omega))
  refine ⟨n, ?_, hval⟩
  have htake : (bs.take 16)[i.val]? = some b := by rw [List.getElem?_take_of_lt i.isLt, hb]
  rw [List.getD_eq_getElem?_getD, htake, Option.getD_some, hn]

/-- **The two parsers agree exactly if the run behind a prefix reads alike**, or there is no SSSE3 or no prefix. -/
theorem parseHexAuto_eq_iff (hasSsse3 : Bool) (buf : List UInt8) :
    parseHexAuto hasSsse3 buf = parseHexScalar buf ↔
      hasSsse3 = false ∨ hasPrefix buf = false ∨ ReadAlike (hexRun (buf.drop 2)) := by
  have hle := length_hexRun_le (buf.drop 2)
  rw [List.length_drop] at hle
  unfold parseHexAuto
  split
  · rename_i hfast
    obtain ⟨hlen, hprefix, hcpu⟩ := hfast
    have hall := le_length_hexRun (buf.drop 2) (k := 16) (by rw [List.length_drop]; omega)
    dsimp only
    split
    · rename_i hdigits
      have h16 := hall.mpr hdigits
      have hcount : UInt32.ofNat (hexRun (buf.drop 2)).length = 0 ↔ (hexRun (buf.drop 2)).length % 2 ^ 32 = 0 := by
        rw [← UInt32.toNat_inj, UInt32.toNat_ofNat']
        rfl
      rw [parseHex16Ssse3_run h16, parseHexScalar_eq, skip_of_hasPrefix hprefix]
      simp only [hcpu, hprefix, Bool.true_eq_false, false_or, hcount]
      by_cases hwrap : (hexRun (buf.drop 2)).length % 2 ^ 32 = 0
      · rw [if_pos hwrap]
        refine iff_of_false (by simp) ?_
        rintro (hshort | hlong)
        · omega
        · exact hlong.1 hwrap
      · rw [if_neg hwrap, Option.some.injEq, value_take_iff (fun d hd => lt_of_mem_hexRun hd) h16]
        refine ⟨fun h => Or.inr ⟨hwrap, h⟩, ?_⟩
        rintro (hshort | hlong)
        · have hsixteen : (hexRun (buf.drop 2)).length = 16 := by omega
          rw [hsixteen, List.take_of_length_le hshort, Nat.sub_self, List.drop_zero]
        · exact hlong.2
    · rename_i hdigits
      exact iff_of_true rfl (Or.inr (Or.inr (Or.inl (by have := mt hall.mp hdigits; omega))))
  · rename_i hslow
    refine iff_of_true rfl ?_
    by_contra hnot
    obtain ⟨hcpu, hprefix, hread⟩ : hasSsse3 = true ∧ hasPrefix buf = true ∧ ¬ReadAlike (hexRun (buf.drop 2)) := by
      simpa only [not_or, Bool.not_eq_false] using hnot
    have hlong : 16 < (hexRun (buf.drop 2)).length := Nat.lt_of_not_le fun h => hread (Or.inl h)
    exact hslow ⟨by omega, hprefix, hcpu⟩

/-- Seventeen digits: the fast path returns the first sixteen, the scalar parser the last sixteen. -/
theorem parseHexAuto_counterexample :
    let buf : List UInt8 := [0x30, 0x78] ++ List.replicate 16 0x31 ++ [0x32, 0x0A]
    parseHexAuto true buf = some 0x1111111111111111 ∧ parseHexScalar buf = some 0x1111111111111112 := by
  decide +kernel

end TsfSync.Debugfs
