import TsfSync.Debugfs.Digits

/-!
# TSF values as text

The kernel renders a TSF in sixteen hex digits (`renderTsf`), which `read_tsf` parses; `write_tsf` writes a TSF in decimal
(`format_u64_decimal` of `debugfs.rs`, in a buffer of 21 bytes). The digits come out in reverse and are reversed in place;
a store or a slice that is not in the buffer makes the code panic, here none. The twenty digits of a `u64` and the newline
fill the buffer, and no bits are lost either way (`text_keeps_tsf`).
-/

namespace TsfSync.Debugfs

/-! ## Hex text -/

/-- A lower-case hex digit. -/
def hexDigit (n : Nat) : UInt8 := UInt8.ofNat (if n < 10 then 0x30 + n else 0x61 + (n - 10))

/-- The digits of a number of `n` hex digits, highest first. -/
def paddedDigits (n v : Nat) : List Nat := List.ofFn fun i : Fin n => v / 16 ^ (n - 1 - i.val) % 16

/-- `0x%016llx\n`, as debugfs renders a TSF. -/
def renderTsf (v : UInt64) : List UInt8 := [0x30, 0x78] ++ (paddedDigits 16 v.toNat).map hexDigit ++ [0x0A]

theorem hexDigit_spec : ∀ n < 16, isAsciiHexdigit (hexDigit n) = true ∧ digitValue (hexDigit n) = n := by decide

theorem lt_of_mem_paddedDigits {n v d : Nat} (h : d ∈ paddedDigits n v) : d < 16 := by
  obtain ⟨i, rfl⟩ := (List.mem_ofFn' _ _).mp h
  exact Nat.mod_lt _ (by decide)

/-- Padded digits spell the number that they are cut from. -/
theorem hexValue_paddedDigits (n : Nat) : ∀ v, hexValue (paddedDigits n v) = v % 16 ^ n := by
  induction n with
  | zero => exact fun v => (Nat.mod_one v).symm
  | succ n ih =>
    intro v
    have hsplit : paddedDigits (n + 1) v = paddedDigits n (v / 16) ++ [v % 16] := by
      rw [paddedDigits, List.ofFn_succ_last]
      refine congrArg₂ (· ++ ·) (congrArg List.ofFn (funext fun i => ?_)) (by simp)
      have hexp : n + 1 - 1 - i.castSucc.val = n - 1 - i.val + 1 := by
        rw [Fin.val_castSucc]
        omega
      rw [hexp, Nat.pow_succ', Nat.div_div_eq_div_mul]
    have hlast : hexValue [v % 16] = v % 16 := by simp [hexValue]
    have hmod : v % 16 ^ (n + 1) = v % 16 + 16 * (v / 16 % 16 ^ n) := by rw [Nat.pow_succ', Nat.mod_mul]
    rw [hsplit, hexValue_append, hlast, ih, List.length_singleton, hmod]
    omega

theorem isAsciiHexdigit_rendered (v : UInt64) :
    ∀ b ∈ (paddedDigits 16 v.toNat).map hexDigit, isAsciiHexdigit b = true := by
  intro b hb
  obtain ⟨d, hd, rfl⟩ := List.mem_map.mp hb
  exact (hexDigit_spec d (lt_of_mem_paddedDigits hd)).1

/-- The digits behind the prefix of a rendered TSF. -/
theorem spelled_renderTsf (v : UInt64) : spelled (renderTsf v) = paddedDigits 16 v.toNat := by
  have hskip : skipPrefix ((renderTsf v).dropWhile isAsciiWhitespace) =
      (paddedDigits 16 v.toNat).map hexDigit ++ [0x0A] := rfl
  have hnewline : [(0x0A : UInt8)].takeWhile isAsciiHexdigit = [] := rfl
  rw [spelled, hskip, List.takeWhile_append_of_pos (isAsciiHexdigit_rendered v), hnewline, List.append_nil, List.map_map]
  refine (List.map_congr_left fun d hd => ?_).trans (List.map_id _)
  exact (hexDigit_spec d (lt_of_mem_paddedDigits hd)).2

theorem hexValue_rendered (v : UInt64) : UInt64.ofNat (hexValue (paddedDigits 16 v.toNat)) = v := by
  have hpow : (16 : Nat) ^ 16 = 2 ^ 64 := rfl
  rw [hexValue_paddedDigits, hpow, Nat.mod_eq_of_lt v.toNat_lt, UInt64.ofNat_toNat]

theorem parseHexScalar_renderTsf (v : UInt64) : parseHexScalar (renderTsf v) = some v := by
  have hlen : (spelled (renderTsf v)).length = 16 := by rw [spelled_renderTsf, paddedDigits, List.length_ofFn]
  rw [parseHexScalar_spelled, hlen, if_neg (by decide), spelled_renderTsf, hexValue_rendered]

/-- Either path reads a rendered TSF back. -/
theorem parseHexAuto_renderTsf (hasSsse3 : Bool) (v : UInt64) : parseHexAuto hasSsse3 (renderTsf v) = some v := by
  unfold parseHexAuto
  split
  · have hslice : ((renderTsf v).drop 2).take 16 = (paddedDigits 16 v.toNat).map hexDigit := by
      have hdrop : (renderTsf v).drop 2 = (paddedDigits 16 v.toNat).map hexDigit ++ [0x0A] := rfl
      have hlen : ((paddedDigits 16 v.toNat).map hexDigit).length = 16 := by
        rw [List.length_map, paddedDigits, List.length_ofFn]
      rw [hdrop, List.take_append_of_le_length hlen.ge, List.take_of_length_le hlen.le]
    have hdigits : ((paddedDigits 16 v.toNat).map hexDigit).all isAsciiHexdigit = true :=
      List.all_eq_true.mpr (isAsciiHexdigit_rendered v)
    dsimp only
    rw [hslice, if_pos hdigits]
    refine congrArg some ((parseHex16Ssse3_eq (fun i => Nat.mod_lt _ (by decide)) fun i => ?_).trans (hexValue_rendered v))
    have hget : ((paddedDigits 16 v.toNat).map hexDigit).getD i.val 0 =
        hexDigit (v.toNat / 16 ^ (16 - 1 - i.val) % 16) := by
      rw [List.getD_eq_getElem?_getD, List.getElem?_map, paddedDigits, List.getElem?_ofFn]
      simp
    obtain ⟨hhex, hval⟩ := hexDigit_spec (v.toNat / 16 ^ (16 - 1 - i.val) % 16) (Nat.mod_lt _ (by decide))
    rw [hget]
    obtain ⟨n, hn, hnval⟩ := exists_nibble hhex
    exact ⟨n, hn, hnval.trans hval⟩
  · exact parseHexScalar_renderTsf v

/-! ## Decimal text -/

/-- `buf[pos] = b`; none if `pos` is not in the buffer. -/
def store (buf : List UInt8) (pos : Nat) (b : UInt8) : Option (List UInt8) :=
  if pos < buf.length then some (buf.set pos b) else none

/-- `buf[..pos].reverse()`; none if the slice is not in the buffer. -/
def reverseSlice (buf : List UInt8) (pos : Nat) : Option (List UInt8) :=
  if pos ≤ buf.length then some ((buf.take pos).reverse ++ buf.drop pos) else none

/-- The loop of `format_u64_decimal`: digits in reverse, from `pos` on. -/
def writeDigits (val : UInt64) (buf : List UInt8) (pos : Nat) : Option (List UInt8 × Nat) :=
  if 0 < val then
    (store buf pos (0x30 + (val % 10).toUInt8)).bind fun buf => writeDigits (val / 10) buf (pos + 1)
  else some (buf, pos)
termination_by val.toNat
decreasing_by
  rename_i hval
  have hpos : 0 < val.toNat := UInt64.lt_iff_toNat_lt.mp hval
  have hten : (10 : UInt64).toNat = 10 := rfl
  rw [UInt64.toNat_div, hten]
  omega

/-- `format_u64_decimal`: the buffer afterwards and the number of bytes written. -/
def formatU64Decimal (val : UInt64) (buf : List UInt8) : Option (List UInt8 × Nat) :=
  if val = 0 then do
    let buf ← store buf 0 0x30
    let buf ← store buf 1 0x0A
    return (buf, 2)
  else do
    let (buf, pos) ← writeDigits val buf 0
    let buf ← reverseSlice buf pos
    let buf ← store buf pos 0x0A
    return (buf, pos + 1)

/-- `TsfFile::read_tsf`: at most 64 bytes of the file; none for text with no digits. -/
def readTsf (hasSsse3 : Bool) (file : List UInt8) : Option UInt64 := parseHexAuto hasSsse3 (file.take 64)

/-- `TsfFile::write_tsf`: the bytes for `write_raw`; none where the code panics. -/
def writeTsf (val : UInt64) : Option (List UInt8) := do
  let (buf, len) ← formatU64Decimal val (List.replicate 21 0)
  if len ≤ buf.length then some (buf.take len) else none

/-- The byte of a decimal digit. -/
def decimalDigit (d : Nat) : UInt8 := UInt8.ofNat (0x30 + d)

/-- The number that decimal text spells. -/
def decimalValue (text : List UInt8) : Nat := Nat.ofDigits 10 (text.reverse.map fun b => b.toNat - 0x30)

/-- Canonical decimal text of a number. -/
structure IsDecimal (text : List UInt8) (v : Nat) : Prop where
  nonempty : text ≠ []
  digits : ∀ b ∈ text, 0x30 ≤ b ∧ b ≤ 0x39
  leading : text.head? = some 0x30 → text = [0x30]
  value : decimalValue text = v

/-- The digits of a number as `format_u64_decimal` writes them, lowest first. -/
def reversedText (v : Nat) : List UInt8 := (Nat.digits 10 v).map decimalDigit

theorem toNat_decimalDigit {d : Nat} (hd : d < 10) : (decimalDigit d).toNat = 0x30 + d := by
  rw [decimalDigit, UInt8.toNat_ofNat', Nat.mod_eq_of_lt (by omega)]

theorem decimalDigit_mod (val : UInt64) : 0x30 + (val % 10).toUInt8 = decimalDigit (val.toNat % 10) := by
  have hmod : (val % 10).toNat = val.toNat % 10 := rfl
  rw [← UInt8.toNat_inj, toNat_decimalDigit (Nat.mod_lt _ (by decide)), UInt8.toNat_add, UInt64.toNat_toUInt8, hmod]
  have hlt : val.toNat % 10 < 10 := Nat.mod_lt _ (by decide)
  have hzero : (0x30 : UInt8).toNat = 0x30 := rfl
  omega

/-- A store behind the bytes written so far. -/
theorem store_append (front : List UInt8) (r : UInt8) (rest : List UInt8) (b : UInt8) :
    store (front ++ r :: rest) front.length b = some (front ++ b :: rest) := by
  rw [store, if_pos (by simp), List.set_append_right _ _ (Nat.le_refl _), Nat.sub_self, List.set_cons_zero]

theorem reverseSlice_append (front rest : List UInt8) :
    reverseSlice (front ++ rest) front.length = some (front.reverse ++ rest) := by
  rw [reverseSlice, if_pos (by simp), List.take_left', List.drop_left'] <;> rfl

/-- The loop writes the digits behind `front`, where they have room. -/
theorem writeDigits_eq (val : UInt64) : ∀ front rest : List UInt8, (reversedText val.toNat).length ≤ rest.length →
    writeDigits val (front ++ rest) front.length =
      some (front ++ reversedText val.toNat ++ rest.drop (reversedText val.toNat).length,
        front.length + (reversedText val.toNat).length) := by
  induction val using WellFounded.induction (measure UInt64.toNat).wf with
  | _ val ih =>
    intro front rest hroom
    unfold writeDigits
    split
    · rename_i hval
      have hpos : 0 < val.toNat := UInt64.lt_iff_toNat_lt.mp hval
      have hdiv : (val / 10).toNat = val.toNat / 10 := rfl
      have htext : reversedText val.toNat = decimalDigit (val.toNat % 10) :: reversedText (val / 10).toNat := by
        rw [reversedText, Nat.digits_def' (by decide) hpos, List.map_cons, hdiv, reversedText]
      rw [htext, List.length_cons] at hroom ⊢
      cases rest with
      | nil => cases hroom
      | cons r rest =>
        have hless : (val / 10).toNat < val.toNat := by omega
        have hrest := ih (val / 10) hless (front ++ [decimalDigit (val.toNat % 10)]) rest (Nat.le_of_succ_le_succ hroom)
        rw [List.append_assoc, List.singleton_append, List.length_append, List.length_singleton] at hrest
        rw [store_append, Option.bind_some, decimalDigit_mod, hrest]
        simp [Nat.add_assoc, Nat.add_comm 1]
    · rename_i hval
      have hzero : val.toNat = 0 := by
        by_contra hne
        exact hval (UInt64.lt_iff_toNat_lt.mpr (Nat.pos_of_ne_zero hne))
      simp [hzero, reversedText]

/-- Twenty digits are enough for a `u64`. -/
theorem length_reversedText_le (val : UInt64) : (reversedText val.toNat).length ≤ 20 := by
  have hlt := val.toNat_lt
  rw [reversedText, List.length_map, Nat.digits_length_le_iff (by decide)]
  exact hlt.trans (by decide)

theorem isDecimal_zero : IsDecimal [0x30] 0 where
  nonempty := by simp
  digits := by
    intro b hb
    rw [List.mem_singleton.mp hb]
    exact ⟨UInt8.le_refl _, by decide⟩
  leading := fun _ => rfl
  value := rfl

theorem isDecimal_reversedText {v : Nat} (hv : v ≠ 0) : IsDecimal (reversedText v).reverse v where
  nonempty := by
    rw [Ne, List.reverse_eq_nil_iff, reversedText, List.map_eq_nil_iff]
    exact Nat.digits_ne_nil_iff_ne_zero.mpr hv
  digits := by
    intro b hb
    obtain ⟨d, hd, rfl⟩ := List.mem_map.mp (List.mem_reverse.mp hb)
    have hval := toNat_decimalDigit (Nat.digits_lt_base (by decide) hd)
    have hlt := Nat.digits_lt_base (by decide) hd
    constructor
    · rw [UInt8.le_iff_toNat_le, hval]
      exact Nat.le_add_right _ _
    · rw [UInt8.le_iff_toNat_le, hval]
      exact Nat.add_le_add_left (Nat.le_of_lt_succ hlt) _
  leading := by
    -- the highest digit is the last one written and is not `0`
    intro hhead
    have hne := Nat.digits_ne_nil_iff_ne_zero (b := 10).mpr hv
    have hlast := Nat.getLast_digit_ne_zero 10 hv
    have hlt := Nat.digits_lt_base (b := 10) (by decide) (List.getLast_mem hne)
    rw [List.head?_reverse, reversedText, List.getLast?_map, List.getLast?_eq_some_getLast hne, Option.map_some] at hhead
    have hval := congrArg UInt8.toNat (Option.some.inj hhead)
    rw [toNat_decimalDigit hlt] at hval
    have hzero : (0x30 : UInt8).toNat = 0x30 := rfl
    omega
  value := by
    have hdigits : (reversedText v).map (fun b => b.toNat - 0x30) = Nat.digits 10 v := by
      rw [reversedText, List.map_map]
      refine (List.map_congr_left fun d hd => ?_).trans (List.map_id _)
      have hval := toNat_decimalDigit (Nat.digits_lt_base (by decide) hd)
      rw [Function.comp_apply, hval, Nat.add_sub_cancel_left, id]
    rw [decimalValue, List.reverse_reverse, hdigits, Nat.ofDigits_digits]

/-- `format_u64_decimal` never leaves its buffer and writes canonical text and a newline. -/
theorem formatU64Decimal_spec (val : UInt64) {buf : List UInt8} (hbuf : buf.length = 21) :
    ∃ text rest, formatU64Decimal val buf = some (text ++ 0x0A :: rest, text.length + 1) ∧
      text.length + 1 + rest.length = 21 ∧ IsDecimal text val.toNat := by
  by_cases hzero : val = 0
  · match buf, hbuf with
    | b₀ :: b₁ :: rest, hbuf =>
      subst hzero
      refine ⟨[0x30], rest, rfl, ?_, isDecimal_zero⟩
      simp only [List.length_cons] at hbuf
      simp only [List.length_singleton]
      omega
  · have hv : val.toNat ≠ 0 := fun h => hzero (UInt64.toNat_inj.mp h)
    have hlen := length_reversedText_le val
    have hwrite := writeDigits_eq val [] buf (by omega)
    rw [List.nil_append, List.nil_append, List.length_nil, Nat.zero_add] at hwrite
    cases hrest : buf.drop (reversedText val.toNat).length with
    | nil =>
      have hdrop := congrArg List.length hrest
      rw [List.length_drop, List.length_nil] at hdrop
      omega
    | cons r rest =>
      have hdrop := congrArg List.length hrest
      rw [List.length_drop, List.length_cons] at hdrop
      refine ⟨(reversedText val.toNat).reverse, rest, ?_, ?_, isDecimal_reversedText hv⟩
      · have hstore := store_append (reversedText val.toNat).reverse r rest 0x0A
        rw [List.length_reverse] at hstore ⊢
        rw [formatU64Decimal, if_neg hzero, hwrite, hrest]
        simp only [Option.bind_eq_bind, Option.bind_some, reverseSlice_append, hstore]
        rfl
      · rw [List.length_reverse]
        omega

theorem readTsf_renderTsf (hasSsse3 : Bool) (v : UInt64) : readTsf hasSsse3 (renderTsf v) = some v := by
  have hlen : (renderTsf v).length ≤ 64 := by simp [renderTsf, paddedDigits]
  rw [readTsf, List.take_of_length_le hlen]
  exact parseHexAuto_renderTsf hasSsse3 v

/-- `write_tsf` writes canonical text and a newline. -/
theorem writeTsf_spec (val : UInt64) : ∃ text, writeTsf val = some (text ++ [0x0A]) ∧ IsDecimal text val.toNat := by
  have hzeroed : (List.replicate 21 (0 : UInt8)).length = 21 := List.length_replicate
  obtain ⟨text, rest, hformat, hlen, hdecimal⟩ := formatU64Decimal_spec val hzeroed
  have hfits : text.length + 1 ≤ (text ++ 0x0A :: rest).length := by simp
  have htake : (text ++ 0x0A :: rest).take (text.length + 1) = text ++ [0x0A] := by
    rw [List.take_length_add_append]
    rfl
  refine ⟨text, ?_, hdecimal⟩
  rw [writeTsf, hformat]
  simp only [Option.bind_eq_bind, Option.bind_some, if_pos hfits, htake]

/-- **The text pipeline keeps every bit of a TSF**: either parser reads back what the kernel renders, and decimal text
fits its buffer, is canonical and ends in its only newline. -/
theorem text_keeps_tsf (v : UInt64) :
    (∀ hasSsse3, parseHexAuto hasSsse3 (renderTsf v) = some v) ∧
      ∀ buf : Vector UInt8 21, ∃ written n text, formatU64Decimal v buf.toList = some (written, n) ∧
        written.length = 21 ∧ n ≤ 21 ∧ written.take n = text ++ [0x0A] ∧ IsDecimal text v.toNat := by
  refine ⟨fun hasSsse3 => parseHexAuto_renderTsf hasSsse3 v, fun buf => ?_⟩
  obtain ⟨text, rest, hformat, hlen, hdecimal⟩ := formatU64Decimal_spec v buf.length_toList
  refine ⟨_, _, text, hformat, ?_, by omega, ?_, hdecimal⟩
  · rw [List.length_append, List.length_cons]
    omega
  · rw [List.take_length_add_append]
    rfl

end TsfSync.Debugfs
