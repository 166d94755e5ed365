import Mathlib.Algebra.Group.Nat.Defs
import Mathlib.Data.List.DropRight
import Mathlib.Data.List.Infix

/-!
# Texts

What the daemon does with a `&str` that it reads: trimming, suffixes, lines, words and numbers. A text is its characters; a character is
a Unicode scalar value, as in Rust.
-/

namespace TsfSync.User

/-- A `&str`, by its characters. -/
abbrev Text := List Char

/-- `char::is_whitespace`, the property `White_Space` of Unicode. -/
def isWhitespace (c : Char) : Bool :=
  let n := c.toNat
  (9 ≤ n && n ≤ 13) || n == 0x20 || n == 0x85 || n == 0xA0 || n == 0x1680 || (0x2000 ≤ n && n ≤ 0x200A) ||
    n == 0x2028 || n == 0x2029 || n == 0x202F || n == 0x205F || n == 0x3000

/-- `trim`. -/
def trim (s : Text) : Text := (s.dropWhile isWhitespace).rdropWhile isWhitespace

/-- `strip_suffix`. -/
def stripSuffix (s suffix : Text) : Option Text := s.dropSuffix? suffix

theorem stripSuffix_eq_some_iff {s suffix rest : Text} : stripSuffix s suffix = some rest ↔ s = rest ++ suffix := by
  unfold stripSuffix
  rw [List.dropSuffix?_eq_some_iff]
  constructor
  · rintro ⟨end_, rfl, hend⟩
    rw [eq_of_beq hend]
  · intro h
    exact ⟨suffix, h, beq_self_eq_true _⟩

/-- `lines`: a line ends with a newline, of which a carriage return before it is part, or with the text. -/
def lines (s : Text) : List Text :=
  let pieces := s.splitOn '\n'
  pieces.dropLast.map (fun line => (stripSuffix line ['\r']).getD line) ++
    (pieces.getLast?.toList.filter fun line => !line.isEmpty)

/-- `split_whitespace`. -/
def splitWhitespace (s : Text) : List Text := (s.splitOnP isWhitespace).filter fun word => !word.isEmpty

/-- What is no separator stands in a piece. -/
theorem exists_mem_splitOnP {p : Char → Bool} {c : Char} (hc : p c = false) : ∀ {s : Text}, c ∈ s →
    ∃ piece ∈ s.splitOnP p, c ∈ piece
  | [], h => by cases h
  | a :: s, h => by
    rw [List.splitOnP_cons_eq_if_modifyHead]
    rcases List.mem_cons.mp h with rfl | hs
    · obtain ⟨first, rest, hpieces⟩ := List.exists_cons_of_ne_nil (List.splitOnP_ne_nil p s)
      rw [hpieces, hc]
      exact ⟨c :: first, List.mem_cons_self, List.mem_cons_self⟩
    · obtain ⟨piece, hpiece, hmem⟩ := exists_mem_splitOnP hc hs
      split
      · exact ⟨piece, List.mem_cons_of_mem _ hpiece, hmem⟩
      · obtain ⟨first, rest, hpieces⟩ := List.exists_cons_of_ne_nil (List.splitOnP_ne_nil p s)
        rw [hpieces] at hpiece ⊢
        rcases List.mem_cons.mp hpiece with rfl | hrest
        · exact ⟨a :: piece, List.mem_cons_self, List.mem_cons_of_mem _ hmem⟩
        · exact ⟨piece, List.mem_cons_of_mem _ hrest, hmem⟩

/-- A text that is not all whitespace has a last word. -/
theorem isSome_lastWord {s : Text} {c : Char} (hc : isWhitespace c = false) (hs : c ∈ s) :
    (splitWhitespace s).getLast?.isSome = true := by
  obtain ⟨piece, hpiece, hmem⟩ := exists_mem_splitOnP hc hs
  have hword : piece ∈ splitWhitespace s := by
    rw [splitWhitespace, List.mem_filter]
    refine ⟨hpiece, ?_⟩
    cases piece with
    | nil => cases hmem
    | cons a rest => rfl
  exact List.getLast?_isSome.mpr (List.ne_nil_of_mem hword)

/-! ## Numbers -/

/-- `ParseIntError`, as far as an unsigned number meets it. -/
inductive ParseIntError
  | empty
  | invalidDigit
  | posOverflow
  deriving DecidableEq, Repr

/-- Its text. -/
def ParseIntError.message : ParseIntError → Text
  | .empty => "cannot parse integer from empty string".toList
  | .invalidDigit => "invalid digit found in string".toList
  | .posOverflow => "number too large to fit in target type".toList

/-- The value of decimal digits that follow those of `n`. -/
def decimalValue (digits : Text) (n : Nat) : Nat := digits.foldl (fun n c => 10 * n + (c.toNat - 48)) n

/-- The digits of `u64::from_str`: each one is looked at before the number is multiplied. -/
def readDigits : Text → Nat → Except ParseIntError Nat
  | [], n => .ok n
  | c :: digits, n =>
    if !c.isDigit then .error .invalidDigit
    else if 2 ^ 64 ≤ 10 * n + (c.toNat - 48) then .error .posOverflow
    else readDigits digits (10 * n + (c.toNat - 48))

/-- `u64::from_str`: at most one `+`, then digits. -/
def u64FromStr (s : Text) : Except ParseIntError UInt64 :=
  match s with
  | [] => .error .empty
  | ['+'] => .error .invalidDigit
  | '+' :: digits => (readDigits digits 0).map UInt64.ofNat
  | digits => (readDigits digits 0).map UInt64.ofNat

/-- A numeral for `n`: at most one `+`, then decimal digits. -/
def IsNumeral (s : Text) (n : Nat) : Prop :=
  ∃ digits, (s = digits ∨ s = '+' :: digits) ∧ digits ≠ [] ∧ (∀ c ∈ digits, c.isDigit = true) ∧
    decimalValue digits 0 = n

section Digits

variable {digits s : Text} {n m : Nat}

theorem le_decimalValue : ∀ (digits : Text) (n : Nat), n ≤ decimalValue digits n
  | [], _ => Nat.le_refl _
  | c :: digits, n => by
    have ih := le_decimalValue digits (10 * n + (c.toNat - 48))
    show n ≤ decimalValue digits (10 * n + (c.toNat - 48))
    omega

/-- Digits are read exactly if their value fits. -/
theorem readDigits_eq_ok_iff : ∀ {digits : Text} {n : Nat}, n < 2 ^ 64 → (readDigits digits n = .ok m ↔
    (∀ c ∈ digits, c.isDigit = true) ∧ decimalValue digits n = m ∧ m < 2 ^ 64)
  | [], n, hn => by
    constructor
    · intro h
      cases h
      exact ⟨fun _ hc => (List.not_mem_nil hc).elim, rfl, hn⟩
    · rintro ⟨-, rfl, -⟩
      rfl
  | c :: digits, n, hn => by
    rw [readDigits]
    have hvalue : decimalValue (c :: digits) n = decimalValue digits (10 * n + (c.toNat - 48)) := rfl
    cases hc : c.isDigit with
    | false => simp [hc]
    | true =>
      by_cases hlarge : 2 ^ 64 ≤ 10 * n + (c.toNat - 48)
      · have hle := le_decimalValue digits (10 * n + (c.toNat - 48))
        rw [if_neg (by decide), if_pos hlarge, hvalue]
        refine iff_of_false (fun h => by cases h) ?_
        rintro ⟨-, hm, hlt⟩
        omega
      · rw [if_neg (by decide), if_neg hlarge, readDigits_eq_ok_iff (by omega), hvalue]
        simp [hc]

theorem not_isDigit_plus : Char.isDigit '+' = false := by decide

/-- `u64::from_str` reads the numerals that fit. -/
theorem u64FromStr_eq_ok_iff {x : UInt64} : u64FromStr s = .ok x ↔ IsNumeral s x.toNat := by
  have hread : ∀ digits : Text, (readDigits digits 0).map UInt64.ofNat = .ok x ↔
      (∀ c ∈ digits, c.isDigit = true) ∧ decimalValue digits 0 = x.toNat := by
    intro digits
    constructor
    · intro h
      cases hd : readDigits digits 0 with
      | error e => rw [hd] at h; cases h
      | ok n =>
        rw [hd] at h
        cases h
        obtain ⟨hall, hvalue, hlt⟩ := (readDigits_eq_ok_iff (by decide)).mp hd
        rw [UInt64.toNat_ofNat_of_lt' hlt]
        exact ⟨hall, hvalue⟩
    · rintro ⟨hall, hvalue⟩
      rw [(readDigits_eq_ok_iff (by decide)).mpr ⟨hall, hvalue, x.toNat_lt⟩]
      simp [Except.map]
  unfold u64FromStr
  split
  · refine iff_of_false (fun h => by cases h) ?_
    rintro ⟨digits, rfl | h, hne, -, -⟩
    · exact hne rfl
    · cases h
  · refine iff_of_false (fun h => by cases h) ?_
    rintro ⟨digits, rfl | h, hne, hall, -⟩
    · have := hall '+' List.mem_cons_self
      rw [not_isDigit_plus] at this
      cases this
    · exact hne (List.cons.inj h).2.symm
  · rename_i digits hne
    rw [hread]
    constructor
    · rintro ⟨hall, hvalue⟩
      exact ⟨digits, .inr rfl, fun hnil => hne (by rw [hnil]), hall, hvalue⟩
    · rintro ⟨digits', rfl | h, -, hall, hvalue⟩
      · have := hall '+' List.mem_cons_self
        rw [not_isDigit_plus] at this
        cases this
      · rw [(List.cons.inj h).2]
        exact ⟨hall, hvalue⟩
  · rename_i digits hnil hplus hne
    rw [hread]
    constructor
    · rintro ⟨hall, hvalue⟩
      exact ⟨s, .inl rfl, hnil, hall, hvalue⟩
    · rintro ⟨digits', rfl | rfl, -, hall, hvalue⟩
      · exact ⟨hall, hvalue⟩
      · exact (hne digits' rfl).elim

/-- A numeral ends in a digit. -/
theorem IsNumeral.getLast? (h : IsNumeral s n) : ∃ c, s.getLast? = some c ∧ c.isDigit = true := by
  obtain ⟨digits, hs, hne, hall, -⟩ := h
  refine ⟨digits.getLast hne, ?_, hall _ (List.getLast_mem hne)⟩
  rcases hs with rfl | rfl
  · exact List.getLast?_eq_some_getLast hne
  · rw [List.getLast?_cons_of_ne_nil hne, List.getLast?_eq_some_getLast hne]

end Digits

/-! ## Signed numbers -/

/-- `ParseIntError` of a signed number. -/
inductive SignedIntError
  | unsigned (e : ParseIntError)
  | negOverflow
  deriving DecidableEq, Repr

/-- Its text. -/
def SignedIntError.message : SignedIntError → Text
  | .unsigned e => e.message
  | .negOverflow => "number too small to fit in target type".toList

/-- The digits of `i64::from_str` behind a sign: the number goes away from 0 and has to stay below `limit`. -/
def readMagnitude (limit : Nat) (overflow : SignedIntError) : Text → Nat → Except SignedIntError Nat
  | [], n => .ok n
  | c :: digits, n =>
    if !c.isDigit then .error (.unsigned .invalidDigit)
    else if limit ≤ 10 * n + (c.toNat - 48) then .error overflow
    else readMagnitude limit overflow digits (10 * n + (c.toNat - 48))

/-- `i64::from_str`: at most one sign, then digits. -/
def i64FromStr (s : Text) : Except SignedIntError Int64 :=
  match s with
  | [] => .error (.unsigned .empty)
  | ['+'] => .error (.unsigned .invalidDigit)
  | ['-'] => .error (.unsigned .invalidDigit)
  | '+' :: digits => (readMagnitude (2 ^ 63) (.unsigned .posOverflow) digits 0).map fun (n : Nat) => Int64.ofInt n
  | '-' :: digits => (readMagnitude (2 ^ 63 + 1) .negOverflow digits 0).map fun (n : Nat) => Int64.ofInt (-n)
  | digits => (readMagnitude (2 ^ 63) (.unsigned .posOverflow) digits 0).map fun (n : Nat) => Int64.ofInt n

/-- A number in decimal digits. -/
def decimalText (n : Nat) : Text := Nat.toDigits 10 n

/-- A signed number in decimal digits, as `%lld` of C and `Display` of Rust write it. -/
def signedText (x : Int) : Text := if x < 0 then '-' :: decimalText x.natAbs else decimalText x.natAbs

section Signed

theorem isDigit_of_mem_decimalText {c : Char} {n : Nat} (h : c ∈ decimalText n) : c.isDigit = true :=
  Nat.isDigit_of_mem_toDigits (by decide) (by decide) h

theorem decimalText_ne_nil (n : Nat) : decimalText n ≠ [] := Nat.toDigits_ne_nil

/-- The digits of a number have its value. -/
theorem decimalValue_decimalText (n : Nat) : decimalValue (decimalText n) 0 = n := Nat.ofDigitChars_ten_toDigits

theorem readMagnitude_eq_ok {limit : Nat} {overflow : SignedIntError} : ∀ {digits : Text} {n : Nat},
    (∀ c ∈ digits, c.isDigit = true) → decimalValue digits n < limit →
    readMagnitude limit overflow digits n = .ok (decimalValue digits n)
  | [], _, _, _ => rfl
  | c :: digits, n, hall, hlt => by
    have hc := hall c List.mem_cons_self
    have hvalue : decimalValue (c :: digits) n = decimalValue digits (10 * n + (c.toNat - 48)) := rfl
    have hle := le_decimalValue digits (10 * n + (c.toNat - 48))
    rw [readMagnitude, hc, if_neg (by decide), if_neg (by omega), hvalue]
    exact readMagnitude_eq_ok (fun c hmem => hall c (List.mem_cons_of_mem _ hmem)) hlt

theorem readMagnitude_decimalText {limit n : Nat} {overflow : SignedIntError} (h : n < limit) :
    readMagnitude limit overflow (decimalText n) 0 = .ok n := by
  have hvalue := decimalValue_decimalText n
  rw [readMagnitude_eq_ok (fun c hc => isDigit_of_mem_decimalText hc) (by rw [hvalue]; exact h), hvalue]

/-- A digit is no sign. -/
theorem not_sign_of_isDigit {c : Char} (h : c.isDigit = true) : c ≠ '+' ∧ c ≠ '-' := by
  constructor <;> rintro rfl <;> cases h

/-- **What is written is read back.** -/
theorem i64FromStr_signedText (x : Int64) : i64FromStr (signedText x.toInt) = .ok x := by
  have hlow := x.le_toInt
  have hhigh := x.toInt_lt
  unfold signedText
  split
  · rename_i hneg
    have hread : readMagnitude (2 ^ 63 + 1) .negOverflow (decimalText x.toInt.natAbs) 0 = .ok x.toInt.natAbs :=
      readMagnitude_decimalText (by omega)
    have hx : -(x.toInt.natAbs : Int) = x.toInt := by omega
    unfold i64FromStr
    split
    · rename_i heq; cases heq
    · rename_i heq; cases heq
    · rename_i heq
      exact absurd (List.cons.inj heq).2 (decimalText_ne_nil _)
    · rename_i heq; cases heq
    · rename_i heq
      rw [← (List.cons.inj heq).2, hread]
      exact congrArg Except.ok ((congrArg Int64.ofInt hx).trans (Int64.ofInt_toInt x))
    · rename_i hminus
      exact absurd rfl (hminus _)
  · rename_i hpos
    have hread : readMagnitude (2 ^ 63) (.unsigned .posOverflow) (decimalText x.toInt.natAbs) 0 = .ok x.toInt.natAbs :=
      readMagnitude_decimalText (by omega)
    have hx : (x.toInt.natAbs : Int) = x.toInt := by omega
    have hsign : ∀ {c rest}, decimalText x.toInt.natAbs = c :: rest → c ≠ '+' ∧ c ≠ '-' := fun heq =>
      not_sign_of_isDigit (isDigit_of_mem_decimalText (by rw [heq]; exact List.mem_cons_self))
    unfold i64FromStr
    split
    · rename_i heq
      exact absurd heq (decimalText_ne_nil _)
    · rename_i heq
      exact absurd rfl (hsign heq).1
    · rename_i heq
      exact absurd rfl (hsign heq).2
    · rename_i heq
      exact absurd rfl (hsign heq).1
    · rename_i heq
      exact absurd rfl (hsign heq).2
    · rw [hread]
      exact congrArg Except.ok ((congrArg Int64.ofInt hx).trans (Int64.ofInt_toInt x))

theorem not_isWhitespace_of_isDigit {c : Char} (h : c.isDigit = true) : isWhitespace c = false := by
  have hrange : 48 ≤ c.toNat ∧ c.toNat ≤ 57 := by
    simpa [Char.isDigit, UInt32.le_iff_toNat_le] using h
  simp only [isWhitespace, Bool.or_eq_false_iff, Bool.and_eq_false_imp, beq_eq_false_iff_ne, decide_eq_true_eq,
    decide_eq_false_iff_not]
  omega

/-- A number and the end of its line, trimmed. -/
theorem trim_signedText (x : Int) : trim (signedText x ++ ['\n']) = signedText x := by
  obtain ⟨c, rest, hfirst, hc⟩ : ∃ c rest, signedText x = c :: rest ∧ isWhitespace c = false := by
    obtain ⟨c, rest, hdigits⟩ := List.exists_cons_of_ne_nil (decimalText_ne_nil x.natAbs)
    have hmem : c ∈ decimalText x.natAbs := by simp [hdigits]
    have hc := isDigit_of_mem_decimalText hmem
    unfold signedText
    split
    · exact ⟨'-', _, rfl, by decide⟩
    · exact ⟨c, rest, hdigits, not_isWhitespace_of_isDigit hc⟩
  obtain ⟨front, d, hlast, hd⟩ : ∃ front d, signedText x = front ++ [d] ∧ isWhitespace d = false := by
    obtain hnil | ⟨front, d, hdigits⟩ := List.eq_nil_or_concat' (decimalText x.natAbs)
    · exact absurd hnil (decimalText_ne_nil _)
    have hmem : d ∈ decimalText x.natAbs := by simp [hdigits]
    have hd := isDigit_of_mem_decimalText hmem
    unfold signedText
    split
    · exact ⟨'-' :: front, d, by rw [hdigits]; rfl, not_isWhitespace_of_isDigit hd⟩
    · exact ⟨front, d, hdigits, not_isWhitespace_of_isDigit hd⟩
  have hstart : (signedText x ++ ['\n']).dropWhile isWhitespace = signedText x ++ ['\n'] := by
    rw [hfirst, List.cons_append, List.dropWhile_cons, hc, if_neg (by decide)]
  rw [trim, hstart, hlast, List.rdropWhile_concat_pos _ _ _ (by decide),
    List.rdropWhile_concat_neg _ _ _ (by rw [hd]; decide)]

end Signed

end TsfSync.User
