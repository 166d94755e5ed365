import Mathlib.Data.List.Basic
import Mathlib.Tactic.Ring

/-!
# Packed little-endian records

Little-endian bytes of a number (`encodeLE`, `decodeLE`) and the cut of a buffer into whole records of one size
(`records`). Decoding undoes encoding for every number that fits (`decodeLE_encodeLE`), and cutting undoes writing
records one after the other (`records_flatMap`), also when a partial record follows.
-/

namespace ByteCodec

/-- The `w` lowest bytes of `v`, lowest first. -/
def encodeLE : Nat → Nat → List UInt8
  | 0, _ => []
  | w + 1, v => UInt8.ofNat v :: encodeLE w (v / 256)

/-- The number that the bytes spell, lowest byte first. -/
def decodeLE : List UInt8 → Nat
  | [] => 0
  | b :: bs => b.toNat + 256 * decodeLE bs

@[simp] theorem length_encodeLE (w v : Nat) : (encodeLE w v).length = w := by
  induction w generalizing v with
  | zero => rfl
  | succ w ih => simp [encodeLE, ih]

theorem decodeLE_encodeLE {w v : Nat} (h : v < 256 ^ w) : decodeLE (encodeLE w v) = v := by
  induction w generalizing v with
  | zero => simp at h; simp [encodeLE, decodeLE, h]
  | succ w ih =>
    have hv : v / 256 < 256 ^ w := by
      rw [Nat.div_lt_iff_lt_mul (by decide)]
      rwa [pow_succ] at h
    have hb : (UInt8.ofNat v).toNat = v % 256 := by simp
    simp only [encodeLE, decodeLE, ih hv, hb]
    omega

/-- A field of a record: the bytes after those before it. -/
theorem take_drop_append {bs a b c : List UInt8} (h : bs = a ++ (b ++ c)) {m n : Nat} (hm : a.length = m)
    (hn : b.length = n) : (bs.drop m).take n = b := by rw [h, ← hm, List.drop_left, ← hn, List.take_left]

/-- `n` records of `w` bytes from the front of a buffer. -/
def records (w : Nat) : Nat → List UInt8 → List (List UInt8)
  | 0, _ => []
  | n + 1, bs => bs.take w :: records w n (bs.drop w)

/-- Records written one after the other are cut apart again, whatever follows them. -/
theorem records_flatMap {α : Type} {w : Nat} {enc : α → List UInt8} (henc : ∀ a, (enc a).length = w) (xs : List α)
    (rest : List UInt8) : records w xs.length (xs.flatMap enc ++ rest) = xs.map enc := by
  induction xs with
  | nil => rfl
  | cons x xs ih =>
    have ht : (enc x ++ (xs.flatMap enc ++ rest)).take w = enc x := by rw [← henc x, List.take_left]
    have hd : (enc x ++ (xs.flatMap enc ++ rest)).drop w = xs.flatMap enc ++ rest := by rw [← henc x, List.drop_left]
    simp only [List.length_cons, records, List.flatMap_cons, List.append_assoc, ht, hd, ih, List.map_cons]

/-- Records of one size fill a whole number of them. -/
theorem length_flatMap_const {α : Type} {w : Nat} {enc : α → List UInt8} (henc : ∀ a, (enc a).length = w)
    (xs : List α) : (xs.flatMap enc).length = xs.length * w := by
  induction xs with
  | nil => simp
  | cons x xs ih => rw [List.flatMap_cons, List.length_append, ih, henc, List.length_cons]; ring

/-- A cut at a whole number of records. -/
theorem take_flatMap_const {α : Type} {w : Nat} {enc : α → List UInt8} (henc : ∀ a, (enc a).length = w) :
    ∀ (n : Nat) (xs : List α), (xs.flatMap enc).take (w * n) = (xs.take n).flatMap enc
  | 0, xs => by simp
  | n + 1, [] => by simp
  | n + 1, x :: xs => by
    have hw : w * (n + 1) = (enc x).length + w * n := by rw [henc x]; ring
    rw [List.flatMap_cons, hw, List.take_length_add_append, take_flatMap_const henc n xs, List.take_succ_cons,
      List.flatMap_cons]

/-- Of records cut off anywhere the whole ones remain. -/
theorem records_take_flatMap {α : Type} {w : Nat} {enc : α → List UInt8} (henc : ∀ a, (enc a).length = w) (hw : 0 < w)
    (n : Nat) (xs : List α) :
    records w (((xs.flatMap enc).take n).length / w) ((xs.flatMap enc).take n) = (xs.take (n / w)).map enc := by
  have hlen : ((xs.flatMap enc).take n).length / w = (xs.take (n / w)).length := by
    rw [List.length_take, length_flatMap_const henc, List.length_take]
    rcases Nat.le_total n (xs.length * w) with h | h
    · rw [Nat.min_eq_left h, Nat.min_eq_left (Nat.div_le_of_le_mul (by rw [Nat.mul_comm]; exact h))]
    · rw [Nat.min_eq_right h, Nat.mul_div_cancel _ hw, Nat.min_eq_right ((Nat.le_div_iff_mul_le hw).mpr h)]
  -- the bytes before the cut are the whole records and part of the next
  have hsplit : (xs.flatMap enc).take n =
      (xs.take (n / w)).flatMap enc ++ ((xs.flatMap enc).take n).drop (w * (n / w)) := by
    have hle : w * (n / w) ≤ n := Nat.mul_div_le n w
    have hfront : ((xs.flatMap enc).take n).take (w * (n / w)) = (xs.take (n / w)).flatMap enc := by
      rw [List.take_take, Nat.min_eq_left hle, take_flatMap_const henc]
    rw [← hfront, List.take_append_drop]
  rw [hlen, hsplit]
  exact records_flatMap henc _ _

end ByteCodec
