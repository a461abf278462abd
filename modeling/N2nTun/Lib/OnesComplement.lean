import Mathlib.Tactic.Ring
import N2nTun.Lib.Bytes

/-!
# One's-complement sums

The checksum of the Internet protocols: the bytes are taken as words of 16 bits, the last one
filled up with a zero byte, and what overflows is added at the bottom again.  The sum of a message
whose checksum field holds the complement of the sum of the rest is `0xFFFF`.

## Main definitions

* `wordSum` — the sum of the words as a natural number.
* `fold` — the carries are added at the bottom until there are none.
* `sumWords`, `foldCarries` — the same in 32 bits.
* `complement` — what goes into the checksum field.

## Main results

* `fold_eq` — what the folding leaves.
* `fold_add_complement` — **a sum and its complement make `0xFFFF`.**
* `toNat_sumWords`, `toNat_foldCarries` — in 32 bits the same is computed, unless it is too much.
* `fold_field` — **with the complement in its field, a message sums up to `0xFFFF`.**
-/

namespace OnesComplement

open Bytes

/-! ### Sums of words -/

/-- The sum of the words of 16 bits. -/
def wordSum : List UInt8 → ℕ
  | hi :: lo :: rest => hi.toNat * 256 + lo.toNat + wordSum rest
  | [last] => last.toNat * 256
  | [] => 0

/-- After an even number of bytes the words begin anew. -/
theorem wordSum_append (x y : List UInt8) (h : x.length % 2 = 0) :
    wordSum (x ++ y) = wordSum x + wordSum y := by
  induction x using wordSum.induct with
  | case1 hi lo rest ih =>
    have heven : rest.length % 2 = 0 := by
      simpa only [List.length_cons, Nat.add_assoc, Nat.add_mod_right] using h
    simp only [List.cons_append, wordSum, ih heven]
    ring
  | case2 last => cases h
  | case3 => rw [List.nil_append, wordSum, Nat.zero_add]

theorem wordSum_le (x : List UInt8) : wordSum x ≤ 65535 * ((x.length + 1) / 2) := by
  induction x using wordSum.induct with
  | case1 hi lo rest ih =>
    have hhi := hi.toNat_lt
    have hlo := lo.toNat_lt
    simp only [wordSum, List.length_cons]
    omega
  | case2 last =>
    have hlast := last.toNat_lt
    simp only [wordSum, List.length_singleton]
    omega
  | case3 => exact Nat.zero_le _

/-! ### Folding -/

/-- The carries are added at the bottom until there are none. -/
def fold (n : ℕ) : ℕ := if n / 65536 = 0 then n else fold (n % 65536 + n / 65536)
  termination_by n
  decreasing_by omega

/-- What is left is the representative modulo 65535, `0xFFFF` for those that are not zero. -/
theorem fold_eq (n : ℕ) : fold n = if n = 0 then 0 else (n - 1) % 65535 + 1 := by
  induction n using fold.induct with
  | case1 n h =>
    rw [fold, if_pos h]
    split_ifs with hzero <;> omega
  | case2 n h ih =>
    rw [fold, if_neg h, ih]
    split_ifs with hnext hzero <;> omega

theorem fold_le (n : ℕ) : fold n ≤ 65535 := by
  rw [fold_eq]
  split_ifs <;> omega

/-- **A sum and its complement make `0xFFFF`.** -/
theorem fold_add_complement (n : ℕ) : fold (n + (65535 - fold n)) = 65535 := by
  rw [fold_eq, fold_eq]
  split_ifs <;> omega

/-! ### In 32 bits -/

/-- The loop over the words. -/
def sumWords (sum : UInt32) : List UInt8 → UInt32
  | hi :: lo :: rest => sumWords (sum + (be16 hi lo).toUInt32) rest
  | [last] => sum + (last.toUInt32 <<< 8)
  | [] => sum

theorem toNat_shift (sum : UInt32) : (sum >>> (16 : UInt32)).toNat = sum.toNat / 65536 := by
  rw [UInt32.toNat_shiftRight]
  exact Nat.shiftRight_eq_div_pow _ 16

theorem toNat_carry (sum : UInt32) :
    ((sum &&& (0xFFFF : UInt32)) + (sum >>> (16 : UInt32))).toNat =
      sum.toNat % 65536 + sum.toNat / 65536 := by
  have hlt := sum.toNat_lt
  have hlow : (sum &&& (0xFFFF : UInt32)).toNat = sum.toNat % 65536 := by
    rw [UInt32.toNat_and]
    exact Nat.and_two_pow_sub_one_eq_mod _ 16
  rw [UInt32.toNat_add, hlow, toNat_shift]
  omega

/-- The loop that adds the carries. -/
def foldCarries (sum : UInt32) : UInt32 :=
  if sum >>> (16 : UInt32) = 0 then sum
  else foldCarries ((sum &&& (0xFFFF : UInt32)) + (sum >>> (16 : UInt32)))
  termination_by sum.toNat
  decreasing_by
    rename_i hcarry
    have hne : sum.toNat / 65536 ≠ 0 := fun h =>
      hcarry (UInt32.toNat_inj.mp ((toNat_shift sum).trans h))
    rw [toNat_carry]
    omega

theorem toNat_foldCarries (sum : UInt32) : (foldCarries sum).toNat = fold sum.toNat := by
  induction sum using foldCarries.induct with
  | case1 sum h =>
    have hzero : sum.toNat / 65536 = 0 := (toNat_shift sum).symm.trans (congrArg UInt32.toNat h)
    rw [foldCarries, if_pos h, fold, if_pos hzero]
  | case2 sum h ih =>
    have hne : sum.toNat / 65536 ≠ 0 := fun hzero =>
      h (UInt32.toNat_inj.mp ((toNat_shift sum).trans hzero))
    rw [foldCarries, if_neg h, ih, toNat_carry]
    conv_rhs => rw [fold, if_neg hne]

/-- The loop adds up the words, unless it is too much for 32 bits. -/
theorem toNat_sumWords {sum : UInt32} {x : List UInt8} (h : sum.toNat + wordSum x < 2 ^ 32) :
    (sumWords sum x).toNat = sum.toNat + wordSum x := by
  induction x using wordSum.induct generalizing sum with
  | case1 hi lo rest ih =>
    have hword : (be16 hi lo).toUInt32.toNat = hi.toNat * 256 + lo.toNat := by
      rw [UInt16.toNat_toUInt32, toNat_be16]
    simp only [wordSum] at h ⊢
    have hsum : (sum + (be16 hi lo).toUInt32).toNat =
        sum.toNat + (hi.toNat * 256 + lo.toNat) := by
      rw [UInt32.toNat_add, hword]
      omega
    rw [sumWords, ih (by rw [hsum]; omega), hsum]
    omega
  | case2 last =>
    have hlast : (last.toUInt32 <<< (8 : UInt32)).toNat = last.toNat * 256 := by
      have hlt := last.toNat_lt
      rw [UInt32.toNat_shiftLeft, UInt8.toNat_toUInt32]
      show last.toNat <<< 8 % 2 ^ 32 = _
      rw [Nat.shiftLeft_eq]
      omega
    simp only [wordSum] at h ⊢
    rw [sumWords, UInt32.toNat_add, hlast]
    omega
  | case3 => rw [sumWords, wordSum, Nat.add_zero]

/-! ### The checksum field -/

/-- The complement of a sum, for the checksum field. -/
def complement (sum : UInt32) : UInt16 := ~~~(foldCarries sum).toUInt16

theorem toNat_complement (sum : UInt32) : (complement sum).toNat = 65535 - fold sum.toNat := by
  have hle := fold_le sum.toNat
  have hword : (foldCarries sum).toUInt16.toNat = fold sum.toNat := by
    rw [UInt32.toNat_toUInt16, toNat_foldCarries]
    exact Nat.mod_eq_of_lt (Nat.lt_succ_of_le hle)
  rw [complement, UInt16.toNat_not, hword]
  rfl

/-- A field that was zero adds what is put into it. -/
theorem wordSum_field {x : List UInt8} (h : x.length % 2 = 0) (c : UInt16) (y : List UInt8) :
    wordSum (x ++ (bytes16 c ++ y)) = wordSum (x ++ (bytes16 0 ++ y)) + c.toNat := by
  have hbytes : wordSum (bytes16 c) = c.toNat := by
    rw [bytes16, wordSum, wordSum, Nat.add_zero, ← toNat_be16, be16_bytes16]
  have hlen : ∀ c, (bytes16 c).length % 2 = 0 := fun c => by rw [length_bytes16]
  have hzero : wordSum (bytes16 0) = 0 := by decide
  rw [wordSum_append _ _ h, wordSum_append _ _ h, wordSum_append _ y (hlen c),
    wordSum_append _ y (hlen 0), hbytes, hzero]
  omega

/-- **With the complement in its field, a message sums up to `0xFFFF`**, together with what else was
summed. -/
theorem fold_field {n : ℕ} {sum : UInt32} {x y : List UInt8} (h : x.length % 2 = 0)
    (hsum : sum.toNat = n + wordSum (x ++ (bytes16 0 ++ y))) :
    fold (n + wordSum (x ++ (bytes16 (complement sum) ++ y))) = 65535 := by
  rw [wordSum_field h, ← Nat.add_assoc, ← hsum, toNat_complement]
  exact fold_add_complement _

end OnesComplement
