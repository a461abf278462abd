import Mathlib.Data.Nat.ModEq
import N2nTun.Lib.Bytes

/-!
# Key streams in blocks

A stream cipher makes blocks of a fixed length, by their numbers, and adds their bytes to the input.
It may take the input in pieces of one block, of several, or of less than one at the end; the result
is the same.

## Main definitions

* `crypt` — the bytes of the blocks from a number on are added.

## Main results

* `crypt_split` — **a piece of whole blocks, and what follows.**
* `crypt_block` — a piece of at most one block.
-/

namespace KeyStream

open Bytes

variable (n : ℕ) (block : ℕ → List UInt8)

/-- The bytes of the blocks of length `n` are added, from the block with number `i` on. -/
def crypt (i : ℕ) (p : List UInt8) : List UInt8 :=
  p.mapIdx fun k b => b ^^^ (block (i + k / n)).getD (k % n) 0

@[simp] theorem length_crypt (i : ℕ) (p : List UInt8) : (crypt n block i p).length = p.length :=
  List.length_mapIdx

@[simp] theorem crypt_nil (i : ℕ) : crypt n block i [] = [] := rfl

variable {n block}

/-- Two pieces, the first one of `k` blocks. -/
theorem crypt_append {p : List UInt8} {k : ℕ} (hn : 0 < n) (h : p.length = n * k) (i : ℕ)
    (q : List UInt8) : crypt n block i (p ++ q) = crypt n block i p ++ crypt n block (i + k) q := by
  unfold crypt
  rw [List.mapIdx_append]
  congr 1
  refine List.mapIdx_eq_mapIdx_iff.mpr fun j _ => ?_
  rw [h, Nat.add_mul_div_left _ _ hn, Nat.add_mul_mod_self_left, Nat.add_comm (j / n) k,
    Nat.add_assoc]

/-- **A piece of whole blocks, and what follows.** -/
theorem crypt_split {p : List UInt8} {k : ℕ} (hn : 0 < n) (h : n * k ≤ p.length) (i : ℕ) :
    crypt n block i p =
      crypt n block i (p.take (n * k)) ++ crypt n block (i + k) (p.drop (n * k)) := by
  have htake : (p.take (n * k)).length = n * k := by rw [List.length_take, Nat.min_eq_left h]
  rw [← crypt_append hn htake, List.take_append_drop]

/-- A piece of at most one block. -/
theorem crypt_block {p : List UInt8} {i : ℕ} (hn : (block i).length = n) (h : p.length ≤ n) :
    crypt n block i p = xorBytes p (block i) := by
  apply List.ext_getElem
  · rw [length_crypt, length_xorBytes, hn, Nat.min_eq_left h]
  · intro k h₁ h₂
    rw [length_crypt] at h₁
    have hk : k < (block i).length := by omega
    simp only [crypt, xorBytes, List.getElem_mapIdx, List.getElem_zipWith]
    rw [Nat.div_eq_of_lt (by omega), Nat.mod_eq_of_lt (by omega), Nat.add_zero,
      List.getD_eq_getElem _ _ hk]

end KeyStream
