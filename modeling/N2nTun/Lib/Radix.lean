import Mathlib.Algebra.BigOperators.Intervals
import Mathlib.Algebra.BigOperators.Ring.Finset
import Mathlib.Data.Nat.Digits.Lemmas
import Mathlib.Tactic.Ring

/-!
# Products of numbers in a radix

Two numbers of `n` digits are multiplied digit by digit.  What is above the `n`-th digit wraps
around, with the `n`-th power of the radix as a factor.  In a square every product of two digits
occurs twice, but for the squares of the digits.

## Main results

* `Radix.ofDigits_range` — the digits as a sum.
* `Radix.mul_eq_cyclic` — **the product, digit by digit.**
* `Radix.sum_symmetric` — a sum whose terms are the same from both ends.
-/

namespace Radix

open Finset

/-- The number with given digits. -/
theorem ofDigits_range (b : ℕ) (f : ℕ → ℕ) (n : ℕ) :
    Nat.ofDigits b ((List.range n).map f) = ∑ j ∈ range n, f j * b ^ j := by
  induction n with
  | zero => rfl
  | succ n ih =>
    rw [List.range_succ, List.map_append, Nat.ofDigits_append, ih, sum_range_succ]
    simp [mul_comm]

/-- A digit times a number, where the indices wrap around. -/
theorem mul_sum_wrap {R : Type*} [CommSemiring R] (B : R) {n j : ℕ} (hj : j < n) (g : ℕ → R) :
    B ^ j * ∑ k ∈ range n, g k * B ^ k =
      ∑ i ∈ Ico j n, g (i - j) * B ^ i + B ^ n * ∑ i ∈ range j, g (i + n - j) * B ^ i := by
  have hsplit := sum_range_add_sum_Ico (fun k => g k * B ^ k) (Nat.sub_le n j)
  rw [← hsplit, mul_add, mul_sum, mul_sum, mul_sum]
  congr 1
  · rw [sum_Ico_eq_sum_range]
    refine sum_congr rfl fun k _ => ?_
    rw [Nat.add_sub_cancel_left, pow_add]
    ring
  · rw [sum_Ico_eq_sum_range, Nat.sub_sub_self hj.le]
    refine sum_congr rfl fun i hi => ?_
    rw [show i + n - j = n - j + i by omega, ← mul_assoc, mul_comm (B ^ j), mul_assoc, ← pow_add,
      show j + (n - j + i) = n + i by omega, pow_add]
    ring

/-- **The product, digit by digit.** -/
theorem mul_eq_cyclic {R : Type*} [CommSemiring R] (B : R) (n : ℕ) (f g : ℕ → R) :
    (∑ j ∈ range n, f j * B ^ j) * ∑ k ∈ range n, g k * B ^ k =
      ∑ i ∈ range n, (∑ j ∈ range (i + 1), f j * g (i - j) +
        B ^ n * ∑ j ∈ Ico (i + 1) n, f j * g (i + n - j)) * B ^ i := by
  calc (∑ j ∈ range n, f j * B ^ j) * ∑ k ∈ range n, g k * B ^ k
      = ∑ j ∈ range n, (∑ i ∈ Ico j n, f j * g (i - j) * B ^ i +
          ∑ i ∈ range j, B ^ n * (f j * g (i + n - j)) * B ^ i) := by
        rw [sum_mul]
        refine sum_congr rfl fun j hj => ?_
        rw [mul_assoc, mul_sum_wrap B (mem_range.mp hj), mul_add, mul_sum, mul_sum, mul_sum]
        congr 1
        · exact sum_congr rfl fun i _ => by ring
        · exact sum_congr rfl fun i _ => by ring
    _ = ∑ i ∈ range n, (∑ j ∈ range (i + 1), f j * g (i - j) * B ^ i +
          ∑ j ∈ Ico (i + 1) n, B ^ n * (f j * g (i + n - j)) * B ^ i) := by
        rw [sum_add_distrib, sum_add_distrib]
        congr 1
        · refine sum_comm' fun j i => ?_
          simp only [mem_range, mem_Ico]
          omega
        · refine sum_comm' fun j i => ?_
          simp only [mem_range, mem_Ico]
          omega
    _ = _ := by
        refine sum_congr rfl fun i _ => ?_
        rw [add_mul, sum_mul, mul_sum, sum_mul]

/-- The sum of the terms from both ends: those before the middle count twice. -/
theorem sum_symmetric {R : Type*} [CommSemiring R] (F : ℕ → R) (lo s : ℕ)
    (hs : lo + lo ≤ s + 1) (hF : ∀ j, lo ≤ j → j ≤ s - lo → F (s - j) = F j) :
    ∑ j ∈ Ico lo (s + 1 - lo), F j =
      (∑ j ∈ Ico lo ((s + 1) / 2), F j) * 2 + if s % 2 = 0 then F (s / 2) else 0 := by
  have hupper : ∑ j ∈ Ico (s + 1 - (s + 1) / 2) (s + 1 - lo), F j =
      ∑ j ∈ Ico lo ((s + 1) / 2), F j := by
    rw [← sum_Ico_reflect F lo (by omega : (s + 1) / 2 ≤ s + 1)]
    refine sum_congr rfl fun j hj => ?_
    rw [mem_Ico] at hj
    exact hF j hj.1 (by omega)
  have hmiddle : ∑ j ∈ Ico ((s + 1) / 2) (s + 1 - (s + 1) / 2), F j =
      if s % 2 = 0 then F (s / 2) else 0 := by
    split
    · rw [show s + 1 - (s + 1) / 2 = s / 2 + 1 by omega, show (s + 1) / 2 = s / 2 by omega,
        Nat.Ico_succ_singleton, sum_singleton]
    · rw [show s + 1 - (s + 1) / 2 = (s + 1) / 2 by omega, Ico_self, sum_empty]
  rw [← sum_Ico_consecutive F (by omega : lo ≤ (s + 1) / 2) (by omega : _ ≤ s + 1 - lo),
    ← sum_Ico_consecutive F (by omega : (s + 1) / 2 ≤ s + 1 - (s + 1) / 2)
      (by omega : _ ≤ s + 1 - lo), hupper, hmiddle]
  ring

/-- The sum over a list of successive indices. -/
theorem sum_range' {M : Type*} [AddCommMonoid M] (f : ℕ → M) (lo n : ℕ) :
    ((List.range' lo n).map f).sum = ∑ j ∈ Ico lo (lo + n), f j := by
  induction n with
  | zero => simp
  | succ n ih =>
    rw [List.range'_concat, List.map_append, List.sum_append, ih, ← add_assoc,
      sum_Ico_succ_top (by omega)]
    simp

/-- A loop of additions. -/
theorem foldl_add_eq_sum {M ι : Type*} [AddCommMonoid M] (f : ι → M) (l : List ι) (u : M) :
    l.foldl (fun u j => u + f j) u = u + (l.map f).sum := by
  induction l generalizing u with
  | nil => simp
  | cons j l ih => rw [List.foldl_cons, ih, List.map_cons, List.sum_cons, add_assoc]

/-- A loop that goes on while the index is below a bound. -/
theorem takeWhile_range' (lo n c : ℕ) :
    (List.range' lo n).takeWhile (fun j => decide (j < c)) = List.range' lo (min n (c - lo)) := by
  induction n generalizing lo with
  | zero => simp
  | succ n ih =>
    rw [List.range'_succ, List.takeWhile_cons]
    by_cases h : lo < c
    · rw [if_pos (by simpa using h), ih,
        show min (n + 1) (c - lo) = min n (c - (lo + 1)) + 1 by omega, List.range'_succ]
    · rw [if_neg (by simpa using h), show min (n + 1) (c - lo) = 0 by omega]
      rfl

end Radix
