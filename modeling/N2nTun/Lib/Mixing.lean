import Mathlib.Tactic

/-!
# Words that are mixed and can be unmixed

Generators of random numbers and hashes mix a word by adding shifted copies of it to itself, bit
by bit, and by multiplying it with odd numbers. Neither loses anything: a bit that is not moved
over is left as it was, and gives away the next ones.

## Main definitions

* `xorShr`, `xorShl` — a word with a copy of itself added that is shifted right or left.

## Main results

* `xorShr_injective`, `xorShl_injective` — **the word can be told from the sum.**
* `mul_eq_zero_iff` — a product with an invertible number is zero only for zero.
-/

namespace WordMixing

variable {w k : ℕ} {x y : BitVec w}

/-- A word and its copy, shifted right. -/
def xorShr (k : ℕ) (x : BitVec w) : BitVec w := x ^^^ x >>> k

/-- A word and its copy, shifted left. -/
def xorShl (k : ℕ) (x : BitVec w) : BitVec w := x ^^^ x <<< k

@[simp] theorem xorShr_zero : xorShr k (0#w) = 0#w := by simp [xorShr]

@[simp] theorem xorShl_zero : xorShl k (0#w) = 0#w := by simp [xorShl]

/-- **A copy that is shifted right can be taken off**, from the top. -/
theorem xorShr_injective (h : 0 < k) : Function.Injective (@xorShr w k) := by
  intro x y heq
  apply BitVec.eq_of_getMsbD_eq
  intro i
  induction i using Nat.strong_induction_on with
  | _ i ih =>
    intro hi
    have hbit := congrArg (BitVec.getMsbD · i) heq
    simp only [xorShr, BitVec.getMsbD_xor, BitVec.getMsbD_ushiftRight, hi, decide_true,
      Bool.true_and] at hbit
    by_cases hk : i < k
    · simpa [hk] using hbit
    · -- the bit that has been added is one of those above
      rw [ih (i - k) (by omega) (by omega)] at hbit
      exact Bool.xor_left_inj.mp hbit

/-- **A copy that is shifted left can be taken off**, from the bottom. -/
theorem xorShl_injective (h : 0 < k) : Function.Injective (@xorShl w k) := by
  intro x y heq
  apply BitVec.eq_of_getLsbD_eq
  intro i
  induction i using Nat.strong_induction_on with
  | _ i ih =>
    intro hi
    have hbit := congrArg (BitVec.getLsbD · i) heq
    simp only [xorShl, BitVec.getLsbD_xor, BitVec.getLsbD_shiftLeft, hi, decide_true,
      Bool.true_and] at hbit
    by_cases hk : i < k
    · simpa [hk] using hbit
    · rw [ih (i - k) (by omega) (by omega)] at hbit
      exact Bool.xor_left_inj.mp hbit

theorem xorShr_eq_zero_iff (h : 0 < k) : xorShr k x = 0#w ↔ x = 0#w := by
  constructor
  · intro hx
    exact xorShr_injective h (hx.trans xorShr_zero.symm)
  · rintro rfl
    exact xorShr_zero

/-- A factor that has an inverse can be taken off. -/
theorem mul_injective {c d : BitVec w} (h : c * d = 1#w) : Function.Injective (· * c) := by
  intro x y heq
  have hback := congrArg (· * d) heq
  simpa [BitVec.mul_assoc, h] using hback

theorem mul_eq_zero_iff {c d : BitVec w} (h : c * d = 1#w) : x * c = 0#w ↔ x = 0#w := by
  constructor
  · intro hx
    exact mul_injective h (hx.trans BitVec.zero_mul.symm)
  · rintro rfl
    exact BitVec.zero_mul

end WordMixing
