import N2nTun.Curve25519Words
import N2nTun.Lib.Lucas
import Mathlib.FieldTheory.Finite.Basic
import Mathlib.Tactic.NormNum.Prime
import Mathlib.Tactic.ReduceModChar

/-!
# The prime `2 ^ 255 - 19` and the curve

The certificate goes down to primes that are small enough to be tried.  The quadratic factor of the
curve's right side has no root, because its discriminant is not a square.

## Main results

* `prime_prime` — the modulus is a prime.
* `noRoot` — **no point of the curve or its twist is singular.**
* `pow_eq_inv` — what `recip` computes is the inverse, and 0 for 0.
-/

namespace N2n.Curve25519

/-! ### The certificate -/

theorem prime_2773320623 : Nat.Prime 2773320623 := by
  refine prime_of_factors 5 [2, 2437, 569003] (by norm_num) (by norm_num)
    (by norm_num; reduce_mod_char) ?_
  norm_num
  refine ⟨?_, ?_, ?_⟩ <;> reduce_mod_char <;> decide

theorem prime_72106336199 : Nat.Prime 72106336199 := by
  refine prime_of_factors 7 [2, 13, 2773320623] (by norm_num) ?_
    (by norm_num; reduce_mod_char) ?_
  · simp only [List.forall_mem_cons, prime_2773320623]
    norm_num
  · norm_num
    refine ⟨?_, ?_, ?_⟩ <;> reduce_mod_char <;> decide

theorem prime_1919519569386763 : Nat.Prime 1919519569386763 := by
  refine prime_of_factors 2 [2, 3, 7, 19, 47, 47, 127, 8574133] (by norm_num) (by norm_num)
    (by norm_num; reduce_mod_char) ?_
  norm_num
  refine ⟨?_, ?_, ?_, ?_, ?_, ?_, ?_⟩ <;> reduce_mod_char <;> decide

theorem prime_31757755568855353 : Nat.Prime 31757755568855353 := by
  refine prime_of_factors 10 [2, 2, 2, 3, 31, 107, 223, 4153, 430751] (by norm_num)
    (by norm_num) (by norm_num; reduce_mod_char) ?_
  norm_num
  refine ⟨?_, ?_, ?_, ?_, ?_, ?_, ?_⟩ <;> reduce_mod_char <;> decide

/-- The largest factor of the second largest. -/
theorem prime_factor_factor : Nat.Prime 75445702479781427272750846543864801 := by
  refine prime_of_factors 7 [2, 2, 2, 2, 2, 3, 3, 5, 5, 75707, 72106336199, 1919519569386763]
    (by norm_num) ?_ (by norm_num; reduce_mod_char) ?_
  · simp only [List.forall_mem_cons, prime_72106336199, prime_1919519569386763]
    norm_num
  · norm_num
    refine ⟨?_, ?_, ?_, ?_, ?_, ?_⟩ <;> reduce_mod_char <;> decide

/-- The largest factor. -/
theorem prime_factor : Nat.Prime
    74058212732561358302231226437062788676166966415465897661863160754340907 := by
  refine prime_of_factors 2 [2, 3, 353, 57467, 132049, 1923133, 31757755568855353,
    75445702479781427272750846543864801] (by norm_num) ?_ (by norm_num; reduce_mod_char) ?_
  · simp only [List.forall_mem_cons, prime_31757755568855353, prime_factor_factor]
    norm_num
  · norm_num
    refine ⟨?_, ?_, ?_, ?_, ?_, ?_, ?_, ?_⟩ <;> reduce_mod_char <;> decide

theorem prime_eq : prime =
    57896044618658097711785492504343953926634992332820282019728792003956564819949 := by
  norm_num [prime]

/-- **The modulus is a prime.** -/
theorem prime_prime : Nat.Prime prime := by
  rw [prime_eq]
  refine prime_of_factors 2 [2, 2, 3, 65147,
    74058212732561358302231226437062788676166966415465897661863160754340907]
    (by norm_num) ?_ (by norm_num; reduce_mod_char) ?_
  · simp only [List.forall_mem_cons, prime_factor]
    norm_num
  · norm_num
    refine ⟨?_, ?_, ?_, ?_⟩ <;> reduce_mod_char <;> decide

/-! ### The curve -/

/-- The discriminant is not a square: its power is -1. -/
theorem discriminant_pow : (486662 ^ 2 - 4 : ZMod prime) ^ ((prime - 1) / 2) = -1 := by
  rw [prime_eq]
  norm_num
  reduce_mod_char

theorem two_ne_zero : (2 : ZMod prime) ≠ 0 := by
  rw [prime_eq]
  decide

instance : Fact prime.Prime := ⟨prime_prime⟩

/-- **No point of the curve or its twist is singular.** -/
theorem noRoot (x : ZMod prime) : x ^ 2 + 486662 * x + 1 ≠ 0 := by
  intro h
  have hsquare : (486662 ^ 2 - 4 : ZMod prime) = (2 * x + 486662) ^ 2 := by
    linear_combination -4 * h
  have hpow := discriminant_pow
  have hodd : 2 * ((prime - 1) / 2) = prime - 1 := by decide
  rw [hsquare, ← pow_mul, hodd] at hpow
  have hone : (1 : ZMod prime) ≠ -1 := by
    intro h
    exact two_ne_zero (by linear_combination h)
  by_cases hzero : 2 * x + 486662 = 0
  · rw [hzero, zero_pow (by decide)] at hpow
    have hone' : (1 : ZMod prime) = 0 := by linear_combination hpow
    exact one_ne_zero hone'
  · rw [ZMod.pow_card_sub_one_eq_one hzero] at hpow
    exact hone hpow

/-- **The power that `recip` computes.** -/
theorem pow_eq_inv (x : ZMod prime) : x ^ (2 ^ 255 - 21) = x⁻¹ := by
  by_cases h : x = 0
  · rw [h, inv_zero, zero_pow (by decide)]
  · have hpow := ZMod.pow_card_sub_one_eq_one h
    have hexp : prime - 1 = 2 ^ 255 - 21 + 1 := by decide
    rw [hexp, pow_succ] at hpow
    exact eq_inv_of_mul_eq_one_left hpow

end N2n.Curve25519
