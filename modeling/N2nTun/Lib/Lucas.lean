import Mathlib.NumberTheory.LucasPrimality

/-!
# Primes with a certificate

A number `p` is prime if an element of order `p - 1` is known modulo `p`.  That the order is not
smaller is seen from the prime factors of `p - 1`.

## Main results

* `prime_of_factors` — **Lucas's test**, given the factorisation.
-/

/-- **Lucas's test**, given the factorisation of `p - 1`. -/
theorem prime_of_factors {p : ℕ} (a : ZMod p) (factors : List ℕ) (hprod : factors.prod = p - 1)
    (hprime : ∀ q ∈ factors, q.Prime) (hone : a ^ (p - 1) = 1)
    (hne : ∀ q ∈ factors, a ^ ((p - 1) / q) ≠ 1) : p.Prime := by
  refine lucas_primality p a hone ?_
  intro q hq hdvd
  rw [← hprod] at hdvd
  obtain ⟨f, hf, hqf⟩ := (Prime.dvd_prod_iff hq.prime).mp hdvd
  rw [(Nat.prime_dvd_prime_iff_eq hq (hprime f hf)).mp hqf]
  exact hne f hf
