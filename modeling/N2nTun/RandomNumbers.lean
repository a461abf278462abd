import N2nTun.Lib.Mixing

/-!
# The random number generator

`random_numbers.c`: a seed is spread over the two words of the state by `splitmix64`, and
`n2n_rand` goes on with XORSHIFT128+.  The generator must not be in the state of zeros, which
it would never leave; `n2n_srand` tests for it "until it is formally proved" that no seed leads
there.

## Main definitions

* `splitmix64`, `n2nRand` — one number, and the next state.
* `seedState`, `n2nSrand` — the state from the two numbers, and the whole of `n2n_srand`.

## Main results

* `splitmix64_eq_zero_iff` — only the state 0 gives the number 0.
* `n2nRand_injective` — a state can be told from the next one.
* `rnState_never_zero` — **no seed leads to the state of zeros, and no other state does.**
-/

namespace N2n

open WordMixing

/-- `splitmix64_state_t`. -/
structure Splitmix64State where
  s : UInt64
  deriving DecidableEq

/-- `rn_generator_state_t`. -/
structure RnGeneratorState where
  a : UInt64
  b : UInt64
  deriving DecidableEq

/-- The state before the first `n2n_srand`, and the one that is reset to. -/
def RnGeneratorState.default : RnGeneratorState := ⟨0x9E3779B97F4A7C15, 0xBF58476D1CE4E5B9⟩

/-- The state of zeros. -/
def RnGeneratorState.zero : RnGeneratorState := ⟨0, 0⟩

/-- `splitmix64`: the result, and the state that is left. -/
def splitmix64 (state : Splitmix64State) : UInt64 × Splitmix64State :=
  let result := state.s
  let next : Splitmix64State := ⟨result + 0x9E3779B97F4A7C15⟩
  let result := (result ^^^ (result >>> 30)) * 0xBF58476D1CE4E5B9
  let result := (result ^^^ (result >>> 27)) * 0x94D049BB133111EB
  (result ^^^ (result >>> 31), next)

/-- `n2n_rand`: the result, and `rn_current_state` afterwards. -/
def n2nRand (state : RnGeneratorState) : UInt64 × RnGeneratorState :=
  let t := state.a
  let s := state.b
  let t := t ^^^ (t <<< 23)
  let t := t ^^^ (t >>> 17)
  let t := t ^^^ (s ^^^ (s >>> 26))
  (t + s, ⟨s, t⟩)

/-- What `n2n_srand` takes from `splitmix64`. -/
def seedState (seed : UInt64) : RnGeneratorState :=
  let (a, smstate) := splitmix64 ⟨seed⟩
  let (b, _) := splitmix64 smstate
  ⟨a, b⟩

/-- `n` calls of `n2n_rand`. -/
def afterRands (n : ℕ) (state : RnGeneratorState) : RnGeneratorState :=
  (fun state => (n2nRand state).2)^[n] state

/-- `n2n_srand`. -/
def n2nSrand (seed : UInt64) : RnGeneratorState :=
  let state := seedState seed
  let state := if state.a = 0 ∧ state.b = 0 then .default else state
  afterRands 32 state

/-! ### The steps of the mixing -/

theorem toBitVec_xorShr (x k : UInt64) :
    (x ^^^ (x >>> k)).toBitVec = xorShr (k.toNat % 64) x.toBitVec := by
  simp [xorShr, UInt64.toBitVec_shiftRight, BitVec.ushiftRight_eq']

theorem toBitVec_xorShl (x k : UInt64) :
    (x ^^^ (x <<< k)).toBitVec = xorShl (k.toNat % 64) x.toBitVec := by
  simp [xorShl, UInt64.toBitVec_shiftLeft, BitVec.shiftLeft_eq']

theorem xorShr_word_eq_zero_iff {x k : UInt64} (h : 0 < k.toNat % 64) :
    x ^^^ (x >>> k) = 0 ↔ x = 0 := by
  rw [← UInt64.toBitVec_inj, toBitVec_xorShr, ← UInt64.toBitVec_inj]
  exact xorShr_eq_zero_iff h

theorem mul_word_eq_zero_iff {x c d : UInt64} (h : c * d = 1) : x * c = 0 ↔ x = 0 := by
  rw [← UInt64.toBitVec_inj, UInt64.toBitVec_mul, ← UInt64.toBitVec_inj]
  refine mul_eq_zero_iff (d := d.toBitVec) ?_
  rw [← UInt64.toBitVec_mul, h]
  rfl

theorem xorShr_word_injective {k : UInt64} (h : 0 < k.toNat % 64) :
    Function.Injective fun x : UInt64 => x ^^^ (x >>> k) := by
  intro x y heq
  have hwords := congrArg UInt64.toBitVec heq
  simp only [toBitVec_xorShr] at hwords
  exact UInt64.toBitVec_inj.mp (xorShr_injective h hwords)

theorem xorShl_word_injective {k : UInt64} (h : 0 < k.toNat % 64) :
    Function.Injective fun x : UInt64 => x ^^^ (x <<< k) := by
  intro x y heq
  have hwords := congrArg UInt64.toBitVec heq
  simp only [toBitVec_xorShl] at hwords
  exact UInt64.toBitVec_inj.mp (xorShl_injective h hwords)

/-! ### Seeds -/

/-- **Only the state 0 gives the number 0**: every step of `splitmix64` keeps 0, and nothing else
is taken to it. -/
theorem splitmix64_eq_zero_iff (state : Splitmix64State) :
    (splitmix64 state).1 = 0 ↔ state.s = 0 := by
  unfold splitmix64
  dsimp only
  rw [xorShr_word_eq_zero_iff (by decide),
    mul_word_eq_zero_iff (c := 0x94D049BB133111EB) (d := 0x319642b2d24d8ec3) (by decide),
    xorShr_word_eq_zero_iff (by decide),
    mul_word_eq_zero_iff (c := 0xBF58476D1CE4E5B9) (d := 0x96de1b173f119089) (by decide),
    xorShr_word_eq_zero_iff (by decide)]

/-- The two numbers come from different states, of which one is not 0. -/
theorem seedState_ne_zero (seed : UInt64) : seedState seed ≠ .zero := by
  intro hzero
  have ha : (splitmix64 ⟨seed⟩).1 = 0 := congrArg RnGeneratorState.a hzero
  have hb : (splitmix64 (splitmix64 ⟨seed⟩).2).1 = 0 := congrArg RnGeneratorState.b hzero
  rw [splitmix64_eq_zero_iff] at ha hb
  have hnext : seed + 0x9E3779B97F4A7C15 = 0 := hb
  rw [show seed = 0 from ha] at hnext
  exact absurd hnext (by decide)

/-- The test of `n2n_srand` fails. -/
theorem seedState_words (seed : UInt64) :
    ¬ ((seedState seed).a = 0 ∧ (seedState seed).b = 0) := by
  rintro ⟨ha, hb⟩
  refine seedState_ne_zero seed ?_
  calc seedState seed = ⟨(seedState seed).a, (seedState seed).b⟩ := rfl
    _ = ⟨0, 0⟩ := by rw [ha, hb]

theorem n2nSrand_eq (seed : UInt64) : n2nSrand seed = afterRands 32 (seedState seed) := by
  unfold n2nSrand
  dsimp only
  rw [if_neg (seedState_words seed)]

/-! ### Numbers -/

/-- **A state can be told from the next one**: one of its words is there, and the other one has
been mixed and had a number added that is known. -/
theorem n2nRand_injective : Function.Injective fun state => (n2nRand state).2 := by
  intro st st' heq
  have hs : st.b = st'.b := congrArg RnGeneratorState.a heq
  have ht := congrArg RnGeneratorState.b heq
  unfold n2nRand at ht
  dsimp only at ht
  rw [hs, UInt64.xor_left_inj] at ht
  have ha : st.a = st'.a :=
    xorShl_word_injective (by decide) (xorShr_word_injective (k := 17) (by decide) ht)
  calc st = ⟨st.a, st.b⟩ := rfl
    _ = ⟨st'.a, st'.b⟩ := by rw [ha, hs]

@[simp] theorem n2nRand_zero : (n2nRand .zero).2 = .zero := by decide

/-- The state of zeros comes from itself only. -/
theorem n2nRand_ne_zero {state : RnGeneratorState} (h : state ≠ .zero) :
    (n2nRand state).2 ≠ .zero := by
  intro hzero
  exact h (n2nRand_injective (hzero.trans n2nRand_zero.symm))

theorem afterRands_ne_zero {state : RnGeneratorState} (h : state ≠ .zero) (n : ℕ) :
    afterRands n state ≠ .zero := by
  induction n with
  | zero => exact h
  | succ n ih =>
    rw [afterRands, Function.iterate_succ_apply']
    exact n2nRand_ne_zero ih

/-- **The generator never stands still.** No seed leads to the state of zeros, so that the test
of `n2n_srand` for it never succeeds; and from any other state no number of calls of `n2n_rand`
leads there. -/
theorem rnState_never_zero :
    (∀ seed, ¬ ((seedState seed).a = 0 ∧ (seedState seed).b = 0) ∧
      n2nSrand seed = afterRands 32 (seedState seed)) ∧
    ∀ state, state ≠ RnGeneratorState.zero → ∀ n, afterRands n state ≠ .zero := by
  constructor
  · intro seed
    exact ⟨seedState_words seed, n2nSrand_eq seed⟩
  · intro state h n
    exact afterRands_ne_zero h n

/-- The state before the first seed is not that of zeros. -/
theorem rnState_never_zero_default : ∀ n, afterRands n .default ≠ .zero :=
  rnState_never_zero.2 .default (by decide)

end N2n
